import Bailout.Proofs.Machine.Operations
import Bailout.Proofs.Unwind.Replace

/-!
# How often a frame is restored

A frame can be inspected, patched, planned for and unpacked in any order and any number of times.
The restored objects are noted when the frame is inspected and forgotten when it is planned for,
while the frame stays where it is until it is unpacked. So a frame is restored once, however often
it is inspected, unless that happens between planning and unpacking: then it is restored twice.
-/

namespace Bailout.Machine

inductive Operation where
  | inspect
  | patch (reason : Reason)
  | plan (mode : Mode)
  | unpack (mode : Mode)
  deriving DecidableEq, Repr

/-- An operation on a frame of a thread succeeds, and no object is refused. -/
inductive Acts (t id : Nat) (m : Machine) : Operation → Machine → Prop where
  | inspect {i : Inspection} {m' : Machine} (h : m.deoptimizeObjects t id = .ok (i, m'))
      (hi : i ≠ .refused) : Acts t id m .inspect m'
  | patch {reason : Reason} {b : Bool} {m' : Machine}
      (h : m.deoptimizeFrame t id reason = .ok (b, m')) : Acts t id m (.patch reason) m'
  | plan {mode : Mode} {l : Layout} {frame caller : Frame} {m' : Machine}
      (htarget : Unwind.target (m.thread t) = .ok (frame, caller)) (hid : frame.id = id)
      (h : m.fetch t mode = .ok (l, m'))
      (hf : ∀ p, (m'.thread t).plan = some p → p.failed = false) : Acts t id m (.plan mode) m'
  | unpack {mode : Mode} {ty : BasicType} {p : Plan} {m' : Machine}
      (hp : (m.thread t).plan = some p) (hid : p.deoptee = id)
      (h : m.unpack t mode = .ok (ty, m')) : Acts t id m (.unpack mode) m'

/-- Operations on a frame of a thread that follow each other. -/
inductive Runs (t id : Nat) (m : Machine) : List Operation → Machine → Prop where
  | nil : Runs t id m [] m
  | snoc {ops : List Operation} {op : Operation} {m' m'' : Machine} (h : Runs t id m ops m')
      (hop : Acts t id m' op m'') : Runs t id m (ops ++ [op]) m''

/-! ### Stages -/

/-- How far a frame has come. -/
inductive Stage where
  | untouched
  | inspected
  | planned
  /-- Inspected when it was planned for already. -/
  | inspectedLate
  /-- Unpacked, inspected late or not. -/
  | replaced (late : Bool)
  deriving DecidableEq, Repr

namespace Stage

/-- What an operation makes of the stage. -/
def next : Stage → Operation → Stage
  | untouched, .inspect => inspected
  | untouched, .plan _ => planned
  | inspected, .plan _ => planned
  | planned, .inspect => inspectedLate
  | planned, .unpack _ => replaced false
  | inspectedLate, .unpack _ => replaced true
  | s, _ => s

def after (ops : List Operation) : Stage := ops.foldl next untouched

/-- The frame was inspected between planning and unpacking. -/
def late : Stage → Bool
  | inspectedLate => true
  | replaced b => b
  | _ => false

/-- How often the frame was restored. -/
def restorations (s : Stage) : Nat :=
  if s = untouched then 0 else if s.late then 2 else 1

/-- The frame is on the stack. -/
def stands : Stage → Bool
  | replaced _ => false
  | _ => true

/-- What was restored for the frame is noted. -/
def remembers : Stage → Bool
  | inspected | inspectedLate => true
  | _ => false

/-- A plan for the frame is pending. -/
def plans : Stage → Bool
  | planned | inspectedLate => true
  | _ => false

variable {s : Stage}

lemma after_snoc (ops : List Operation) (op : Operation) :
    after (ops ++ [op]) = (after ops).next op := by
  simp [after]

lemma stands_next_inspect (hs : s.stands = true) : (s.next .inspect).stands = true := by
  cases s <;> simp_all [next, stands]

lemma remembers_next_inspect (hs : s.stands = true) : (s.next .inspect).remembers = true := by
  cases s <;> simp_all [next, stands, remembers]

lemma plans_next_inspect : (s.next .inspect).plans = s.plans := by
  cases s <;> rfl

lemma restorations_next_inspect (hs : s.stands = true) :
    (s.next .inspect).restorations = s.restorations + if s.remembers then 0 else 1 := by
  cases s <;> simp_all [next, restorations, late, stands, remembers]

lemma next_patch (reason : Reason) : s.next (.patch reason) = s := by
  cases s <;> rfl

lemma next_plan (mode : Mode) (hs : s.stands = true) (hp : s.plans = false) :
    s.next (.plan mode) = planned := by
  cases s <;> simp_all [next, stands, plans]

lemma restorations_of_not_plans (hs : s.stands = true) (hp : s.plans = false) :
    planned.restorations = s.restorations + if s.remembers then 0 else 1 := by
  cases s <;> simp_all [restorations, late, stands, remembers, plans]

lemma next_unpack (mode : Mode) (hp : s.plans = true) :
    s.next (.unpack mode) = replaced s.late := by
  cases s <;> simp_all [next, plans, late]

lemma restorations_replaced (hp : s.plans = true) :
    (replaced s.late).restorations = s.restorations := by
  cases s <;> simp_all [restorations, plans, late]

end Stage

/-! ### What a machine is like at each stage -/

variable {m m' m'' : Machine} {t n id : Nat} {c : CompiledFrame} {r : DebugRecord} {s : Stage}
  {op : Operation} {ops : List Operation} {table : Restored}

/-- The frame stands on the stack, and the thread knows about it what the stage says. -/
structure Standing (m : Machine) (t n id : Nat) (c : CompiledFrame) (r : DebugRecord)
    (s : Stage) : Prop where
  follows : Follows m t n id c r
  remembered : s.remembers = true → ((m.thread t).restored.get? id).isSome = true ∨ r.Bare
  forgotten : s.remembers = false → (m.thread t).restored.get? id = none
  planned : s.plans = true → (m.thread t).plan.isSome = true
  unplanned : s.plans = false → ∀ p, (m.thread t).plan = some p → p.deoptee ≠ id

/-- What is true of the machine at each stage of a frame. -/
inductive At (m : Machine) (t n id : Nat) (c : CompiledFrame) (r : DebugRecord) : Stage → Prop where
  | standing {s : Stage} (hs : s.stands = true) (h : Standing m t n id c r s) : At m t n id c r s
  | gone (late : Bool) (hu : m.unpacker = .faithful) (hf : (m.thread t).frame? id = none) :
      At m t n id c r (.replaced late)

lemma at_untouched (hm : Follows m t n id c r) (hr : (m.thread t).restored.get? id = none)
    (hp : ∀ p, (m.thread t).plan = some p → p.deoptee ≠ id) : At m t n id c r .untouched := by
  refine .standing rfl ⟨hm, ?_, fun _ => hr, ?_, fun _ => hp⟩ <;>
    · intro h
      cases h

/-! ### Adding restorations up -/

/-- Restorations, one for each table, are all that happened to the memory. -/
structure Accounts (s : Restore.Supply) (n : Nat) (c : CompiledFrame) (r : DebugRecord)
    (tables : List Restored) (m m' : Memory) : Prop where
  covers : ∀ table ∈ tables, CompiledFrame.Covers table r
  allocations : m'.heap.allocations =
    m.heap.allocations + tables.length * (r.objects.map (Restore.newObjects s c)).sum
  holdCount : ∀ q, (m'.store.monitor q).holdCount n =
    (m.store.monitor q).holdCount n + (tables.map fun table => (c.owners table r).count q).sum

namespace Accounts

variable {supply : Restore.Supply} {tables tables' : List Restored} {m m' m'' : Memory}

lemma refl (m : Memory) : Accounts supply n c r [] m m := by
  constructor <;> simp

lemma trans (h : Accounts supply n c r tables m m') (h' : Accounts supply n c r tables' m' m'') :
    Accounts supply n c r (tables ++ tables') m m'' where
  covers table htable := (List.mem_append.1 htable).elim (h.covers table) (h'.covers table)
  allocations := by
    rw [h'.allocations, h.allocations, List.length_append, Nat.add_mul, Nat.add_assoc]
  holdCount q := by
    rw [h'.holdCount, h.holdCount, List.map_append, List.sum_append, Nat.add_assoc]

lemma of_restores (h : Restore.Restores supply n c r table m m') :
    Accounts supply n c r [table] m m' where
  covers := by simpa using h.covers
  allocations := by simpa using h.allocations
  holdCount q := by simpa using h.holdCount q

end Accounts

lemma owners_of_bare (hr : r.Bare) (table : Restored) : c.owners table r = [] := by
  rw [CompiledFrame.owners, List.filterMap_eq_nil_iff]
  intro h hh
  obtain ⟨x, hx, hh⟩ := List.mem_flatMap.1 hh
  have hfalse : h.eliminated = false := by
    have := hr.2
    simp only [DebugRecord.hasEliminatedMonitor, List.any_eq_false] at this
    simpa using fun he => this x (List.mem_reverse.1 hx) (List.any_eq_true.2 ⟨h, hh, he⟩)
  rw [CompiledFrame.entered?, hfalse]
  rfl

/-- For a bare frame restorations come to nothing, however many there are. -/
lemma Accounts.of_bare {supply : Restore.Supply} {tables : List Restored} {m m' : Memory}
    (hr : r.Bare) (h : Accounts supply n c r tables m m') (k : Nat) :
    Accounts supply n c r (List.replicate k {}) m m' where
  covers := by
    rintro _ - x hx e he heliminated
    have := hr.2
    simp only [DebugRecord.hasEliminatedMonitor, List.any_eq_false] at this
    exact absurd (List.any_eq_true.2 ⟨e, he, heliminated⟩) (this x hx)
  allocations := by simpa [hr.1] using h.allocations
  holdCount q := by simpa [owners_of_bare hr] using h.holdCount q

/-! ### Steps and runs -/

/-- An operation leads from stage to stage, and restores the frame as often as the stages say. -/
structure Leads (t n id : Nat) (c : CompiledFrame) (r : DebugRecord) (s s' : Stage)
    (m m' : Machine) : Prop where
  stage : At m' t n id c r s'
  supply : m'.supply = m.supply
  accounts : ∃ tables, s.restorations + tables.length = s'.restorations ∧
    Accounts m.supply n c r tables m.memory m'.memory

/-- An operation that leaves the machine as it is, or the memory at least. -/
lemma leads_of_memory {s' : Stage} (hs : s'.restorations = s.restorations)
    (hat : At m' t n id c r s') (hsupply : m'.supply = m.supply) (hmemory : m'.memory = m.memory) :
    Leads t n id c r s s' m m' :=
  ⟨hat, hsupply, [], hs.symm, hmemory ▸ .refl _⟩

lemma leads_of_restores {s' : Stage} (hs : s'.restorations = s.restorations + 1)
    (hat : At m' t n id c r s') (hsupply : m'.supply = m.supply)
    (h : Restore.Restores m.supply n c r table m.memory m'.memory) :
    Leads t n id c r s s' m m' :=
  ⟨hat, hsupply, [table], hs.symm, .of_restores h⟩

/-- For a bare frame the number of restorations does not matter. -/
lemma leads_of_bare {s' : Stage} (hr : r.Bare) (hs : s.restorations ≤ s'.restorations)
    (hat : At m' t n id c r s') (hsupply : m'.supply = m.supply) {tables : List Restored}
    (h : Accounts m.supply n c r tables m.memory m'.memory) : Leads t n id c r s s' m m' :=
  ⟨hat, hsupply, _, by rw [List.length_replicate, Nat.add_sub_cancel' hs],
    h.of_bare hr (s'.restorations - s.restorations)⟩

/-- A frame that is inspected is restored unless it is remembered. -/
lemma At.inspect {i : Inspection} (hat : At m t n id c r s)
    (h : m.deoptimizeObjects t id = .ok (i, m')) (hi : i ≠ .refused) :
    Leads t n id c r s (s.next .inspect) m m' := by
  cases hat with
  | gone late hu hf =>
    obtain rfl := deoptimizeObjects_of_gone hf h
    exact leads_of_memory rfl (.gone late hu hf) rfl rfl
  | standing hs hat =>
    have hremembers := Stage.remembers_next_inspect hs
    have hplans := Stage.plans_next_inspect (s := s)
    have hrestorations := Stage.restorations_next_inspect hs
    -- the plan does not change, so all that is left to know is what is remembered
    have hnext : ∀ m', Follows m' t n id c r → (m'.thread t).plan = (m.thread t).plan →
        ((m'.thread t).restored.get? id).isSome = true ∨ r.Bare →
        At m' t n id c r (s.next .inspect) := by
      intro m' hfollows hplan hrestored
      refine .standing (Stage.stands_next_inspect hs) ⟨hfollows, fun _ => hrestored, ?_, ?_, ?_⟩
      · intro hfalse
        rw [hremembers] at hfalse
        cases hfalse
      · rw [hplans, hplan]
        exact hat.planned
      · rw [hplans, hplan]
        exact hat.unplanned
    cases deoptimizeObjects_spec hat.follows h hi with
    | again htable heq =>
      subst heq
      have hs : s.remembers = true := by
        by_contra hs
        rw [hat.forgotten (Bool.eq_false_iff.2 hs)] at htable
        cases htable
      rw [if_pos hs] at hrestorations
      exact leads_of_memory hrestorations (hnext _ hat.follows rfl (.inl (by rw [htable]; rfl)))
        rfl rfl
    | nothing hbare heq =>
      subst heq
      refine leads_of_bare hbare ?_ (hnext _ hat.follows rfl (.inr hbare)) rfl (.refl _)
      rw [hrestorations]
      exact Nat.le_add_right _ _
    | first hnone hbare hrestores hfollows hsupply hrestored hplan =>
      have hs : ¬ s.remembers = true := by
        intro hs
        have hremembered := hat.remembered hs
        rw [hnone] at hremembered
        exact hbare (hremembered.resolve_left Bool.false_ne_true)
      rw [if_neg hs] at hrestorations
      exact leads_of_restores hrestorations
        (hnext _ hfollows hplan (.inl (by rw [hrestored]; rfl))) hsupply hrestores

/-- Patching restores nothing. -/
lemma At.patch {reason : Reason} {b : Bool} (hat : At m t n id c r s)
    (h : m.deoptimizeFrame t id reason = .ok (b, m')) :
    Leads t n id c r s (s.next (.patch reason)) m m' := by
  rw [Stage.next_patch]
  cases hat with
  | gone late hu hf =>
    obtain rfl := deoptimizeFrame_of_gone hf h
    exact leads_of_memory rfl (.gone late hu hf) rfl rfl
  | standing hs hat =>
    obtain ⟨hleaves, hrestored⟩ := deoptimizeFrame_spec hat.follows h
    obtain ⟨-, hremembered, hforgotten, hplanned, hunplanned⟩ := hat
    rw [← hrestored] at hremembered hforgotten
    rw [← hleaves.plan] at hplanned hunplanned
    exact leads_of_memory rfl
      (.standing hs ⟨hleaves.follows, hremembered, hforgotten, hplanned, hunplanned⟩)
      hleaves.supply hleaves.memory

/-- A frame that is planned for is restored unless it is remembered, and then it is forgotten. -/
lemma At.plan {mode : Mode} {l : Layout} {frame caller : Frame} (hat : At m t n id c r s)
    (htarget : Unwind.target (m.thread t) = .ok (frame, caller)) (hid : frame.id = id)
    (h : m.fetch t mode = .ok (l, m'))
    (hf : ∀ p, (m'.thread t).plan = some p → p.failed = false) :
    Leads t n id c r s (s.next (.plan mode)) m m' := by
  cases hat with
  | gone late hu hgone => exact absurd hid (target_ne_of_gone hgone htarget)
  | standing hs hat =>
    have hplans := fetch_spec hat.follows htarget hid h hf
    have hfree : s.plans = false := by
      by_contra hs
      have hplanned := hat.planned (by simpa using hs)
      rw [hplans.before] at hplanned
      cases hplanned
    have hrestorations := Stage.restorations_of_not_plans hs hfree
    obtain ⟨p, hplan, -⟩ := hplans.plan
    have hat' : At m' t n id c r .planned := by
      refine .standing rfl ⟨hplans.follows, ?_, fun _ => hplans.restored, ?_, ?_⟩
      · intro hfalse
        cases hfalse
      · intro _
        rw [hplan]
        rfl
      · intro hfalse
        cases hfalse
    rw [Stage.next_plan mode hs hfree]
    rcases hplans.memory with ⟨hsome, hmemory⟩ | ⟨hnone, table, hrestores⟩
    · have hs : s.remembers = true := by
        by_contra hs
        rw [hat.forgotten (Bool.eq_false_iff.2 hs)] at hsome
        cases hsome
      rw [if_pos hs] at hrestorations
      exact leads_of_memory hrestorations hat' hplans.supply hmemory
    · by_cases hs : s.remembers = true
      · -- nothing was remembered for the frame because there was nothing to restore
        have hremembered := hat.remembered hs
        rw [hnone] at hremembered
        refine leads_of_bare (hremembered.resolve_left Bool.false_ne_true) ?_ hat' hplans.supply
          (.of_restores hrestores)
        rw [hrestorations]
        exact Nat.le_add_right _ _
      · rw [if_neg hs] at hrestorations
        exact leads_of_restores hrestorations hat' hplans.supply hrestores

/-- Unpacking restores nothing, and ends it. -/
lemma At.unpack {mode : Mode} {ty : BasicType} {p : Plan} (hat : At m t n id c r s)
    (hp : (m.thread t).plan = some p) (hid : p.deoptee = id)
    (h : m.unpack t mode = .ok (ty, m')) : Leads t n id c r s (s.next (.unpack mode)) m m' := by
  cases hat with
  | gone late hu hgone => exact absurd hid (deoptee_ne_of_gone hu hgone hp h)
  | standing hs hat =>
    have hplans : s.plans = true := by
      by_contra hs
      exact hat.unplanned (Bool.eq_false_iff.2 hs) p hp hid
    obtain ⟨hunpacker, hsupply, hmemory, hgone⟩ := unpack_spec hat.follows hp hid h
    rw [Stage.next_unpack mode hplans]
    exact leads_of_memory (Stage.restorations_replaced hplans) (.gone _ hunpacker hgone) hsupply
      hmemory

theorem At.act (hat : At m t n id c r s) (h : Acts t id m op m') :
    Leads t n id c r s (s.next op) m m' := by
  cases h with
  | inspect h hi => exact hat.inspect h hi
  | patch h => exact hat.patch h
  | plan htarget hid h hf => exact hat.plan htarget hid h hf
  | unpack hp hid h => exact hat.unpack hp hid h

/-- A run restores the frame as often as the stage that it comes to says. -/
theorem Runs.leads (hat : At m t n id c r .untouched) (h : Runs t id m ops m') :
    Leads t n id c r .untouched (Stage.after ops) m m' := by
  induction h with
  | nil => exact leads_of_memory rfl hat rfl rfl
  | @snoc ops op m₁ m₂ _ hop ih =>
    obtain ⟨hat₁, hsupply₁, tables₁, hlength₁, haccounts₁⟩ := ih
    obtain ⟨hat₂, hsupply₂, tables₂, hlength₂, haccounts₂⟩ := hat₁.act hop
    rw [hsupply₁] at hsupply₂ haccounts₂
    rw [Stage.after_snoc]
    refine ⟨hat₂, hsupply₂, tables₁ ++ tables₂, ?_, haccounts₁.trans haccounts₂⟩
    rw [List.length_append, ← Nat.add_assoc, hlength₁, hlength₂]

/-! ### Once or twice -/

/-- There is nothing to restore: no object comes from the heap, and no monitor has an owner. -/
def Idle (supply : Restore.Supply) (c : CompiledFrame) (r : DebugRecord) : Prop :=
  (r.objects.map (Restore.newObjects supply c)).sum = 0 ∧ ∀ table, c.owners table r = []

/-- Two restorations come to one only if there is nothing to restore. -/
lemma Accounts.idle {supply : Restore.Supply} {m m' : Memory} {table₁ table₂ : Restored}
    (h : Accounts supply n c r [table₁, table₂] m m')
    (h' : Accounts supply n c r [table] m m') : Idle supply c r := by
  have hallocations := h.allocations.symm.trans h'.allocations
  simp only [List.length_cons, List.length_nil] at hallocations
  have hperm : (c.owners table₁ r ++ c.owners table₂ r).Perm (c.owners table r) := by
    rw [List.perm_iff_count]
    intro q
    have hq := (h.holdCount q).symm.trans (h'.holdCount q)
    simp only [List.map_cons, List.map_nil, List.sum_cons, List.sum_nil] at hq
    rw [List.count_append]
    omega
  have hlength := hperm.length_eq
  rw [List.length_append] at hlength
  have hle₁ : (c.owners table r).length ≤ (c.owners table₁ r).length :=
    CompiledFrame.length_owners_le (h.covers table₁ (by simp))
  have hle₂ : (c.owners table₁ r).length ≤ (c.owners table₂ r).length :=
    CompiledFrame.length_owners_le (h.covers table₂ (by simp))
  refine ⟨by omega, fun u => List.eq_nil_of_length_eq_zero ?_⟩
  have hle : (c.owners u r).length ≤ (c.owners table₂ r).length :=
    CompiledFrame.length_owners_le (h.covers table₂ (by simp))
  omega

lemma Idle.accounts {supply : Restore.Supply} {m m' : Memory} {tables : List Restored}
    (hi : Idle supply c r) (h : Accounts supply n c r tables m m')
    (htable : CompiledFrame.Covers table r) : Accounts supply n c r [table] m m' where
  covers := by simpa using htable
  allocations := by simpa [hi.1] using h.allocations
  holdCount q := by simpa [hi.2] using h.holdCount q

/-- However often a frame is inspected, patched, planned for and unpacked, and in whatever order: if
it was inspected or planned for at all, then each of its eliminated objects is allocated once and
each of its eliminated monitors entered once, exactly if it was not inspected between planning and
unpacking or there is nothing to restore. If it was neither inspected nor planned for, nothing of
that happened. -/
theorem restoresOnce_iff (hm : Follows m t n id c r)
    (hr : (m.thread t).restored.get? id = none)
    (hp : ∀ p, (m.thread t).plan = some p → p.deoptee ≠ id) (hrun : Runs t id m ops m') :
    (Stage.after ops = .untouched → Accounts m.supply n c r [] m.memory m'.memory) ∧
      (Stage.after ops ≠ .untouched →
        ((∃ table, Accounts m.supply n c r [table] m.memory m'.memory) ↔
          (Stage.after ops).late = false ∨ Idle m.supply c r)) := by
  obtain ⟨-, -, tables, hlength, h⟩ := hrun.leads (at_untouched hm hr hp)
  have hlength : tables.length = (Stage.after ops).restorations := by
    rw [← hlength]
    exact (Nat.zero_add _).symm
  constructor
  · intro huntouched
    rw [huntouched] at hlength
    obtain rfl := List.eq_nil_of_length_eq_zero hlength
    exact h
  · intro htouched
    rw [Stage.restorations, if_neg htouched] at hlength
    cases hlate : (Stage.after ops).late with
    | false =>
      rw [hlate] at hlength
      obtain ⟨table, rfl⟩ := List.length_eq_one_iff.1 hlength
      exact iff_of_true ⟨table, h⟩ (.inl rfl)
    | true =>
      rw [hlate] at hlength
      obtain ⟨table₁, table₂, rfl⟩ := List.length_eq_two.1 hlength
      constructor
      · rintro ⟨table, h'⟩
        exact .inr (h.idle h')
      · rintro (hfalse | hidle)
        · cases hfalse
        · exact ⟨table₁, hidle.accounts h (h.covers table₁ (by simp))⟩

namespace Sample

open Unwind

/-- A machine with one thread, on whose stack an inlined activation stands. -/
def machine : Machine where
  config := {}
  memory := Inlined.memory
  roster := { threads := #[Inlined.thread] }

lemma follows : Follows machine 0 1 3 Inlined.compiled Inlined.record where
  stands := {
    numbered := ⟨by decide, by decide⟩
    waiting := rfl
    frame := ⟨Inlined.frame, _, rfl, rfl, rfl⟩ }
  id := rfl
  faithful := rfl
  objects := rfl
  locks := rfl
  known := by
    constructor
    · intro ty w q hq
      cases ty <;> simp [machine, Machine.supply, BoxCaches.lookup] at hq
    · have howners : CompiledFrame.owners Inlined.compiled {} Inlined.record = [⟨0⟩] := rfl
      rw [howners]
      intro q hq
      rw [List.mem_singleton.1 hq]
      exact Nat.zero_lt_one

lemma runs_inspect_plan : ∃ m', Runs 0 3 machine
    [.inspect, .inspect, .patch .constraint, .plan .plain, .unpack .plain] m' := by
  have h₁ : Runs 0 3 machine [.inspect] _ := Runs.nil.snoc (.inspect rfl (by decide))
  have h₂ := h₁.snoc (.inspect rfl (by decide))
  have h₃ : Runs 0 3 machine [.inspect, .inspect, .patch .constraint] _ := h₂.snoc (.patch rfl)
  have h₄ : Runs 0 3 machine [.inspect, .inspect, .patch .constraint, .plan .plain] _ :=
    h₃.snoc (.plan rfl rfl rfl (by rintro p ⟨⟩; rfl))
  exact ⟨_, h₄.snoc (.unpack rfl rfl rfl)⟩

lemma runs_plan_inspect : ∃ m', Runs 0 3 machine [.plan .plain, .inspect, .unpack .plain] m' ∧
    m'.memory.heap.allocations = machine.memory.heap.allocations + 2 ∧
    (m'.store.monitor ⟨0⟩).holdCount 1 = (machine.store.monitor ⟨0⟩).holdCount 1 + 2 := by
  have h₁ : Runs 0 3 machine [.plan .plain] _ :=
    Runs.nil.snoc (.plan rfl rfl rfl (by rintro p ⟨⟩; rfl))
  have h₂ := h₁.snoc (.inspect rfl (by decide))
  exact ⟨_, h₂.snoc (.unpack rfl rfl rfl), rfl, rfl⟩

end Sample

/-- A frame that is inspected twice and patched before it is planned for and unpacked is restored
once. -/
theorem restoresOnce_inspect_plan :
    Follows Sample.machine 0 1 3 Unwind.Inlined.compiled Unwind.Inlined.record ∧
    (Sample.machine.thread 0).restored.get? 3 = none ∧ (Sample.machine.thread 0).plan = none ∧
    ∃ m', Runs 0 3 Sample.machine
        [.inspect, .inspect, .patch .constraint, .plan .plain, .unpack .plain] m' ∧
      ∃ table, Accounts Sample.machine.supply 1 Unwind.Inlined.compiled Unwind.Inlined.record
        [table] Sample.machine.memory m'.memory := by
  obtain ⟨m', hrun⟩ := Sample.runs_inspect_plan
  have honce := restoresOnce_iff Sample.follows rfl (by rintro p ⟨⟩) hrun
  exact ⟨Sample.follows, rfl, rfl, m', hrun, (honce.2 (by decide)).2 (.inl rfl)⟩

/-- A frame that is inspected between planning and unpacking is restored twice: its object is
allocated twice, and the monitor of the object that it names is entered twice. -/
theorem restoredTwice_plan_inspect :
    Follows Sample.machine 0 1 3 Unwind.Inlined.compiled Unwind.Inlined.record ∧
    (Sample.machine.thread 0).restored.get? 3 = none ∧ (Sample.machine.thread 0).plan = none ∧
    ∃ m', Runs 0 3 Sample.machine [.plan .plain, .inspect, .unpack .plain] m' ∧
      m'.memory.heap.allocations = Sample.machine.memory.heap.allocations + 2 ∧
      (m'.store.monitor ⟨0⟩).holdCount 1 = (Sample.machine.store.monitor ⟨0⟩).holdCount 1 + 2 ∧
      ¬ ∃ table, Accounts Sample.machine.supply 1 Unwind.Inlined.compiled Unwind.Inlined.record
        [table] Sample.machine.memory m'.memory := by
  obtain ⟨m', hrun, hallocations, hholds⟩ := Sample.runs_plan_inspect
  refine ⟨Sample.follows, rfl, rfl, m', hrun, hallocations, hholds, ?_⟩
  rintro ⟨table, h⟩
  have hone : (Unwind.Inlined.record.objects.map
      (Restore.newObjects Sample.machine.supply Unwind.Inlined.compiled)).sum = 1 := rfl
  have honce := h.allocations
  rw [hallocations, hone] at honce
  cases Nat.add_left_cancel honce

end Bailout.Machine
