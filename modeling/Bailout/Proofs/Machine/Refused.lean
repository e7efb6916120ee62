import Bailout.Proofs.Machine.Noted
import Bailout.Proofs.Restore.Refusals
import Bailout.Proofs.Unwind.Replace

/-!
# Inspections all or nothing

Restoring the objects of a frame for an inspector either comes about as a whole or leaves nothing
behind but a heap of which more is used. After a refusal the threads and their frames, the monitors
and all else are as before, and asking again only brings the same refusal. If the inspector is told
that the objects were restored, the frame is patched, and they are noted for it.
-/

namespace Bailout

lemma Restore.Leftover.trans {m m' m'' : Memory} (h : Leftover m m') (h' : Leftover m' m'') :
    Leftover m m'' where
  fills := h.fills.trans h'.fills
  grows := h.grows.trans h'.grows
  extends_store r hr := by
    rw [h'.extends_store r (hr.mono h.grows.size_le), h.extends_store r hr]

namespace Machine

variable {start m m' m'' : Machine} {t id : Nat} {o : Restore.Outcome}

/-! ### Refusals -/

/-- Some object is refused when a frame is inspected. -/
structure Refuses (m : Machine) (t id : Nat) (o : Restore.Outcome) : Prop where
  unnoted : (m.thread t).isRestored id = false
  frame : ∃ f c r, (m.thread t).frame? id = some f ∧ f.record = .ok (c, r) ∧ r.scopes ≠ [] ∧
    ¬ r.Bare ∧ Restore.objects m.supply m.memory none .inspect c r.objects = .ok o
  enabled : m.supply.restoresObjects = true
  failed : o.failed = true

/-- No monitor is entered if an object is refused. -/
lemma inspect_refused_iff {s : Restore.Supply} {memory : Memory} {u v : Thread}
    {pending : Option Thrown} {c : CompiledFrame} {xs : List Scope} {ds : List Description}
    (hf : o.failed = true) : Restore.inspect s memory u pending c xs ds = .ok (o, v) ↔
      v = u ∧ s.restoresObjects = true ∧
        Restore.objects s memory pending .inspect c ds = .ok o := by
  rw [Restore.inspect, Restore.objectsIfEnabled]
  constructor
  · intro h
    obtain ⟨o₁, ho, h⟩ := bind_eq_ok.1 h
    split_ifs at h with hlock
    · obtain ⟨⟨b, store, w⟩, -, h⟩ := bind_eq_ok.1 h
      cases h
      simp [show o₁.failed = true from hf] at hlock
    · cases h
      split_ifs at ho with hs
      · exact ⟨rfl, hs, ho⟩
      · cases ho
        cases hf
  · rintro ⟨rfl, hs, ho⟩
    rw [if_pos hs, ho, ok_bind, hf]
    simp

/-- Machines that differ in the memory only, which has new objects at most: all that the threads,
their frames and the old objects with their monitors are is the same. -/
structure SameButHeap (m m' : Machine) : Prop where
  machine : m' = { m with memory := m'.memory }
  leftover : Restore.Leftover m.memory m'.memory

lemma SameButHeap.trans (h : SameButHeap m m') (h' : SameButHeap m' m'') : SameButHeap m m'' where
  machine := by
    rw [h'.machine, h.machine]
  leftover := h.leftover.trans h'.leftover

/-- An inspection answers that an object was refused exactly if one is. Only the memory is
changed. -/
theorem deoptimizeObjects_eq_refused : m.deoptimizeObjects t id = .ok (.refused, m') ↔
    ∃ o, Refuses m t id o ∧ m' = { m with memory := o.memory } := by
  have hback : ∀ o : Restore.Outcome,
      ({ m with memory := o.memory } : Machine).setThread t (m.thread t) =
        { m with memory := o.memory } := fun o => setThread_thread { m with memory := o.memory } t
  constructor
  · intro h
    cases inspecting_of_deoptimizeObjects h with
    | refused hunnoted hframe hrecord hscopes hbare ho hfailed =>
      obtain ⟨rfl, hs, ho⟩ := (inspect_refused_iff hfailed).1 ho
      exact ⟨_, ⟨hunnoted, ⟨_, _, _, hframe, hrecord, hscopes, hbare, ho⟩, hs, hfailed⟩, hback _⟩
  · rintro ⟨o, ⟨hunnoted, ⟨f, c, r, hf, hrecord, hscopes, hbare, ho⟩, hs, hfailed⟩, rfl⟩
    have hinspect : Restore.inspect m.supply m.memory (m.thread t) none c r.scopes r.objects =
        .ok (o, m.thread t) := (inspect_refused_iff hfailed).2 ⟨rfl, hs, ho⟩
    have hscoped : c.scopes r = .ok r.scopes := by
      rw [CompiledFrame.scopes, show (!r.scopes.isEmpty) = true by simpa using hscopes]
      rfl
    have hsome : (r.objects.isEmpty && !r.hasEliminatedMonitor) = false := by
      simpa [DebugRecord.Bare] using hbare
    rw [deoptimizeObjects, hunnoted, inspected_eq_ok hf (Frame.record_eq_ok.1 hrecord).1]
    simp only [Bool.false_eq_true, if_false, ok_bind, hrecord, hscoped, hsome, hinspect, hfailed,
      if_true]
    rw [hback]
    rfl

lemma Refuses.sameButHeap (h : Refuses m t id o) :
    SameButHeap m { m with memory := o.memory } := by
  obtain ⟨f, c, r, -, -, -, -, ho⟩ := h.frame
  exact ⟨rfl, Restore.leftover_of_objects ho⟩

/-- What is refused once is refused again. -/
lemma Refuses.again (h : Refuses m t id o) :
    ∃ o', Refuses { m with memory := o.memory } t id o' := by
  obtain ⟨hunnoted, ⟨f, c, r, hf, hrecord, hscopes, hbare, ho⟩, hs, hfailed⟩ := h
  obtain ⟨o', ho', hfailed'⟩ := Restore.objects_refused_again ho hfailed (Heap.Fills.refl _)
  exact ⟨o', hunnoted, ⟨f, c, r, hf, hrecord, hscopes, hbare, ho'⟩, hs, hfailed'⟩

/-! ### Asking again and again -/

/-- Inspect a frame a number of times. -/
def inspectTimes (m : Machine) (t id : Nat) : Nat → Checked (List Inspection × Machine)
  | 0 => return ([], m)
  | n + 1 => do
    let (i, m) ← m.deoptimizeObjects t id
    let (is, m) ← m.inspectTimes t id n
    return (i :: is, m)

lemma Refuses.inspectTimes (h : Refuses m t id o) (n : Nat) :
    ∃ m', ({ m with memory := o.memory } : Machine).inspectTimes t id n =
      .ok (List.replicate n .refused, m') ∧ SameButHeap m m' := by
  induction n generalizing m o with
  | zero => exact ⟨_, rfl, h.sameButHeap⟩
  | succ n ih =>
    obtain ⟨o', ho'⟩ := h.again
    obtain ⟨m', hm', hsame⟩ := ih ho'
    refine ⟨m', ?_, h.sameButHeap.trans hsame⟩
    rw [Machine.inspectTimes, deoptimizeObjects_eq_refused.2 ⟨o', ho', rfl⟩, ok_bind]
    simp only [hm', ok_bind]
    rfl

/-! ### All or nothing -/

/-- An inspection comes about as a whole or not at all. If an object is refused, all that changed is
the heap and that there may be new objects, however often the inspection is repeated: each time an
object is refused. If the objects of a compiled frame were restored, the frame returns to the
handler and holds the place where its code stands, and the objects are noted for it. -/
theorem deoptimizeObjects_atomic {i : Inspection}
    (hstart : ∀ s, (start.thread s).stack = [] ∧ ∀ id, (start.thread s).isRestored id = false)
    (hm : Relation.ReflTransGen Moves start m) (h : m.deoptimizeObjects t id = .ok (i, m')) :
    (i = .refused → SameButHeap m m' ∧ ∀ n, ∃ m'',
      m'.inspectTimes t id n = .ok (List.replicate n .refused, m'') ∧ SameButHeap m m'') ∧
    (i = .restored → ∀ f c, (m.thread t).frame? id = some f → f.kind = .compiled c →
      ∃ g c', (m'.thread t).frame? id = some g ∧ g.kind = .compiled c' ∧
        c'.heldPc = some f.logicalPc ∧ c'.region.handler = .ok g.pc ∧
        (m'.thread t).isRestored id = true) := by
  constructor
  · rintro rfl
    obtain ⟨o, ho, rfl⟩ := deoptimizeObjects_eq_refused.1 h
    exact ⟨ho.sameButHeap, ho.inspectTimes⟩
  · rintro rfl f c hf hc
    have hmindful := mindful_of_moves
      (fun s => Thread.mindful_of_stack_eq_nil (hstart s).1 (hstart s).2) hm
    exact patched_of_restored hmindful h hf hc

/-! ### Two objects and room for one -/

namespace Scarce

open Unwind

def record : DebugRecord :=
  { Inlined.record with
    objects := Inlined.record.objects ++ [{ id := 8, klass := .base "K" [] none, sources := [] }] }

/-- The code of the inlined call, with one more eliminated object. -/
def compiled : CompiledFrame :=
  { Inlined.compiled with region := { Inlined.region with debug := ⟨[record]⟩ } }

/-- The heap has handed out one object, and there is a limit. -/
def machine (limit : Nat) : Machine where
  config := {}
  memory := { Inlined.memory with heap := { Inlined.memory.heap with limit } }
  roster := { threads := #[{ id := 1, name := "main" }] }

/-- No thread has a frame. -/
lemma stack_machine (limit s : Nat) : ((machine limit).thread s).stack = [] ∧
    ∀ id, ((machine limit).thread s).isRestored id = false := by
  cases s with
  | zero => exact ⟨rfl, fun _ => rfl⟩
  | succ s =>
    have hdefault : (machine limit).thread (s + 1) = default := by
      simp [Machine.thread, Roster.thread, machine]
    rw [hdefault]
    exact ⟨rfl, fun _ => rfl⟩

/-- The machine when the thread stands in the code. -/
def stacked (limit : Nat) : Machine :=
  (machine limit).setThread 0
    { id := 1, name := "main", lastFrameId := 2
      stack := [⟨2, 0xffff6, 6, 0x1008, .compiled compiled⟩, ⟨1, 0xffffc, 4, 0x40, .entry⟩] }

lemma moves_stacked (limit : Nat) :
    Relation.ReflTransGen Moves (machine limit) (stacked limit) := by
  have h : Relation.ReflTransGen Moves (machine limit) _ :=
    .single (@Moves.push _ 0 4 0x40 .entry _ rfl (by rintro c ⟨⟩))
  refine h.tail (@Moves.push _ 0 6 0x1008 (.compiled compiled) _ rfl ?_)
  rintro c ⟨⟩
  rfl

end Scarce

/-- With room for one of the two objects an inspection is refused, and so are three more; with room
for both they are restored. -/
theorem deoptimizeObjects_atomic_scarce :
    (∀ limit s, ((Scarce.machine limit).thread s).stack = [] ∧
      ∀ id, ((Scarce.machine limit).thread s).isRestored id = false) ∧
    (∀ limit, Relation.ReflTransGen Moves (Scarce.machine limit) (Scarce.stacked limit)) ∧
    (∃ m', (Scarce.stacked 2).deoptimizeObjects 0 2 = .ok (.refused, m') ∧
      SameButHeap (Scarce.stacked 2) m' ∧
      ∃ m'', m'.inspectTimes 0 2 3 = .ok ([.refused, .refused, .refused], m'') ∧
        SameButHeap (Scarce.stacked 2) m'') ∧
    ∃ m', (Scarce.stacked 3).deoptimizeObjects 0 2 = .ok (.restored, m') ∧
      ∃ g c, (m'.thread 0).frame? 2 = some g ∧ g.kind = .compiled c ∧
        c.heldPc = some 0x1008 ∧ c.region.handler = .ok g.pc ∧
        (m'.thread 0).isRestored 2 = true := by
  refine ⟨Scarce.stack_machine, Scarce.moves_stacked, ?_, ?_⟩
  · obtain ⟨m', h⟩ : ∃ m', (Scarce.stacked 2).deoptimizeObjects 0 2 = .ok (.refused, m') := ⟨_, rfl⟩
    obtain ⟨hsame, hagain⟩ := (deoptimizeObjects_atomic (Scarce.stack_machine 2)
      (Scarce.moves_stacked 2) h).1 rfl
    exact ⟨m', h, hsame, hagain 3⟩
  · obtain ⟨m', h⟩ : ∃ m', (Scarce.stacked 3).deoptimizeObjects 0 2 = .ok (.restored, m') := ⟨_, rfl⟩
    exact ⟨m', h, (deoptimizeObjects_atomic (Scarce.stack_machine 3) (Scarce.moves_stacked 3) h).2
      rfl _ _ rfl rfl⟩

end Machine
end Bailout
