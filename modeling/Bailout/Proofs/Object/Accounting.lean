import Mathlib.Algebra.Group.Action.Defs
import Mathlib.Algebra.Order.BigOperators.Group.List
import Mathlib.Algebra.Order.Ring.Nat
import Bailout.Proofs.Restore.Objects

/-!
# The accounts of a heap

A heap is asked for one object after the other. What it has used is the sum of the sizes of the
objects that it handed out, and those are numbered from 1 in their order. It hands out an object
exactly if both budgets allow it at that moment; a request that it refuses changes nothing, not even
the number that comes next.
-/

namespace Bailout

/-! ### Sizes -/

namespace Klass

/-- The bytes of the slots or elements of an object. -/
def contentBytes (k : Klass) (length : Nat) : Nat :=
  match k with
  | primitiveArray t _ => length * t.elementBytes
  | referenceArray .. => length * 8
  | _ => 8 * k.slotCount

/-- The size of an object. -/
def bytes (k : Klass) (length : Nat) : Nat := headerBytes + k.contentBytes length

/-- A size can be computed if it is a machine word. -/
lemma allocationBytes_eq_ok {k : Klass} {n b : Nat} :
    k.allocationBytes n = .ok b ↔ k.bytes n < wordLimit ∧ k.bytes n = b := by
  have hsum : ∀ x y, (do checkedAdd headerBytes (← checkedMul x y)) = .ok b ↔
      headerBytes + x * y < wordLimit ∧ headerBytes + x * y = b := by
    intro x y
    simp only [bind_eq_ok, checkedMul_eq_ok, checkedAdd_eq_ok]
    constructor
    · rintro ⟨_, ⟨-, rfl⟩, h⟩
      exact h
    · intro h
      exact ⟨_, ⟨Nat.lt_of_le_of_lt (Nat.le_add_left _ _) h.1, rfl⟩, h⟩
  cases k <;> exact hsum _ _

/-- An array has storage if its elements can be addressed, an instance always has. -/
def Storable (k : Klass) (length : Nat) : Prop :=
  k.isInstance = false → 8 * length ≤ Body.addressable

instance (k : Klass) (n : Nat) : Decidable (k.Storable n) := inferInstanceAs (Decidable (_ → _))

lemma exists_fresh_iff {k : Klass} {n : Nat} :
    (∃ body, Body.fresh k n = .ok body) ↔ k.Storable n := by
  have hif : ∀ body : Body, (∃ b, (if 8 * n ≤ Body.addressable then .ok body
      else .error .capacityOverflow : Checked Body) = .ok b) ↔ 8 * n ≤ Body.addressable := by
    intro body
    split_ifs with h <;> simp [h]
  cases k with
  | base | derived => exact iff_of_true ⟨_, rfl⟩ nofun
  | primitiveArray | referenceArray =>
    exact (hif _).trans ⟨fun h _ => h, fun h => h rfl⟩

end Klass

/-! ### Counters -/

namespace Heap

variable {h : Heap} {b : Nat}

/-- Both budgets allow a number of bytes for one more object. -/
def Allows (h : Heap) (b : Nat) : Prop := h.allocations < h.limit ∧ h.used + b ≤ h.capacity

instance : Decidable (h.Allows b) := inferInstanceAs (Decidable (_ ∧ _))

/-- The heap once a number of bytes was used for one more object. -/
def charged (h : Heap) (b : Nat) : Heap :=
  { h with used := h.used + b, allocations := h.allocations + 1 }

lemma reserve?_eq (h : Heap) (b : Nat) :
    h.reserve? b = if h.Allows b then some (h.charged b) else none := rfl

/-- Count one more object, if there may be one. -/
def count? (h : Heap) : Option Heap :=
  if h.allocations < h.limit then some { h with allocations := h.allocations + 1 } else none

/-- Use a number of bytes, if the sum is a machine word and within the budget. -/
def use? (h : Heap) (b : Nat) : Option Heap :=
  match checkedAdd h.used b with
  | .ok n => if n ≤ h.capacity then some { h with used := n } else none
  | .error _ => none

/-- Take from the budget of objects first. If the bytes are not to be had, give the object back. -/
def reserveInTurn (h : Heap) (b : Nat) : Bool × Heap :=
  match h.count? with
  | none => (false, h)
  | some h =>
    match h.use? b with
    | some h => (true, h)
    | none => (false, { h with allocations := h.allocations - 1 })

/-- To take from one budget after the other, and to give back what was taken in vain, is to take
from both at once or not at all. -/
theorem reserveInTurn_eq (hc : h.capacity < wordLimit) (b : Nat) :
    h.reserveInTurn b = if h.Allows b then (true, h.charged b) else (false, h) := by
  rw [reserveInTurn, count?]
  by_cases hcount : h.allocations < h.limit
  · by_cases hbytes : h.used + b ≤ h.capacity
    · have hword : h.used + b < wordLimit := Nat.lt_of_le_of_lt hbytes hc
      have hallows : h.Allows b := ⟨hcount, hbytes⟩
      simp [hcount, hbytes, use?, checkedAdd, hword, hallows, charged]
    · -- The object is given back.
      have hallows : ¬ h.Allows b := fun hallows => hbytes hallows.2
      by_cases hword : h.used + b < wordLimit
      · simp [hcount, hbytes, use?, checkedAdd, hword, hallows]
      · simp [hcount, use?, checkedAdd, hword, hallows]
  · have hallows : ¬ h.Allows b := fun hallows => hcount hallows.1
    simp [hcount, hallows]

end Heap

/-- A heap whose budgets are taken from in turn, with the number of the next object beside it. -/
structure Counters where
  heap : Heap
  next : Nat

namespace Counters

/-- Take from the budgets, and if that works draw a number. -/
def draw (k : Counters) (b : Nat) : Option Nat × Counters :=
  let (granted, heap) := k.heap.reserveInTurn b
  if granted then (some k.next, { heap, next := (k.next + 1) % wordLimit })
  else (none, { k with heap })

/-- The counters of a heap that draws a number for each object that it hands out. -/
def ofHeap (h : Heap) : Counters := { heap := h, next := h.allocations + 1 }

theorem draw_ofHeap {h : Heap} (hc : h.capacity < wordLimit) (hn : h.allocations + 2 < wordLimit)
    (b : Nat) : (ofHeap h).draw b =
      if h.Allows b then (some (h.allocations + 1), ofHeap (h.charged b))
      else (none, ofHeap h) := by
  have hmod : (h.allocations + 1 + 1) % wordLimit = h.allocations + 1 + 1 := Nat.mod_eq_of_lt hn
  rw [draw, ofHeap, Heap.reserveInTurn_eq hc]
  split_ifs
  · simp [ofHeap, hmod, Heap.charged]
  · rfl

end Counters

/-! ### Requests -/

/-- A request for an object; only an array has a length. -/
structure ObjectRequest where
  klass : Klass
  length : Nat := 0
  deriving DecidableEq, Repr, Inhabited

namespace ObjectRequest

def serve (q : ObjectRequest) (m : Memory) : Checked (Except HeapExhausted (Ref × Memory)) :=
  if q.klass.isInstance then m.allocateInstance q.klass else m.allocateArray q.klass q.length

/-- Serve a request; one that is refused leaves the memory as it is. -/
def step (q : ObjectRequest) (m : Memory) : Checked (Except HeapExhausted Ref × Memory) := do
  match ← q.serve m with
  | .ok (r, m) => return (.ok r, m)
  | .error e => return (.error e, m)

/-- The length that is asked for. -/
def count (q : ObjectRequest) : Nat := if q.klass.isInstance then 0 else q.length

/-- The size of the object. -/
def bytes (q : ObjectRequest) : Nat := q.klass.bytes q.count

/-- No size overflows, neither that which is charged nor that of the storage. -/
def Fits (q : ObjectRequest) : Prop := q.bytes < wordLimit ∧ q.klass.Storable q.count

instance (q : ObjectRequest) : Decidable q.Fits := inferInstanceAs (Decidable (_ ∧ _))

def refusal (q : ObjectRequest) : HeapExhausted := ⟨q.klass.name, q.bytes⟩

/-- The memory with one more object. -/
def handedOut (q : ObjectRequest) (m : Memory) (body : Body) : Memory where
  heap := m.heap.charged q.bytes
  store := (m.store.add { serial := m.heap.allocations + 1, klass := q.klass, body }).2

variable {q : ObjectRequest} {m m' : Memory}

lemma serve_eq (q : ObjectRequest) (m : Memory) : q.serve m = m.allocate q.klass q.count := by
  rw [serve, count]
  cases hk : q.klass.isInstance with
  | true =>
    rw [if_pos rfl, if_pos rfl, Memory.allocateInstance_eq hk]
  | false =>
    rw [if_neg Bool.false_ne_true, if_neg Bool.false_ne_true, Memory.allocateArray, hk]
    rfl

lemma step_eq (hq : q.bytes < wordLimit) (m : Memory) : q.step m =
    if m.heap.Allows q.bytes then do
      let body ← Body.fresh q.klass q.count
      return (.ok ⟨m.store.objects.size⟩, q.handedOut m body)
    else .ok (.error q.refusal, m) := by
  have hbytes : q.klass.allocationBytes q.count = .ok q.bytes :=
    Klass.allocationBytes_eq_ok.2 ⟨hq, rfl⟩
  rw [step, serve_eq, Memory.allocate, hbytes, ok_bind, Heap.reserve?_eq]
  split_ifs
  · cases Body.fresh q.klass q.count <;> rfl
  · rfl

/-- A request is answered unless a size overflows. -/
theorem exists_step_iff : (∃ x, q.step m = .ok x) ↔
    q.bytes < wordLimit ∧ (m.heap.Allows q.bytes → q.klass.Storable q.count) := by
  have hbytes : (∃ x, q.step m = .ok x) → q.bytes < wordLimit := by
    rintro ⟨x, h⟩
    simp only [step, serve_eq, Memory.allocate, bind_eq_ok] at h
    obtain ⟨_, ⟨b, hb, -⟩, -⟩ := h
    exact (Klass.allocationBytes_eq_ok.1 hb).1
  rw [← and_iff_right_of_imp hbytes]
  refine and_congr_right fun hlt => ?_
  rw [step_eq hlt, ← Klass.exists_fresh_iff]
  split_ifs with hallows
  · cases Body.fresh q.klass q.count <;> simp [hallows]
  · simp [hallows]

/-- An object is handed out, or the request is refused. -/
theorem step_cases (hq : q.Fits) (m : Memory) :
    (m.heap.Allows q.bytes ∧
      ∃ body, q.step m = .ok (.ok ⟨m.store.objects.size⟩, q.handedOut m body)) ∨
    (¬ m.heap.Allows q.bytes ∧ q.step m = .ok (.error q.refusal, m)) := by
  rw [step_eq hq.1]
  by_cases hallows : m.heap.Allows q.bytes
  · obtain ⟨body, hbody⟩ := Klass.exists_fresh_iff.2 hq.2
    rw [if_pos hallows, hbody]
    exact .inl ⟨hallows, body, rfl⟩
  · rw [if_neg hallows]
    exact .inr ⟨hallows, rfl⟩

end ObjectRequest

/-! ### Requests one after the other -/

namespace Ledger

/-- Requests and what was answered, oldest first. -/
abbrev Log := List (ObjectRequest × Except HeapExhausted Ref)

/-- Serve requests one after the other, and note the answers. -/
def run (m : Memory) (qs : List ObjectRequest) : Checked (Log × Memory) :=
  qs.foldlM (fun s q => do
    let (a, m) ← q.step s.2
    return (s.1 ++ [(q, a)], m)) ([], m)

/-- The requests that were granted, each with its object. -/
def granted (log : Log) : List (ObjectRequest × Ref) :=
  log.filterMap fun x => x.2.toOption.map (x.1, ·)

/-- The object that was handed out `i` objects after the first is there and has its number. -/
structure Numbered (s : Store) (i : Nat) (x : ObjectRequest × Ref) : Prop where
  has : s.Has x.2
  serial : (s.get x.2).serial = i + 1
  klass : (s.get x.2).klass = x.1.klass

/-- The books of a memory whose heap had `c` bytes and `l` objects to give. -/
structure Books (c l : Nat) (log : Log) (m : Memory) : Prop where
  capacity : m.heap.capacity = c
  limit : m.heap.limit = l
  used : m.heap.used = ((granted log).map (·.1.bytes)).sum
  used_le : m.heap.used ≤ c
  allocations : m.heap.allocations = (granted log).length
  allocations_le : m.heap.allocations ≤ l
  /-- Objects are numbered from 1 in the order in which they were handed out. -/
  objects : ∀ i x, (granted log)[i]? = some x → Numbered m.store i x
  /-- A refusal names the class and the size. -/
  refusals : ∀ q e, (q, .error e) ∈ log → e = ⟨q.klass.name, q.bytes⟩

variable {c l i : Nat} {log : Log} {m m' : Memory} {q : ObjectRequest}
  {qs : List ObjectRequest} {s : Store} {x : ObjectRequest × Ref}

lemma granted_concat_ok (log : Log) (q : ObjectRequest) (r : Ref) :
    granted (log ++ [(q, .ok r)]) = granted log ++ [(q, r)] := by
  simp [granted, Except.toOption]

lemma granted_concat_error (log : Log) (q : ObjectRequest) (e : HeapExhausted) :
    granted (log ++ [(q, .error e)]) = granted log := by
  simp [granted, Except.toOption]

lemma Numbered.add (hx : Numbered s i x) (o : Object) : Numbered (s.add o).2 i x where
  has := Nat.lt_of_lt_of_le hx.has (by simp [Store.add])
  serial := by rw [Store.get_add_of_lt _ _ hx.has, hx.serial]
  klass := by rw [Store.get_add_of_lt _ _ hx.has, hx.klass]

namespace Books

lemma empty (c l : Nat) (s : Store) :
    Books c l [] { heap := { capacity := c, limit := l }, store := s } where
  capacity := rfl
  limit := rfl
  used := rfl
  used_le := Nat.zero_le c
  allocations := rfl
  allocations_le := Nat.zero_le l
  objects i x hx := by cases hx
  refusals q e he := by cases he

/-- A request that is refused leaves the books as they are. -/
lemma refuse (hb : Books c l log m) (q : ObjectRequest) :
    Books c l (log ++ [(q, .error q.refusal)]) m where
  capacity := hb.capacity
  limit := hb.limit
  used := by rw [granted_concat_error, hb.used]
  used_le := hb.used_le
  allocations := by rw [granted_concat_error, hb.allocations]
  allocations_le := hb.allocations_le
  objects := by
    rw [granted_concat_error]
    exact hb.objects
  refusals q' e' hmem := by
    rcases List.mem_append.1 hmem with hmem | hmem
    · exact hb.refusals q' e' hmem
    · cases List.mem_singleton.1 hmem
      rfl

/-- An object that is handed out is entered with its size and the next number. -/
lemma grant (hb : Books c l log m) (hallows : m.heap.Allows q.bytes) (body : Body) :
    Books c l (log ++ [(q, .ok ⟨m.store.objects.size⟩)]) (q.handedOut m body) where
  capacity := hb.capacity
  limit := hb.limit
  used := by
    rw [granted_concat_ok, List.map_append, List.sum_append, ← hb.used]
    simp [ObjectRequest.handedOut, Heap.charged]
  used_le := hb.capacity ▸ hallows.2
  allocations := by
    rw [granted_concat_ok, List.length_append, ← hb.allocations]
    rfl
  allocations_le := hb.limit ▸ hallows.1
  objects i x hx := by
    rw [granted_concat_ok] at hx
    rcases Nat.lt_or_ge i (granted log).length with hlt | hge
    · rw [List.getElem?_append_left hlt] at hx
      exact (hb.objects i x hx).add _
    · -- It is the object that was just handed out.
      obtain rfl : i = (granted log).length := by
        have := (List.getElem?_eq_some_iff.1 hx).1
        rw [List.length_append, List.length_singleton] at this
        omega
      rw [List.getElem?_concat_length] at hx
      cases hx
      refine ⟨by simp [ObjectRequest.handedOut, Store.Has, Store.add], ?_, ?_⟩
      · exact (congrArg Object.serial (Store.get_add_self _ _)).trans
          (congrArg (· + 1) hb.allocations)
      · exact congrArg Object.klass (Store.get_add_self _ _)
  refusals q' e' hmem := by
    rcases List.mem_append.1 hmem with hmem | hmem
    · exact hb.refusals q' e' hmem
    · cases List.mem_singleton.1 hmem

/-- Every object takes its header, so the numbers of objects are machine words if the bytes are. -/
lemma headerBytes_mul_le (hb : Books c l log m) : Klass.headerBytes * m.heap.allocations ≤ c := by
  refine Nat.le_trans ?_ hb.used_le
  have hsizes : ∀ b ∈ (granted log).map (·.1.bytes), Klass.headerBytes ≤ b := by
    intro b hbytes
    obtain ⟨x, -, rfl⟩ := List.mem_map.1 hbytes
    exact Nat.le_add_right _ _
  have hsum := List.card_nsmul_le_sum _ _ hsizes
  rwa [List.length_map, smul_eq_mul, Nat.mul_comm, ← hb.allocations, ← hb.used] at hsum

end Books

/-- What comes of one more request. It is granted exactly if both budgets allow it, and otherwise
nothing changes. -/
structure Next (m : Memory) (q : ObjectRequest) (a : Except HeapExhausted Ref) (m' : Memory) :
    Prop where
  step : q.step m = .ok (a, m')
  isOk_iff : a.isOk = true ↔ m.heap.Allows q.bytes
  refused : ∀ e, a = .error e → e = ⟨q.klass.name, q.bytes⟩ ∧ m' = m
  /-- Counters that are changed one after the other come to the same, with the number of the new
  object. -/
  counters : m.heap.capacity < wordLimit → (Counters.ofHeap m.heap).draw q.bytes =
    (a.toOption.map fun r => (m'.store.get r).serial, .ofHeap m'.heap)

lemma exists_next (hb : Books c l log m) (hq : q.Fits) : ∃ a m', Next m q a m' := by
  have hdraw (hc : m.heap.capacity < wordLimit) := by
    have hn : m.heap.allocations + 2 < wordLimit := by
      have := hb.headerBytes_mul_le
      rw [hb.capacity] at hc
      simp only [Klass.headerBytes, wordLimit] at this hc ⊢
      omega
    exact Counters.draw_ofHeap hc hn q.bytes
  obtain ⟨hallows, body, hstep⟩ | ⟨hnot, hstep⟩ := ObjectRequest.step_cases hq m
  · refine ⟨_, _, hstep, iff_of_true rfl hallows, fun e he => ?_, fun hc => ?_⟩
    · cases he
    · have hserial := congrArg Object.serial (Store.get_add_self m.store
        { serial := m.heap.allocations + 1, klass := q.klass, body })
      rw [hdraw hc, if_pos hallows]
      exact congrArg (fun n => (some n, _)) hserial.symm
  · refine ⟨_, _, hstep, iff_of_false Bool.false_ne_true hnot, fun e he => ?_, fun hc => ?_⟩
    · cases he
      exact ⟨rfl, rfl⟩
    · rw [hdraw hc, if_neg hnot]
      rfl

lemma run_concat {log : Log} (h : run m qs = .ok (log, m')) (q : ObjectRequest) :
    run m (qs ++ [q]) = (do
      let (a, m) ← q.step m'
      return (log ++ [(q, a)], m)) := by
  rw [run, List.foldlM_append, ← run, h, ok_bind, List.foldlM_cons]
  simp

/-- A heap that is asked for objects whose sizes do not overflow, one after the other, answers each
request. It has used the sizes of the objects that it handed out, within its budgets, and numbered
these objects from 1. It grants one more request exactly if both budgets allow it, and a refusal
costs nothing. -/
theorem books_of_fits (c l : Nat) (s : Store) (hqs : ∀ q ∈ qs, q.Fits) :
    ∃ log m, run { heap := { capacity := c, limit := l }, store := s } qs = .ok (log, m) ∧
      log.map Prod.fst = qs ∧ Books c l log m ∧
      ∀ q : ObjectRequest, q.Fits → ∃ a m', Next m q a m' := by
  induction qs using List.reverseRecOn with
  | nil => exact ⟨[], _, rfl, rfl, .empty c l s, fun q hq => exists_next (.empty c l s) hq⟩
  | append_singleton qs q ih =>
    obtain ⟨log, m, hrun, hlog, hb, -⟩ := ih fun q' hq' => hqs q' (List.mem_append_left _ hq')
    have hfits := hqs q (List.mem_append_right _ (List.mem_singleton_self q))
    have hlog' : ∀ a, (log ++ [(q, a)]).map Prod.fst = qs ++ [q] := by
      intro a
      rw [List.map_append, hlog, List.map_singleton]
    rw [run_concat hrun]
    obtain ⟨hallows, body, hstep⟩ | ⟨-, hstep⟩ := ObjectRequest.step_cases hfits m
    · have hgrant := hb.grant hallows body
      rw [hstep]
      exact ⟨_, _, rfl, hlog' _, hgrant, fun q hq => exists_next hgrant hq⟩
    · have hrefuse := hb.refuse q
      rw [hstep]
      exact ⟨_, _, rfl, hlog' _, hrefuse, fun q hq => exists_next hrefuse hq⟩

namespace Stingy

def point : Klass :=
  .base "Point" [{ name := "x", type := .int }, { name := "y", type := .int }] none

/-- The second request is too large, and the last one comes after all objects were handed out. -/
def requests : List ObjectRequest :=
  [{ klass := point }, { klass := .primitiveArray .int none, length := 100 },
    { klass := .referenceArray "[Point" none, length := 2 },
    { klass := .primitiveArray .int none, length := 1 }, { klass := point }]

end Stingy

open Stingy

theorem books_of_stingy : (∀ q ∈ requests, q.Fits) ∧ ∃ log m,
    run { heap := { capacity := 200, limit := 3 } } requests = .ok (log, m) ∧
      Books 200 3 log m ∧ log.map Prod.snd =
        [.ok ⟨0⟩, .error ⟨"[Int", 416⟩, .ok ⟨1⟩, .ok ⟨2⟩, .error ⟨"Point", 32⟩] ∧
      m.heap.used = 84 ∧ m.heap.allocations = 3 ∧ (m.store.get ⟨2⟩).serial = 3 := by
  have hfits : ∀ q ∈ requests, q.Fits := by decide
  obtain ⟨log, m, hrun, -, hb, -⟩ := books_of_fits 200 3 {} hfits
  refine ⟨hfits, log, m, hrun, hb, ?_⟩
  cases hrun
  exact ⟨rfl, rfl, rfl, rfl⟩

end Ledger

end Bailout
