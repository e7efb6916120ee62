import Mathlib.Logic.Relation
import Bailout.Proofs.Object.Accounting

/-!
# Slots of inherited fields

An instance has a slot for each field that its class declares or inherits and that is not static.
The slots can be assigned one after the other, from the topmost class down, each field getting the
number of the fields before it. So they are numbered without a gap, a class keeps the slots of the
class above it, and a new instance has room for its slots and for nothing else.
-/

namespace Bailout

namespace Klass

variable {k s a : Klass} {f : Field} {i : Nat}

/-! ### Hierarchies -/

/-- The class right above, unless this one is topmost. -/
def superclass? : Klass → Option Klass
  | derived _ s _ _ => some s
  | _ => none

/-- The fields that a class declares itself. -/
def declared : Klass → List Field
  | base _ fs _ => fs
  | derived _ _ fs _ => fs
  | _ => []

/-- The fields that a class adds to those of the class above it. -/
def own (k : Klass) : List Field := k.declared.filter (!·.isStatic)

/-- `a` is the class `k` itself or one above it. -/
def Inherits (k a : Klass) : Prop :=
  Relation.ReflTransGen (fun k s => k.superclass? = some s) k a

/-- A class and all that are above it, from the class upwards. -/
def ascent : Klass → List Klass
  | derived n s fs b => derived n s fs b :: s.ascent
  | k => [k]

/-- The classes lead from `k` upwards, none is left out, and there is none above the last. -/
structure Ascends (k : Klass) (ks : List Klass) : Prop where
  head : ks.head? = some k
  next : ks.IsChain fun a s => a.superclass? = some s
  top : ∀ a ∈ ks.getLast?, a.superclass? = none

/-- What holds of the topmost classes, and of a class if it does of the one above it, holds of all
classes. -/
@[elab_as_elim]
lemma superclass_induction {P : Klass → Prop} (top : ∀ k, k.superclass? = none → P k)
    (below : ∀ k s, k.superclass? = some s → P s → P k) (k : Klass) : P k := by
  induction k with
  | base | primitiveArray | referenceArray => exact top _ rfl
  | derived n s fs b ih => exact below _ s rfl ih

lemma ascent_of_top (h : k.superclass? = none) : k.ascent = [k] := by
  cases k with
  | derived => cases h
  | base | primitiveArray | referenceArray => rfl

lemma ascent_of_below (h : k.superclass? = some s) : k.ascent = k :: s.ascent := by
  cases k with
  | derived =>
    cases h
    rfl
  | base | primitiveArray | referenceArray => cases h

lemma layout_of_top (h : k.superclass? = none) : k.layout = k.own := by
  cases k with
  | derived => cases h
  | base | primitiveArray | referenceArray => rfl

lemma layout_of_below (h : k.superclass? = some s) : k.layout = s.layout ++ k.own := by
  cases k with
  | derived n _ fs b =>
    cases h
    exact layout_derived n s fs b
  | base | primitiveArray | referenceArray => cases h

lemma ascends_ascent (k : Klass) : Ascends k k.ascent := by
  induction k using superclass_induction with
  | top k hk =>
    rw [ascent_of_top hk]
    refine ⟨rfl, .singleton k, fun a ha => ?_⟩
    cases ha
    exact hk
  | below k s hk ih =>
    -- The classes above `s` are not empty, so the last of them stays the last.
    obtain ⟨ks, hks⟩ := List.head?_eq_some_iff.1 ih.head
    rw [ascent_of_below hk]
    rw [hks] at ih ⊢
    refine ⟨rfl, .cons_cons hk ih.next, ?_⟩
    rw [List.getLast?_cons_cons]
    exact ih.top

lemma mem_ascent : a ∈ k.ascent ↔ k.Inherits a := by
  induction k using superclass_induction with
  | top k hk =>
    rw [ascent_of_top hk, List.mem_singleton, Inherits, Relation.ReflTransGen.cases_head_iff]
    simp [hk, eq_comm]
  | below k s hk ih =>
    rw [ascent_of_below hk, List.mem_cons, ih, Inherits, Inherits,
      Relation.ReflTransGen.cases_head_iff (a := k)]
    simp [hk, eq_comm]

/-! ### Slots one after the other -/

/-- A field gets the number of the fields before it. -/
def assign (given : List (Field × Nat)) (f : Field) : List (Field × Nat) :=
  given ++ [(f, given.length)]

/-- Slots for what a class adds, in the order of its declarations. -/
def assignOwn (given : List (Field × Nat)) (k : Klass) : List (Field × Nat) :=
  k.own.foldl assign given

/-- The slots that are assigned on the way down from the topmost class. -/
def assigned (k : Klass) : List (Field × Nat) := k.ascent.reverse.foldl assignOwn []

lemma foldl_assign (fs : List Field) (given : List (Field × Nat)) :
    fs.foldl assign given = given ++ fs.zipIdx given.length := by
  induction fs generalizing given with
  | nil => simp
  | cons f fs ih =>
    rw [List.foldl_cons, ih, assign, List.length_append, List.append_assoc, List.zipIdx_cons]
    rfl

lemma slots_of_top (h : k.superclass? = none) : k.slots = k.own.zipIdx := by
  rw [slots, layout_of_top h]

/-- A class adds its slots after those of the class above it. -/
lemma slots_of_below (h : k.superclass? = some s) : k.slots = assignOwn s.slots k := by
  rw [assignOwn, foldl_assign, length_slots, slots, layout_of_below h, List.zipIdx_append,
    Nat.zero_add]
  rfl

theorem assigned_eq_slots (k : Klass) : k.assigned = k.slots := by
  induction k using superclass_induction with
  | top k hk =>
    rw [assigned, ascent_of_top hk, slots_of_top hk]
    exact foldl_assign k.own []
  | below k s hk ih =>
    rw [assigned, ascent_of_below hk, List.reverse_cons, List.foldl_append, ← assigned, ih,
      slots_of_below hk]
    rfl

/-! ### What the slots are -/

/-- The fields of the topmost class come first, and each class keeps the order of its
declarations. -/
lemma layout_eq_flatMap (k : Klass) : k.layout = k.ascent.reverse.flatMap own := by
  induction k using superclass_induction with
  | top k hk => rw [layout_of_top hk, ascent_of_top hk, List.reverse_singleton,
      List.flatMap_singleton]
  | below k s hk ih =>
    rw [layout_of_below hk, ascent_of_below hk, List.reverse_cons, List.flatMap_append, ← ih,
      List.flatMap_singleton]

lemma map_fst_slots (k : Klass) : k.slots.map Prod.fst = k.ascent.reverse.flatMap own := by
  rw [slots, List.zipIdx_map_fst, layout_eq_flatMap]

lemma exists_mem_slots_iff :
    (∃ i, (f, i) ∈ k.slots) ↔ ∃ a, k.Inherits a ∧ f ∈ a.declared ∧ f.isStatic = false := by
  have hlist : (∃ i, (f, i) ∈ k.slots) ↔ f ∈ k.slots.map Prod.fst := by simp
  rw [hlist, map_fst_slots, List.mem_flatMap]
  simp only [List.mem_reverse, mem_ascent, own, List.mem_filter, Bool.not_eq_true']

lemma exists_slot_iff : (∃ f, (f, i) ∈ k.slots) ↔ i < k.slotCount := by
  rw [← List.mem_range, ← map_snd_slots]
  simp

/-- A class keeps the slots of the class above it. -/
lemma slots_prefix_of_below (h : k.superclass? = some s) : s.slots <+: k.slots := by
  rw [slots_of_below h, assignOwn, foldl_assign]
  exact List.prefix_append _ _

lemma slots_prefix (h : k.Inherits a) : a.slots <+: k.slots := by
  induction h using Relation.ReflTransGen.head_induction_on with
  | refl => exact List.prefix_refl _
  | head hk _ ih => exact ih.trans (slots_prefix_of_below hk)

end Klass

/-! ### New instances -/

namespace Memory

variable {m m' : Memory} {k : Klass} {r : Ref}

/-- An instance is handed out if its size is a machine word and both budgets allow it. -/
lemma exists_allocateInstance_iff (hk : k.isInstance = true) :
    (∃ r m', m.allocateInstance k = .ok (.ok (r, m'))) ↔
      k.bytes 0 < wordLimit ∧ m.heap.Allows (k.bytes 0) := by
  rw [allocateInstance_eq hk]
  constructor
  · rintro ⟨r, m', h⟩
    simp only [allocate, bind_eq_ok] at h
    obtain ⟨_, hbytes, h⟩ := h
    obtain ⟨hlt, rfl⟩ := Klass.allocationBytes_eq_ok.1 hbytes
    refine ⟨hlt, by_contra fun hnot => ?_⟩
    rw [Heap.reserve?_eq, if_neg hnot] at h
    cases h
  · rintro ⟨hlt, hallows⟩
    rw [allocate, Klass.allocationBytes_eq_ok.2 ⟨hlt, rfl⟩, ok_bind, Heap.reserve?_eq,
      if_pos hallows, Body.fresh_of_isInstance hk]
    exact ⟨_, _, rfl⟩

lemma body_of_allocateInstance (hk : k.isInstance = true)
    (h : m.allocateInstance k = .ok (.ok (r, m'))) :
    m'.store.body r = .fields (Array.replicate k.slotCount none) := by
  rw [allocateInstance_eq hk] at h
  obtain ⟨_, body, -, hbody, hadd⟩ := allocate_cases h
  have hself := Store.get_add_self m.store { serial := m'.heap.allocations, klass := k, body }
  rw [hadd] at hself
  rw [Body.fresh_of_isInstance hk] at hbody
  cases hbody
  exact congrArg Object.body hself

end Memory

namespace Klass

/-- The slots of a class, and the room that an instance has for them. -/
structure LaidOut (k : Klass) : Prop where
  /-- They are numbered from zero, each number once. -/
  dense : k.slots.map Prod.snd = List.range k.slotCount
  /-- Their fields are those of the topmost class, then those of the class below it and so on, each
  class in the order of its declarations. -/
  ordered : ∃ ks, Ascends k ks ∧
    k.slots.map Prod.fst = ks.reverse.flatMap fun a => a.declared.filter (!·.isStatic)
  mem_iff : ∀ f, (∃ i, (f, i) ∈ k.slots) ↔
    ∃ a, k.Inherits a ∧ f ∈ a.declared ∧ f.isStatic = false
  /-- Each field has the number of the fields before it. -/
  assigned : k.assigned = k.slots
  /-- A class above has its slots first. -/
  inherited : ∀ a, k.Inherits a → a.slots <+: k.slots
  granted : ∀ m : Memory, (∃ r m', m.allocateInstance k = .ok (.ok (r, m'))) ↔
    k.bytes 0 < wordLimit ∧ m.heap.Allows (k.bytes 0)
  /-- The body of a new instance has the slots for its indices. -/
  body : ∀ (m : Memory) r m', m.allocateInstance k = .ok (.ok (r, m')) →
    ∃ ss, m'.store.body r = .fields ss ∧ ∀ i, i < ss.size ↔ ∃ f, (f, i) ∈ k.slots

/-- Whatever classes an instance class is below and whichever of their fields are static or
injected, its slots are dense and in order, they begin with the slots of every class above it, and
they are the indices of a new instance. -/
theorem laidOut_of_isInstance {k : Klass} (hk : k.isInstance = true) : k.LaidOut where
  dense := map_snd_slots k
  ordered := ⟨k.ascent, ascends_ascent k, map_fst_slots k⟩
  mem_iff _ := exists_mem_slots_iff
  assigned := assigned_eq_slots k
  inherited _ := slots_prefix
  granted _ := Memory.exists_allocateInstance_iff hk
  body m r m' h := by
    refine ⟨_, Memory.body_of_allocateInstance hk h, fun i => ?_⟩
    rw [Array.size_replicate, exists_slot_iff]

namespace Lineage

def count : Field := { name := "count", type := .int }

def total : Field := { name := "total", type := .long, isStatic := true }

def lock : Field := { name := "lock", type := .object, isInjected := true }

def root : Klass := .base "Root" [total, count, lock] none

/-- All that this class declares is static. -/
def middle : Klass := .derived "Middle" root [total] none

/-- A class that declares again what it inherits. -/
def leaf : Klass := .derived "Leaf" middle [count, total, { name := "rest", type := .short }] none

end Lineage

open Lineage

theorem laidOut_leaf : leaf.isInstance = true ∧ leaf.LaidOut ∧
    leaf.slots =
      [(count, 0), (lock, 1), (count, 2), ({ name := "rest", type := .short }, 3)] ∧
    root.slots <+: leaf.slots ∧
    ∃ r m' ss, ({} : Memory).allocateInstance leaf = .ok (.ok (r, m')) ∧
      m'.store.body r = .fields ss ∧ 3 < ss.size ∧ ¬ 4 < ss.size := by
  have hleaf := laidOut_of_isInstance (k := leaf) rfl
  have hroot : leaf.Inherits root := .head (b := middle) rfl (.single rfl)
  obtain ⟨r, m', h⟩ := (hleaf.granted {}).2 (by decide)
  obtain ⟨ss, hbody, hindex⟩ := hleaf.body {} r m' h
  refine ⟨rfl, hleaf, rfl, hleaf.inherited root hroot, r, m', ss, h, hbody, ?_, ?_⟩
  · exact (hindex 3).2 ⟨{ name := "rest", type := .short }, by decide⟩
  · rw [hindex 4, exists_slot_iff]
    decide

end Klass
end Bailout
