import Mathlib.Data.List.Range
import Bailout.Proofs.Checked
import Bailout.Restore.Fill

/-!
# References of restored objects

Which source the compiler lists for a reference of a described object: the sources of the fields
before it are counted by the slots that the fields take, and two ints that are written as one value
take as many sources as fields. An array of references holds what its sources give once it is
filled in, and an instance the words that are written to its slots.
-/

namespace Bailout

/-- The object that a slot of an instance or an element of a reference array refers to. -/
def Body.target? (b : Body) (i : Nat) : Option Ref :=
  match b with
  | .fields ss => ss[i]?.join.bind Word.object?
  | .primitives _ => none
  | .references es => es[i]?.join

namespace Restore

variable {f : CompiledFrame} {t : Restored} {d : Description} {rest : List Source}
  {ws : List (Nat × Word)} {slots : Array (Option Word)} {slot i : Nat}
  {x : Source} {b b' : Body}

/-! ### Sources of references -/

/-- The position of the first source of a field, given its position among the fields. -/
def firstSource (fields : List (Field × Nat)) (i : Nat) : Nat :=
  ((fields.take i).map fun x => x.1.type.slots).sum

/-- The source that a description lists for a reference: for a field that compiled code knows, by
its slot, or for an element of a reference array. -/
inductive Refers (f : CompiledFrame) (d : Description) : Nat → Source → Prop where
  | field {i slot : Nat} {field : Field} {x : Source} (hk : d.klass.isInstance = true)
      (hfield : (visibleFields d.klass f.region.seesInjected)[i]? = some (field, slot))
      (ht : field.type.isReference = true)
      (hx : d.sources[firstSource (visibleFields d.klass f.region.seesInjected) i]? = some x) :
      Refers f d slot x
  | element {name : String} {box : Option BasicType} {i : Nat} {x : Source}
      (hk : d.klass = .referenceArray name box) (hx : d.sources[i]? = some x) : Refers f d i x

lemma sourceAt_eq_ok {n : Nat} : sourceAt d rest n = .ok x ↔ rest[n]? = some x := by
  unfold sourceAt
  cases rest[n]? <;> simp

/-! ### Writing slots -/

lemma writeSlots_of_notMem (hi : i ∉ ws.map Prod.fst) :
    (writeSlots slots ws)[i]? = slots[i]? := by
  unfold writeSlots
  induction ws generalizing slots with
  | nil => rfl
  | cons w ws ih =>
    rw [List.map_cons, List.mem_cons, not_or] at hi
    rw [List.foldl_cons, ih hi.2, Array.getElem?_setIfInBounds_ne (Ne.symm hi.1)]

/-- A slot that gets one word holds it. -/
lemma writeSlots_of_mem (hws : (ws.map Prod.fst).Nodup) {w : Word} (hw : (i, w) ∈ ws)
    (hi : i < slots.size) : (writeSlots slots ws)[i]? = some (some w) := by
  induction ws generalizing slots with
  | nil => cases hw
  | cons v ws ih =>
    rw [List.map_cons, List.nodup_cons] at hws
    rcases List.mem_cons.1 hw with rfl | hw
    · have hrest : (writeSlots (slots.setIfInBounds i (some w)) ws)[i]? =
          (slots.setIfInBounds i (some w))[i]? := writeSlots_of_notMem hws.1
      rw [writeSlots, List.foldl_cons, ← writeSlots, hrest,
        Array.getElem?_setIfInBounds_self_of_lt hi]
    · rw [writeSlots, List.foldl_cons, ← writeSlots]
      exact ih hws.2 hw (by simpa using hi)

/-- No two fields have one slot. -/
lemma nodup_visibleFields (k : Klass) (seesInjected : Bool) :
    ((visibleFields k seesInjected).map Prod.snd).Nodup := by
  have hslots : (k.slots.map Prod.snd).Nodup := by
    rw [Klass.map_snd_slots]
    exact List.nodup_range
  exact hslots.sublist (List.filter_sublist.map _)

lemma lt_of_mem_visibleFields {k : Klass} {seesInjected : Bool} {field : Field}
    (h : (field, slot) ∈ visibleFields k seesInjected) : slot < k.slotCount := by
  obtain ⟨-, hlt, -⟩ := List.mem_zipIdx (List.mem_filter.1 h).1
  rwa [Nat.zero_add] at hlt

/-! ### Filled bodies -/

/-- What is filled in to an instance are the words for its slots. -/
lemma exists_assignments_of_filledBody (hk : d.klass.isInstance = true)
    (h : filledBody f t d (.fields slots) = .ok b') :
    ∃ ws, assignments f t d (visibleFields d.klass f.region.seesInjected) d.sources = .ok ws ∧
      b' = .fields (writeSlots slots ws) := by
  unfold filledBody at h
  cases hd : d.klass with
  | primitiveArray | referenceArray =>
    rw [hd] at hk
    cases hk
  | base | derived =>
    rw [hd] at h
    simp only [bind_eq_ok, pure_eq_ok] at h
    obtain ⟨ws, hws, rfl⟩ := h
    exact ⟨ws, hws, rfl⟩

/-- The body of a reference array that was filled in. -/
lemma target?_of_referenceArray {name : String} {box : Option BasicType}
    (hk : d.klass = .referenceArray name box) (h : filledBody f t d b = .ok b') :
    b'.length? = some d.sources.length ∧ ∀ i x, d.sources[i]? = some x →
      ∃ v, f.resolve t x = .ok v ∧ b'.target? i = v.object? := by
  rw [filledBody, hk] at h
  simp only [referenceElements, bind_eq_ok, pure_eq_ok] at h
  obtain ⟨es, hes, rfl⟩ := h
  have helements := mapM_eq_ok.1 hes
  refine ⟨congrArg some helements.length_eq.symm, fun i x hx => ?_⟩
  obtain ⟨o, ho, helement⟩ := exists_getElem?_of_forall₂ helements hx
  simp only [bind_eq_ok, pure_eq_ok] at helement
  obtain ⟨v, hv, rfl⟩ := helement
  refine ⟨v, hv, ?_⟩
  rw [Body.target?, List.getElem?_toArray, ho]
  rfl

end Restore
end Bailout
