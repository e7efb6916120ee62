import Mathlib.Tactic.Common
import Bailout.Compiled.Cache

/-!
# Installed regions

What the cache holds after a region was installed or taken out: the others keep their places and
their states, and the new one comes last.
-/

namespace Bailout

namespace Table

lemma values_set_of_none {κ ν : Type} [DecidableEq κ] {t : Table κ ν} {k : κ} (v : ν)
    (h : t.get? k = none) : (t.set k v).values = t.values ++ [v] := by
  obtain ⟨es⟩ := t
  simp only [get?, Option.map_eq_none_iff, List.find?_eq_none] at h
  simp only [values, set]
  induction es with
  | nil => rfl
  | cons e es ih =>
    have hk : ¬ e.1 = k := by simpa using h e List.mem_cons_self
    rw [setIn, if_neg hk, List.map_cons, ih fun e' he' => h e' (List.mem_cons_of_mem e he')]
    rfl

end Table

namespace CodeCache

variable {c : CodeCache} {r : Nat}

lemma mem_values_erase {t : Table Nat Nat} {k r : Nat} (h : r ∈ (t.erase k).values) :
    r ∈ t.values := by
  obtain ⟨e, he, rfl⟩ := List.mem_map.1 h
  exact List.mem_map.2 ⟨e, (List.mem_filter.1 he).1, rfl⟩

lemma mem_values_set {t : Table Nat Nat} {k v r : Nat} (h : r ∈ (t.set k v).values) :
    r = v ∨ r ∈ t.values := by
  obtain ⟨es⟩ := t
  simp only [Table.values, Table.set] at h ⊢
  induction es with
  | nil => simpa [Table.setIn] using h
  | cons e es ih =>
    rw [Table.setIn] at h
    split_ifs at h with hk
    · rcases List.mem_cons.1 h with h | h
      · exact .inl h
      · exact .inr (List.mem_cons_of_mem _ h)
    · rcases List.mem_cons.1 h with h | h
      · exact .inr (h ▸ List.mem_cons_self)
      · exact (ih h).imp id (List.mem_cons_of_mem _)

lemma state_install_of_ne (c : CodeCache) (x : Region) (h : r ≠ c.regions.size) :
    (c.install x).state r = c.state r := by
  simp only [state, install, Array.getD_eq_getD_getElem?, Array.getElem?_push, if_neg h]

lemma state_install_self (c : CodeCache) (x : Region) :
    (c.install x).state c.regions.size = {} := by
  simp [state, install]

lemma size_install (c : CodeCache) (x : Region) :
    (c.install x).regions.size = c.regions.size + 1 := Array.size_push _

lemma region_install (c : CodeCache) (x : Region) : (c.install x).region r =
    if r = c.regions.size then { x with ref := c.regions.size } else c.region r := by
  simp only [region, install, Array.getD_eq_getD_getElem?, Array.getElem?_push]
  split_ifs <;> rfl

lemma ref_region_install (c : CodeCache) (x : Region) :
    ((c.install x).region r).ref = if r = c.regions.size then r else (c.region r).ref := by
  rw [region_install]
  split_ifs with hr
  · exact hr.symm
  · rfl

end CodeCache
end Bailout
