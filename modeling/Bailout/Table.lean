/-!
# Tables

A finite map kept as a list of entries in order of insertion. Setting a key that is already there
replaces its value in place.
-/

namespace Bailout

/-- A finite map from keys to values. -/
structure Table (κ : Type) (ν : Type) where
  entries : List (κ × ν) := []
  deriving Repr, DecidableEq

namespace Table

variable {κ ν : Type} [DecidableEq κ]

instance : Inhabited (Table κ ν) := ⟨{}⟩

def get? (t : Table κ ν) (k : κ) : Option ν :=
  (t.entries.find? (fun e => decide (e.1 = k))).map Prod.snd

def contains (t : Table κ ν) (k : κ) : Bool := (t.get? k).isSome

/-- Replace the value of a key in a list of entries, or add it at the end. -/
def setIn (k : κ) (v : ν) : List (κ × ν) → List (κ × ν)
  | [] => [(k, v)]
  | e :: es => if e.1 = k then (k, v) :: es else e :: setIn k v es

def set (t : Table κ ν) (k : κ) (v : ν) : Table κ ν := ⟨setIn k v t.entries⟩

def erase (t : Table κ ν) (k : κ) : Table κ ν := ⟨t.entries.filter (fun e => decide (e.1 ≠ k))⟩

def size (t : Table κ ν) : Nat := t.entries.length

/-- The keys in order of insertion. -/
def keys (t : Table κ ν) : List κ := t.entries.map Prod.fst

/-- The values in order of insertion of their keys. -/
def values (t : Table κ ν) : List ν := t.entries.map Prod.snd

/-! ### Laws -/

@[simp] theorem get?_empty (k : κ) : (({} : Table κ ν)).get? k = none := rfl

theorem get?_set_self (t : Table κ ν) (k : κ) (v : ν) : (t.set k v).get? k = some v := by
  obtain ⟨es⟩ := t
  simp only [set, get?]
  induction es with
  | nil => simp [setIn]
  | cons e es ih =>
    by_cases h : e.1 = k
    · simp [setIn, h]
    · simp [setIn, h, ih]

theorem get?_set_of_ne (t : Table κ ν) {k l : κ} (v : ν) (h : l ≠ k) :
    (t.set k v).get? l = t.get? l := by
  obtain ⟨es⟩ := t
  simp only [set, get?]
  induction es with
  | nil => simp [setIn, Ne.symm h]
  | cons e es ih =>
    by_cases hk : e.1 = k
    · subst hk
      simp [setIn, Ne.symm h]
    · rw [setIn, if_neg hk]
      by_cases hl : e.1 = l
      · simp [hl]
      · simpa [hl] using ih

/-- Setting a key changes what that key has and nothing else. -/
theorem get?_set (t : Table κ ν) (k l : κ) (v : ν) :
    (t.set k v).get? l = if l = k then some v else t.get? l := by
  by_cases h : l = k
  · subst h
    simp [get?_set_self]
  · simp [h, get?_set_of_ne t v h]

theorem get?_erase (t : Table κ ν) (k l : κ) :
    (t.erase k).get? l = if l = k then none else t.get? l := by
  obtain ⟨es⟩ := t
  simp only [erase, get?]
  induction es with
  | nil => simp
  | cons e es ih =>
    by_cases hk : e.1 = k
    · by_cases hl : l = k
      · simp_all
      · have : ¬ e.1 = l := fun h => hl (h.symm.trans hk)
        simp_all
    · by_cases hl : e.1 = l
      · have : ¬ l = k := fun h => hk (hl.trans h)
        simp [hl, this]
      · simp [hk, hl] at ih ⊢
        exact ih

/-- What is added for a new key and taken out again leaves nothing behind. -/
theorem erase_set (t : Table κ ν) {k : κ} (v : ν) (h : t.get? k = none) :
    (t.set k v).erase k = t := by
  obtain ⟨es⟩ := t
  simp only [get?, Option.map_eq_none_iff, List.find?_eq_none] at h
  refine congrArg mk ?_
  induction es with
  | nil => simp [set, setIn]
  | cons e es ih =>
    have hk : ¬ e.1 = k := by simpa using h e List.mem_cons_self
    have ih := ih fun e' he' => h e' (List.mem_cons_of_mem e he')
    simpa [set, setIn, hk] using ih

end Table
end Bailout
