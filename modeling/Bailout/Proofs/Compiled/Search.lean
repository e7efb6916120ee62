import Mathlib.Data.List.Destutter
import Bailout.Proofs.Compiled.Lookup

/-!
# Sorting and searching records

A compiler may list its records in any order. To put them in their places is to sort them, keeping
those for one offset in the order in which they were listed, and to drop all but the first of each
run of one offset. Halving the sorted offsets then finds what a search from the front of the list
would find. This does not depend on how records are sorted and searched, only on what sorting and
searching promise.
-/

namespace Bailout

namespace DebugInfo

variable {sort : List DebugRecord → List DebugRecord} {search : List Nat → Nat → Option Nat}
  {qs qs' rs : List DebugRecord} {q r : DebugRecord} {n i : Nat}

/-! ### What is promised -/

/-- Records are sorted by offset, and those for one offset keep their order. -/
structure IsStableSort (sort : List DebugRecord → List DebugRecord) : Prop where
  ordered : ∀ rs, (sort rs).Pairwise fun q r => q.offset ≤ r.offset
  stable : ∀ rs n, (sort rs).filter (·.offset = n) = rs.filter (·.offset = n)

/-- A key is found exactly if it is among keys that rise, and where it is. -/
structure IsKeySearch (search : List Nat → Nat → Option Nat) : Prop where
  sound : ∀ ks n i, ks.Pairwise (· < ·) → search ks n = some i → ks[i]? = some n
  complete : ∀ ks n, ks.Pairwise (· < ·) → search ks n = none → n ∉ ks

/-- Two records are for different offsets. -/
def Apart (q r : DebugRecord) : Prop := q.offset ≠ r.offset

instance : DecidableRel Apart := fun q r => inferInstanceAs (Decidable (q.offset ≠ r.offset))

/-- Keep the first record of each run of records for one offset. -/
def keepFirst (rs : List DebugRecord) : List DebugRecord := rs.destutter Apart

/-- Look a record up by searching for its offset. -/
def lookup (search : List Nat → Nat → Option Nat) (qs : List DebugRecord) (n : Nat) :
    Option DebugRecord :=
  (search (qs.map DebugRecord.offset) n).bind (qs[·]?)

/-! ### Dropping repeated offsets -/

lemma find?_destutter' (q : DebugRecord) (qs : List DebugRecord) (n : Nat) :
    (qs.destutter' Apart q).find? (·.offset = n) =
      (q :: qs).find? (·.offset = n) := by
  induction qs generalizing q with
  | nil => rfl
  | cons r qs ih =>
    by_cases hne : Apart q r
    · rw [List.destutter'_cons_pos (h := hne), List.find?_cons, List.find?_cons, ih]
    · rw [List.destutter'_cons_neg (h := hne), ih, List.find?_cons, List.find?_cons,
        List.find?_cons]
      -- The record that is dropped would be found only if the one before it were not.
      rw [Apart, not_not] at hne
      rw [← hne]
      cases decide (q.offset = n) <;> rfl

/-- The first record for an offset is also the first of its run. -/
lemma find?_keepFirst (rs : List DebugRecord) (n : Nat) :
    (keepFirst rs).find? (·.offset = n) = rs.find? (·.offset = n) := by
  cases rs with
  | nil => rfl
  | cons r rs => exact find?_destutter' r rs n

/-- Once repeated offsets are dropped, offsets that do not fall rise. -/
lemma ordered_keepFirst (h : rs.Pairwise fun q r => q.offset ≤ r.offset) :
    Ordered (keepFirst rs) := by
  have hle : (keepFirst rs).Pairwise fun q r => q.offset ≤ r.offset :=
    h.sublist (List.destutter_sublist _ rs)
  have hne : (keepFirst rs).IsChain Apart := List.isChain_destutter _ rs
  let lt (q r : DebugRecord) : Prop := q.offset < r.offset
  have htrans : Trans lt lt lt := ⟨Nat.lt_trans⟩
  refine (List.isChain_iff_pairwise (R := lt)).1
    (List.isChain_iff_getElem.2 fun i hi => ?_)
  have hi' : i < (keepFirst rs).length := Nat.lt_of_succ_lt hi
  exact Nat.lt_of_le_of_ne (List.pairwise_iff_getElem.1 hle i (i + 1) hi' hi (Nat.lt_succ_self i))
    (List.isChain_iff_getElem.1 hne i hi)

/-! ### Ordered records -/

lemma findIn_eq_find? (h : Ordered qs) (n : Nat) :
    findIn n qs = qs.find? (·.offset = n) := by
  induction qs with
  | nil => rfl
  | cons q qs ih =>
    obtain ⟨hq, hqs⟩ := List.pairwise_cons.1 h
    rw [findIn, List.find?_cons, ih hqs]
    split_ifs with heq hlt
    · rw [decide_eq_true heq]
    · -- All offsets that follow are larger still.
      rw [decide_eq_false heq, eq_comm, List.find?_eq_none]
      intro r hr
      have := hq r hr
      simp only [decide_eq_true_eq]
      omega
    · rw [decide_eq_false heq]

lemma Ordered.find?_offset (h : Ordered qs) (hq : q ∈ qs) :
    qs.find? (·.offset = q.offset) = some q := by
  induction qs with
  | nil => cases hq
  | cons r qs ih =>
    obtain ⟨hr, hqs⟩ := List.pairwise_cons.1 h
    rcases List.mem_cons.1 hq with rfl | hq
    · simp
    · rw [List.find?_cons, decide_eq_false (Nat.ne_of_lt (hr q hq)), ih hqs hq]

lemma Ordered.mem_iff (h : Ordered qs) : q ∈ qs ↔ qs.find? (·.offset = q.offset) = some q :=
  ⟨h.find?_offset, List.mem_of_find?_eq_some⟩

/-- Ordered records are known by what is found among them. -/
lemma Ordered.ext (h : Ordered qs) (h' : Ordered qs')
    (hfind : ∀ n, qs.find? (·.offset = n) = qs'.find? (·.offset = n)) : qs = qs' := by
  have hnodup : ∀ {rs : List DebugRecord}, Ordered rs → rs.Nodup := fun hrs =>
    hrs.imp fun hlt heq => Nat.ne_of_lt hlt (congrArg _ heq)
  have hperm : qs.Perm qs' := (List.perm_ext_iff_of_nodup (hnodup h) (hnodup h')).2 fun q => by
    rw [h.mem_iff, h'.mem_iff, hfind]
  exact hperm.eq_of_pairwise (fun _ _ _ _ hlt hgt => absurd hgt (Nat.lt_asymm hlt)) h h'

/-- A search for an offset among ordered records finds the record for it. -/
lemma lookup_of_ordered (hsearch : IsKeySearch search) (h : Ordered qs) (n : Nat) :
    lookup search qs n = qs.find? (·.offset = n) := by
  have hkeys : (qs.map DebugRecord.offset).Pairwise (· < ·) := List.pairwise_map.2 h
  rw [lookup]
  cases hs : search (qs.map DebugRecord.offset) n with
  | none =>
    have hnone := hsearch.complete _ _ hkeys hs
    rw [Option.bind_none, eq_comm, List.find?_eq_none]
    intro q hq
    simp only [decide_eq_true_eq]
    rintro rfl
    exact hnone (List.mem_map_of_mem hq)
  | some i =>
    have hi := hsearch.sound _ _ _ hkeys hs
    rw [List.getElem?_map, Option.map_eq_some_iff] at hi
    obtain ⟨q, hq, rfl⟩ := hi
    rw [Option.bind_some, hq, h.find?_offset (List.mem_of_getElem? hq)]

/-! ### Sorting by merging, searching by halving -/

/-- Sort records by merging. -/
def mergeSorted (rs : List DebugRecord) : List DebugRecord :=
  rs.mergeSort fun q r => q.offset ≤ r.offset

lemma isStableSort_mergeSorted : IsStableSort mergeSorted := by
  have htrans : ∀ q r s : DebugRecord, decide (q.offset ≤ r.offset) = true →
      decide (r.offset ≤ s.offset) = true → decide (q.offset ≤ s.offset) = true := by
    simp only [decide_eq_true_eq]
    exact fun _ _ _ => Nat.le_trans
  have htotal : ∀ q r : DebugRecord,
      (decide (q.offset ≤ r.offset) || decide (r.offset ≤ q.offset)) = true := by
    simp only [Bool.or_eq_true, decide_eq_true_eq]
    exact fun _ _ => Nat.le_total _ _
  refine ⟨fun rs => ?_, fun rs n => ?_⟩
  · exact (List.pairwise_mergeSort htrans htotal rs).imp of_decide_eq_true
  · -- Those for one offset are in order already, so they stay as they are.
    have hsame : (rs.filter (·.offset = n)).Pairwise
        fun q r => decide (q.offset ≤ r.offset) = true := by
      refine List.pairwise_of_forall_mem_list fun q hq r hr => ?_
      simp only [List.mem_filter, decide_eq_true_eq] at hq hr
      simp [hq.2, hr.2]
    have hsub := (List.sublist_mergeSort htrans htotal hsame List.filter_sublist).filter
      (·.offset = n)
    rw [List.filter_filter] at hsub
    simp only [Bool.and_self] at hsub
    exact (hsub.eq_of_length (((List.mergeSort_perm rs _).filter _).length_eq).symm).symm

/-- Halve the part of rising keys in which a key can be, until one place is left. -/
def halve (ks : List Nat) (n base size : Nat) : Nat :=
  if 1 < size then
    let half := size / 2
    halve ks n (if n < ks.getD (base + half) 0 then base else base + half) (size - half)
  else base
termination_by size
decreasing_by omega

/-- Search for a key by halving. -/
def halving (ks : List Nat) (n : Nat) : Option Nat :=
  let i := halve ks n 0 ks.length
  if ks[i]? = some n then some i else none

/-- Of rising keys the smaller ones come first. -/
lemma lt_getD_iff {ks : List Nat} (hks : ks.Pairwise (· < ·)) (hi : ks[i]? = some n) {j : Nat}
    (hj : j < ks.length) : n < ks.getD j 0 ↔ i < j := by
  obtain ⟨hlen, rfl⟩ := List.getElem?_eq_some_iff.1 hi
  have hrise := List.pairwise_iff_getElem.1 hks
  rw [List.getD_eq_getElem?_getD, List.getElem?_eq_getElem hj, Option.getD_some]
  rcases Nat.lt_trichotomy i j with hlt | rfl | hgt
  · exact iff_of_true (hrise i j hlen hj hlt) hlt
  · exact iff_of_false (Nat.lt_irrefl _) (Nat.lt_irrefl i)
  · exact iff_of_false (Nat.lt_asymm (hrise j i hj hlen hgt)) (Nat.lt_asymm hgt)

/-- A key stays in the part that is left. -/
lemma halve_eq {ks : List Nat} (hks : ks.Pairwise (· < ·)) (hi : ks[i]? = some n) {base size : Nat}
    (hend : base + size ≤ ks.length) (hlo : base ≤ i) (hhi : i < base + size) :
    halve ks n base size = i := by
  fun_induction halve ks n base size with
  | case1 base size hsize half ih =>
    have hhalf : half = size / 2 := rfl
    have hmid : n < ks.getD (base + half) 0 ↔ i < base + half := lt_getD_iff hks hi (by omega)
    simp only [hmid] at ih ⊢
    split_ifs at ih ⊢ with hside
    · exact ih (by omega) hlo (by omega)
    · exact ih (by omega) (by omega) (by omega)
  | case2 base size hsize => omega

lemma isKeySearch_halving : IsKeySearch halving := by
  refine ⟨fun ks n i hks h => ?_, fun ks n hks h hmem => ?_⟩
  · simp only [halving] at h
    split_ifs at h with hi
    cases h
    exact hi
  · obtain ⟨i, hi⟩ := List.mem_iff_getElem?.1 hmem
    have hlen : i < ks.length := (List.getElem?_eq_some_iff.1 hi).1
    rw [halving, halve_eq hks hi (by omega) (Nat.zero_le i) (by omega)] at h
    simp [hi] at h

/-! ### The three steps together -/

lemma find?_sort (hsort : IsStableSort sort) (rs : List DebugRecord) (n : Nat) :
    (sort rs).find? (·.offset = n) = rs.find? (·.offset = n) := by
  rw [← List.head?_filter, hsort.stable, List.head?_filter]

/-- The records in their places are the sorted ones without repetitions. A search among them finds
for an offset the first record that was listed for it, or nothing if none was. -/
theorem lookup_eq_find? (hsort : IsStableSort sort) (hsearch : IsKeySearch search)
    (rs : List DebugRecord) (n : Nat) :
    (ofList rs).records = keepFirst (sort rs) ∧
      lookup search (ofList rs).records n = (ofList rs).find? n ∧
      (ofList rs).find? n = rs.find? (·.offset = n) := by
  have hordered := ordered_ofList rs
  have hfind : ∀ n, (ofList rs).records.find? (·.offset = n) = rs.find? (·.offset = n) := by
    intro n
    rw [← findIn_eq_find? hordered, ← find?_ofList]
    rfl
  have hrecords : (ofList rs).records = keepFirst (sort rs) := by
    refine hordered.ext (ordered_keepFirst (hsort.ordered rs)) fun n => ?_
    rw [hfind, find?_keepFirst, find?_sort hsort]
  refine ⟨hrecords, ?_, find?_ofList rs n⟩
  rw [lookup_of_ordered hsearch hordered, find?, findIn_eq_find? hordered]

namespace Shuffled

def record (offset : Nat) (again : Bool) : DebugRecord :=
  { offset, scopes := [], rethrows := again }

/-- Records out of order, two offsets of which are listed again. -/
def listed : List DebugRecord :=
  [record 40 false, record 8 false, record 40 true, record 16 false, record 8 true]

end Shuffled

open Shuffled

theorem lookup_shuffled : IsStableSort mergeSorted ∧ IsKeySearch halving ∧
    (ofList listed).records = [record 8 false, record 16 false, record 40 false] ∧
    keepFirst (mergeSorted listed) = (ofList listed).records ∧
    lookup halving (ofList listed).records 40 = some (record 40 false) ∧
    lookup halving (ofList listed).records 9 = none := by
  obtain ⟨hrecords, hforty, hfirst⟩ :=
    lookup_eq_find? isStableSort_mergeSorted isKeySearch_halving listed 40
  obtain ⟨-, hnine, hnone⟩ :=
    lookup_eq_find? isStableSort_mergeSorted isKeySearch_halving listed 9
  exact ⟨isStableSort_mergeSorted, isKeySearch_halving, rfl, hrecords.symm, hforty.trans hfirst,
    hnine.trans hnone⟩

end DebugInfo
end Bailout
