import Bailout.Proofs.Compiled.Ranges
import Bailout.Stack.Frame

/-!
# Which record is found

Looking a record up gives the first one that was listed for an offset. A frame asks for the record
at the distance of its place from the start of the code, but only 32 bits of the distance are looked
at. In code that reaches so far that two places differ in the other bits, a frame may be given the
record of another place.
-/

namespace Bailout

/-! ### Ordered records -/

namespace DebugInfo

variable {qs rs : List DebugRecord} {q r : DebugRecord} {n : Nat}

/-- Records in the order of their offsets, one for each offset. -/
def Ordered (qs : List DebugRecord) : Prop := qs.Pairwise fun q q' => q.offset < q'.offset

lemma mem_insertIn (h : q ∈ insertIn r qs) : q = r ∨ q ∈ qs := by
  induction qs with
  | nil => exact .inl (List.mem_singleton.1 h)
  | cons q' qs ih =>
    rw [insertIn] at h
    split_ifs at h
    · exact List.mem_cons.1 h
    · exact .inr h
    · rcases List.mem_cons.1 h with rfl | h
      · exact .inr List.mem_cons_self
      · exact (ih h).imp id (List.mem_cons_of_mem _)

lemma Ordered.insertIn (h : Ordered qs) (r : DebugRecord) : Ordered (insertIn r qs) := by
  induction qs with
  | nil => exact List.pairwise_singleton _ _
  | cons q qs ih =>
    obtain ⟨hq, hqs⟩ := List.pairwise_cons.1 h
    rw [DebugInfo.insertIn]
    split_ifs with hlt heq
    · refine List.pairwise_cons.2 ⟨List.forall_mem_cons.2 ⟨hlt, fun q' hq' => ?_⟩, h⟩
      exact Nat.lt_trans hlt (hq q' hq')
    · exact h
    · refine List.pairwise_cons.2 ⟨fun q' hq' => ?_, ih hqs⟩
      rcases mem_insertIn hq' with rfl | hq'
      · omega
      · exact hq q' hq'

lemma findIn_eq_none (h : ∀ q ∈ qs, n < q.offset) : findIn n qs = none := by
  cases qs with
  | nil => rfl
  | cons q qs =>
    have hlt := h q List.mem_cons_self
    rw [findIn, if_neg (by omega), if_pos hlt]

/-- A record that is put in its place is found, unless there was one for its offset before. -/
lemma findIn_insertIn (h : Ordered qs) (r : DebugRecord) (n : Nat) : findIn n (insertIn r qs) =
    (findIn n qs).or (if r.offset = n then some r else none) := by
  induction qs with
  | nil => simp [insertIn, findIn]
  | cons q qs ih =>
    obtain ⟨hq, hqs⟩ := List.pairwise_cons.1 h
    rcases Nat.lt_trichotomy r.offset q.offset with hlt | heq | hgt
    · -- The new record goes in front.
      have hnone (hn : n ≤ r.offset) : findIn n (q :: qs) = none := by
        have hnq : n < q.offset := Nat.lt_of_le_of_lt hn hlt
        refine findIn_eq_none (List.forall_mem_cons.2 ⟨hnq, fun q' hq' => ?_⟩)
        exact Nat.lt_trans hnq (hq q' hq')
      rw [insertIn, if_pos hlt, findIn]
      split_ifs with hr hn
      · rw [hnone (Nat.le_of_eq hr.symm), Option.none_or]
      · rw [hnone (Nat.le_of_lt hn), Option.none_or]
      · rw [Option.or_none]
    · -- There was one for its offset.
      rw [insertIn, if_neg (by omega), if_pos heq]
      split_ifs with hr
      · rw [findIn, if_pos (heq ▸ hr), Option.some_or]
      · rw [Option.or_none]
    · -- It goes further back.
      rw [insertIn, if_neg (by omega), if_neg (by omega), findIn, findIn, ih hqs]
      split_ifs with hn <;> first | rfl | omega

lemma ofList_concat (rs : List DebugRecord) (r : DebugRecord) :
    (ofList (rs ++ [r])).records = insertIn r (ofList rs).records := by
  rw [ofList, List.foldl_concat, ofList]

lemma ordered_ofList (rs : List DebugRecord) : Ordered (ofList rs).records := by
  induction rs using List.reverseRecOn with
  | nil => exact List.Pairwise.nil
  | append_singleton rs r ih =>
    rw [ofList_concat]
    exact ih.insertIn r

/-- What is found for an offset is the first record that was listed for it. -/
theorem find?_ofList (rs : List DebugRecord) (n : Nat) :
    (ofList rs).find? n = rs.find? fun q => q.offset = n := by
  rw [find?]
  induction rs using List.reverseRecOn with
  | nil => rfl
  | append_singleton rs r ih =>
    rw [ofList_concat, findIn_insertIn (ordered_ofList rs), ih, List.find?_append,
      List.find?_singleton]
    simp only [decide_eq_true_eq]

end DebugInfo

/-! ### Places in code -/

/-- Code that lies in the address space, and the records that the compiler listed for it. -/
structure Region.Describes (r : Region) (rs : List DebugRecord) : Prop where
  fits : r.start + r.size < wordLimit
  debug : r.debug = .ofList rs
  /-- Offsets have 32 bits. -/
  offsets : ∀ q ∈ rs, q.offset < counterLimit

/-- The code ends before the low bits of a distance come round to those of a record. -/
def Region.EndsBefore (r : Region) (rs : List DebugRecord) : Prop :=
  ∀ q ∈ rs, r.size ≤ q.offset + counterLimit

namespace Frame

variable {f : Frame} {c : CompiledFrame} {r : Region} {rs : List DebugRecord} {q : DebugRecord}

/-- A compiled frame of a region that stands in its code. -/
structure StandsIn (f : Frame) (c : CompiledFrame) (r : Region) : Prop where
  kind : f.kind = .compiled c
  region : c.region = r
  mem_range : f.logicalPc ∈ r.range

/-- How far a frame stands from the start of its code. -/
def distance (f : Frame) (r : Region) : Nat := f.logicalPc - r.start

lemma StandsIn.distance_lt (hf : f.StandsIn c r) : f.distance r < r.size := by
  have hle : r.start ≤ f.logicalPc := hf.mem_range.1
  have hlt : f.logicalPc < r.start + r.size := hf.mem_range.2
  rw [distance]
  omega

/-- A frame gets the record that was listed first for the low bits of its distance. -/
lemma StandsIn.record_eq (hr : r.Describes rs) (hf : f.StandsIn c r) : f.record =
    (rs.find? fun q => q.offset = f.distance r % counterLimit).elim
      (fatal (.noDebugRecord (f.distance r % counterLimit) r.method.qualifiedName))
      fun q => .ok (c, q) := by
  obtain ⟨hkind, rfl, hmem⟩ := hf
  have hcontains : c.region.contains f.logicalPc = .ok true := by
    rw [Region.contains_eq hr.fits, decide_eq_true hmem]
  unfold distance
  simp only [record, hkind, hcontains, ok_bind, guarantee, if_true, Region.recordAt,
    checkedSub_of_le hmem.1, hr.debug, DebugInfo.find?_ofList]
  cases rs.find? fun q => q.offset = (f.logicalPc - c.region.start) % counterLimit <;> rfl

lemma StandsIn.record_eq_ok_iff (hr : r.Describes rs) (hf : f.StandsIn c r) :
    f.record = .ok (c, q) ↔
      rs.find? (fun q => q.offset = f.distance r % counterLimit) = some q := by
  rw [hf.record_eq hr]
  cases rs.find? fun q => q.offset = f.distance r % counterLimit <;> simp

/-- A record that came about is for a frame that stands in its code. -/
lemma standsIn_of_record (hr : r.Describes rs) (hc : c.region = r) (h : f.record = .ok (c, q)) :
    f.StandsIn c r := by
  unfold record at h
  split at h
  next c' hkind =>
    simp only [bind_eq_ok, guarantee_eq_ok, pure_eq_ok, Prod.mk.injEq] at h
    obtain ⟨_, hcontains, _, rfl, _, -, rfl, -⟩ := h
    rw [hc, Region.contains_eq hr.fits, Except.ok.injEq, decide_eq_true_eq] at hcontains
    exact ⟨hkind, hc, hcontains⟩
  next => cases h

/-- A frame gets the first record that was listed for the exact place where it stands, and if there
is none, looking for it stops. -/
def Exact (f : Frame) (c : CompiledFrame) (r : Region) (rs : List DebugRecord) : Prop :=
  (∃ q, rs.find? (fun q => q.offset = f.distance r) = some q ∧ f.record = .ok (c, q)) ∨
  (∀ q ∈ rs, q.offset ≠ f.distance r) ∧
    ∃ n, f.record = fatal (.noDebugRecord n r.method.qualifiedName)

/-- A frame is given the record of another place if that is listed under the low bits of a distance
that has more of them. -/
theorem exact_iff (hr : r.Describes rs) (hf : f.StandsIn c r) : f.Exact c r rs ↔
    f.distance r < counterLimit ∨ ∀ q ∈ rs, q.offset ≠ f.distance r % counterLimit := by
  by_cases hshort : f.distance r < counterLimit
  · refine iff_of_true ?_ (.inl hshort)
    rw [Exact, hf.record_eq hr, Nat.mod_eq_of_lt hshort]
    cases hq : rs.find? fun q => q.offset = f.distance r with
    | some q => exact .inl ⟨q, rfl, rfl⟩
    | none => exact .inr ⟨by simpa using hq, _, rfl⟩
  · have hfar : ∀ q ∈ rs, q.offset ≠ f.distance r := by
      intro q hq heq
      exact hshort (heq ▸ hr.offsets q hq)
    have hnone : rs.find? (fun q => q.offset = f.distance r) = none := by simpa using hfar
    rw [Exact, hnone, hf.record_eq hr, or_iff_right hshort, and_iff_right hfar]
    simp only [reduceCtorEq, false_and, exists_false, false_or, ne_eq]
    cases hq : rs.find? fun q => q.offset = f.distance r % counterLimit with
    | some q =>
      have hmem : ∃ q ∈ rs, q.offset = f.distance r % counterLimit :=
        ⟨q, List.mem_of_find?_eq_some hq, by simpa using List.find?_some hq⟩
      simpa [fatal] using hmem
    | none => exact iff_of_true ⟨f.distance r % counterLimit, rfl⟩ (by simpa using hq)

/-- A frame of a region that stands at an offset. -/
def standing (r : Region) (offset : Nat) : Frame :=
  ⟨0, 0, 0, r.start + offset, .compiled { region := r, slots := #[] }⟩

lemma standsIn_standing {n : Nat} (h : n < r.size) :
    (standing r n).StandsIn { region := r, slots := #[] } r where
  kind := rfl
  region := rfl
  mem_range := ⟨Nat.le_add_right _ _, Nat.add_lt_add_left h _⟩

@[simp] lemma logicalPc_standing (r : Region) (n : Nat) :
    (standing r n).logicalPc = r.start + n := rfl

@[simp] lemma distance_standing (r : Region) (n : Nat) : (standing r n).distance r = n :=
  Nat.add_sub_cancel_left _ _

lemma StandsIn.logicalPc_eq (hf : f.StandsIn c r) : f.logicalPc = r.start + f.distance r :=
  (Nat.add_sub_cancel' hf.mem_range.1).symm

/-- Code that ends before the low bits come round to a record leaves one place for the record. -/
lemma StandsIn.distance_eq_offset (hf : f.StandsIn c r) (hends : r.EndsBefore rs) (hq : q ∈ rs)
    (h : q.offset = f.distance r % counterLimit) : f.distance r = q.offset := by
  have hlt : f.distance r < q.offset + counterLimit := hf.distance_lt.trans_le (hends q hq)
  have hsplit := Nat.div_add_mod (f.distance r) counterLimit
  simp only [counterLimit] at *
  omega

lemma exact_of_endsBefore (hr : r.Describes rs) (hf : f.StandsIn c r) (hends : r.EndsBefore rs) :
    f.Exact c r rs := by
  rw [exact_iff hr hf, or_iff_not_imp_right]
  intro h
  simp only [not_forall, not_not] at h
  obtain ⟨q, hq, heq⟩ := h
  rw [hf.distance_eq_offset hends hq heq]
  exact hr.offsets q hq

/-- The distance of a frame that is given a record is the record's offset. -/
lemma distance_eq_of_record (hr : r.Describes rs) (hf : f.StandsIn c r) (hends : r.EndsBefore rs)
    (h : f.record = .ok (c, q)) : f.distance r = q.offset := by
  have hfind := (hf.record_eq_ok_iff hr).1 h
  exact hf.distance_eq_offset hends (List.mem_of_find?_eq_some hfind)
    (by simpa using List.find?_some hfind)

/-- The place whose distance has one more bit than the offset of a record gets a record, too, and it
is the same one that the place of the record gets. -/
lemma exists_record_standing (hr : r.Describes rs) (hq : q ∈ rs)
    (hsize : q.offset + counterLimit < r.size) :
    ∃ q', (standing r q.offset).record = .ok ({ region := r, slots := #[] }, q') ∧
      (standing r (q.offset + counterLimit)).record = .ok ({ region := r, slots := #[] }, q') := by
  have hlow : q.offset % counterLimit = q.offset := Nat.mod_eq_of_lt (hr.offsets q hq)
  have hnear := standsIn_standing (r := r) (n := q.offset) (by omega)
  have hfar := standsIn_standing hsize
  obtain ⟨q', hq'⟩ : ∃ q', rs.find? (fun p => p.offset = q.offset) = some q' :=
    Option.isSome_iff_exists.1 (List.find?_isSome.2 ⟨q, hq, decide_eq_true rfl⟩)
  refine ⟨q', (hnear.record_eq_ok_iff hr).2 ?_, (hfar.record_eq_ok_iff hr).2 ?_⟩
  · rwa [distance_standing, hlow]
  · rwa [distance_standing, Nat.add_mod_right, hlow]

/-- A frame gets the record of the exact place where it stands, or stops, unless its distance has
more than the low bits and the low ones are those of a record. All frames of a region do, and frames
that stand at two places never get the same record, exactly if the code ends before the low bits
come round to those of a record. -/
theorem forall_exact_iff (hr : r.Describes rs) :
    (∀ (f : Frame) c, f.StandsIn c r → (f.Exact c r rs ↔
      f.distance r < counterLimit ∨ ∀ q ∈ rs, q.offset ≠ f.distance r % counterLimit)) ∧
    ((∀ (f : Frame) c, f.StandsIn c r → f.Exact c r rs) ↔ r.EndsBefore rs) ∧
    ((∀ (f g : Frame) c d q, c.region = r → d.region = r → f.record = .ok (c, q) →
      g.record = .ok (d, q) → f.logicalPc = g.logicalPc) ↔ r.EndsBefore rs) := by
  refine ⟨fun f c hf => exact_iff hr hf, ⟨fun h q hq => ?_, fun hends f c hf => ?_⟩,
    fun h q hq => ?_, fun hends f g c d q hc hd hfq hgq => ?_⟩
  · by_contra! hsize
    have hf := standsIn_standing hsize
    rcases (exact_iff hr hf).1 (h _ _ hf) with hlt | hne
    · rw [distance_standing] at hlt
      omega
    · refine hne q hq ?_
      rw [distance_standing, Nat.add_mod_right, Nat.mod_eq_of_lt (hr.offsets q hq)]
  · exact exact_of_endsBefore hr hf hends
  · by_contra! hsize
    obtain ⟨q', hnear, hfar⟩ := exists_record_standing hr hq hsize
    have hpc := h _ _ _ _ q' rfl rfl hnear hfar
    rw [logicalPc_standing, logicalPc_standing] at hpc
    have hpos : 0 < counterLimit := by decide
    omega
  · have hf := standsIn_of_record hr hc hfq
    have hg := standsIn_of_record hr hd hgq
    rw [hf.logicalPc_eq, hg.logicalPc_eq, distance_eq_of_record hr hf hends hfq,
      distance_eq_of_record hr hg hends hgq]

namespace Vast

def method : Method where
  ref := 0
  id := 0
  holder := "T"
  name := "m"
  parameters := 2
  locals := 4
  maxStack := 1
  parameters_le_locals := by decide

/-- The record of the place after eight bytes. -/
def afterEight : DebugRecord := { offset := 8, scopes := [{ method, bci := 0 }] }

/-- Code of a size, with one record. -/
def code (size : Nat) : Region :=
  ⟨0, 1, method, 0x100000, size, 0, 4, false, .ofList [afterEight]⟩

/-- Code of 64 bytes. -/
def small : Region := code 64

/-- Code of 64 bytes more than 32 bits can count. -/
def vast : Region := code (counterLimit + 64)

lemma describes_code {size : Nat} (h : size < wordLimit - 0x100000) :
    (code size).Describes [afterEight] where
  fits := Nat.add_lt_of_lt_sub' h
  debug := rfl
  offsets q hq := by
    obtain rfl := List.mem_singleton.1 hq
    decide

end Vast

open Vast

/-- In small code the place with the record gets it, and the place after it gets none. -/
theorem exact_small : small.Describes [afterEight] ∧
    (∀ (f : Frame) c, f.StandsIn c small → f.Exact c small [afterEight]) ∧
    (standing small 8).record = .ok ({ region := small, slots := #[] }, afterEight) ∧
    (standing small 9).record = fatal (.noDebugRecord 9 "T.m") := by
  have hr : small.Describes [afterEight] := describes_code (by decide)
  have hends : small.EndsBefore [afterEight] := by
    intro q hq
    obtain rfl := List.mem_singleton.1 hq
    decide
  exact ⟨hr, (forall_exact_iff hr).2.1.2 hends, by decide, by decide⟩

/-- In vast code the place 4294967296 bytes after the one with the record gets that record, too. -/
theorem not_exact_vast : vast.Describes [afterEight] ∧
    (standing vast 0x100000008).StandsIn { region := vast, slots := #[] } vast ∧
    (standing vast 0x100000008).record = .ok ({ region := vast, slots := #[] }, afterEight) ∧
    (standing vast 8).record = .ok ({ region := vast, slots := #[] }, afterEight) ∧
    ¬ (standing vast 0x100000008).Exact { region := vast, slots := #[] } vast [afterEight] := by
  have hstands : (standing vast 0x100000008).StandsIn { region := vast, slots := #[] } vast :=
    standsIn_standing (by decide)
  have hr : vast.Describes [afterEight] := describes_code (by decide)
  refine ⟨hr, hstands, by decide, by decide, fun h => ?_⟩
  rcases (exact_iff hr hstands).1 h with hlt | hne
  · exact absurd hlt (by decide)
  · exact hne afterEight List.mem_cons_self (by decide)

end Frame
end Bailout
