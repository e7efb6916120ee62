import Bailout.Proofs.Restore.Attempts
import Bailout.Proofs.Restore.Elements
import Bailout.Proofs.Restore.Reads

/-!
# What filled objects hold

Which sources the elements of an array have their values from, and what an object holds once it is
filled in. As with fields, every source is read once, in order: one for an element, two for a long,
a double or two ints that are written as one value, and one with its markers for a run of bytes.
No field that compiled code knows is left out.
-/

namespace Bailout.Restore

variable {f : CompiledFrame} {t : Restored} {d : Description} {ss : List Source} {es : List Int64}
  {b : Body} {ty : BasicType}

/-! ### Elements -/

/-- The elements that an array of primitives has from its sources. -/
inductive ReadsElements (f : CompiledFrame) (t : Restored) (d : Description) (ty : BasicType) :
    List Source → List Int64 → Prop
  | nil : ReadsElements f t d ty [] []
  | single {s : Source} {rest : List Source} {v : Word} {es : List Int64} (hty : ty.slots = 1)
      (hbyte : ty ≠ .byte) (hs : ty = .int → rest ≠ [] → startsPair d (s :: rest) = .ok false)
      (hv : f.resolve t s = .ok v) (h : ReadsElements f t d ty rest es) :
      ReadsElements f t d ty (s :: rest) (ty.truncate v.bits :: es)
  | wide {dummy s : Source} {rest : List Source} {v : Word} {es : List Int64} (hty : ty.slots = 2)
      (hv : f.resolve t s = .ok v) (h : ReadsElements f t d ty rest es) :
      ReadsElements f t d ty (dummy :: s :: rest) (v.bits :: es)
  | pair {dummy s : Source} {rest : List Source} {v : Word} {es : List Int64} (hty : ty = .int)
      (hs : startsPair d (dummy :: s :: rest) = .ok true) (hv : f.resolve t s = .ok v)
      (h : ReadsElements f t d ty rest es) :
      ReadsElements f t d ty (dummy :: s :: rest) (lowHalf v.bits :: highHalf v.bits :: es)
  | run {s : Source} {k : Nat} {rest : List Source} {v : Word} {es : List Int64} (hty : ty = .byte)
      (hlen : k + 1 ∈ runLengths) (hrest : ∀ q ∈ rest.head?, q.isMarker = false)
      (hv : f.resolve t s = .ok v) (h : ReadsElements f t d ty rest es) :
      ReadsElements f t d ty (s :: (List.replicate k .marker ++ rest))
        (bytesOf v.bits (k + 1) ++ es)

lemma reads_of_wideElements (hty : ty.slots = 2) (h : wideElements f t d ss = .ok es) :
    ReadsElements f t d ty ss es := by
  induction ss using wideElements.induct generalizing es with
  | case1 =>
    cases h
    exact .nil
  | case2 =>
    rw [wideElements] at h
    cases h
  | case3 dummy s rest ih =>
    simp only [wideElements, bind_eq_ok, pure_eq_ok] at h
    obtain ⟨v, hv, es', hes, rfl⟩ := h
    exact .wide hty hv (ih hes)

lemma reads_of_intElements (h : intElements f t d ss = .ok es) :
    ReadsElements f t d .int ss es := by
  induction ss using intElements.induct f t d generalizing es with
  | case1 =>
    rw [intElements] at h
    cases h
    exact .nil
  | case2 s ih =>
    rw [intElements.eq_def] at h
    simp only [bind_eq_ok, pure_eq_ok] at h
    obtain ⟨v, hv, es', hes, rfl⟩ := h
    exact .single rfl (by decide) (fun _ hrest => absurd rfl hrest) hv (ih hes)
  | case3 s next more ih ih' =>
    rw [intElements.eq_def] at h
    simp only [bind_eq_ok] at h
    obtain ⟨pair, hpair, h⟩ := h
    split_ifs at h with hp
    · simp only [bind_eq_ok, pure_eq_ok] at h
      obtain ⟨v, hv, es', hes, rfl⟩ := h
      exact .pair rfl (hp ▸ hpair) hv (ih' hes)
    · simp only [bind_eq_ok, pure_eq_ok] at h
      obtain ⟨v, hv, es', hes, rfl⟩ := h
      rw [Bool.not_eq_true] at hp
      exact .single rfl (by decide) (fun _ _ => hp ▸ hpair) hv (ih hes)

lemma reads_of_plainElements (hty : ty.slots = 1) (hbyte : ty ≠ .byte) (hint : ty ≠ .int)
    (h : plainElements f t ty.truncate ss = .ok es) : ReadsElements f t d ty ss es := by
  have hall := mapM_eq_ok.1 h
  induction hall with
  | nil => exact .nil
  | cons hs hall ih =>
    obtain ⟨v, hv, hs⟩ := bind_eq_ok.1 hs
    cases hs
    exact .single hty hbyte (fun hty => absurd hty hint) hv (ih (mapM_eq_ok.2 hall))

/-- Some sources start with a number of markers. -/
lemma exists_markers (ss : List Source) : ∃ k rest, ss = List.replicate k .marker ++ rest ∧
    ∀ q ∈ rest.head?, q.isMarker = false := by
  induction ss with
  | nil => exact ⟨0, [], rfl, by simp⟩
  | cons s ss ih =>
    by_cases hs : s.isMarker = true
    · obtain ⟨k, rest, rfl, hrest⟩ := ih
      cases s with
      | marker => exact ⟨k + 1, rest, rfl, hrest⟩
      | _ => cases hs
    · exact ⟨0, s :: ss, rfl, by simpa using hs⟩

lemma reads_of_byteElements {index : Nat} (h : byteElements f t index (runs ss) = .ok es) :
    ReadsElements f t d .byte ss es := by
  induction hn : ss.length using Nat.strong_induction_on generalizing ss index es with
  | _ n ih =>
    cases ss with
    | nil =>
      cases h
      exact .nil
    | cons s ss =>
      obtain ⟨k, rest, rfl, hrest⟩ := exists_markers ss
      rw [runs_replicate hrest, byteElements] at h
      simp only [bind_eq_ok, pure_eq_ok, guarantee_eq_ok, List.contains_iff_mem] at h
      obtain ⟨_, hk, v, hv, es', hes, rfl⟩ := h
      have hlt : rest.length < n := by
        rw [← hn, List.length_cons, List.length_append]
        omega
      exact .run rfl hk hrest hv (ih rest.length hlt hes rfl)

theorem reads_of_primitiveElements (h : primitiveElements f t d ty = .ok es) :
    ReadsElements f t d ty d.sources es := by
  cases ty with
  | long | double => exact reads_of_wideElements rfl h
  | int => exact reads_of_intElements h
  | byte => exact reads_of_byteElements h
  | float | short | char | boolean =>
    exact reads_of_plainElements rfl (by decide) (by decide) h
  | object | array | void | illegal =>
    simp only [primitiveElements, bind_eq_ok, pure_eq_ok, guarantee_eq_ok, List.isEmpty_iff] at h
    obtain ⟨_, hnone, rfl⟩ := h
    rw [hnone]
    exact .nil

/-! ### Objects -/

/-- A body holds what the sources of a description give: each field or element that compiled code
knows has its value from its source, and any other slot was never written. -/
inductive Holds (f : CompiledFrame) (t : Restored) (d : Description) : Body → Prop
  | fields {slots : Array (Option Word)} {ws : List (Nat × Word)} (hk : d.klass.isInstance = true)
      (hread : ReadsFields f t d (visibleFields d.klass f.region.seesInjected) d.sources ws)
      (hsize : slots.size = d.klass.slotCount)
      (hslots : ∀ i < d.klass.slotCount, slots[i]? = some (ws.lookup i)) :
      Holds f t d (.fields slots)
  | primitives {ty : BasicType} {box : Option BasicType} {es : List Int64}
      (hk : d.klass = .primitiveArray ty box) (hread : ReadsElements f t d ty d.sources es) :
      Holds f t d (.primitives es.toArray)
  | references {name : String} {box : Option BasicType} {os : List (Option Ref)}
      (hk : d.klass = .referenceArray name box)
      (hread : List.Forall₂ (fun s o => ∃ v, f.resolve t s = .ok v ∧ o = v.object?) d.sources os) :
      Holds f t d (.references os.toArray)

lemma size_writeSlots (slots : Array (Option Word)) (ws : List (Nat × Word)) :
    (writeSlots slots ws).size = slots.size := by
  unfold writeSlots
  induction ws generalizing slots with
  | nil => rfl
  | cons w ws ih => rw [List.foldl_cons, ih, Array.size_setIfInBounds]

/-- Slots that held nothing hold the words that were written. -/
lemma writeSlots_replicate (hws : (ws.map Prod.fst).Nodup) {n i : Nat} (hi : i < n) :
    (writeSlots (Array.replicate n none) ws)[i]? = some (ws.lookup i) := by
  have hsize : i < (Array.replicate n (none : Option Word)).size := by simpa using hi
  cases hw : ws.lookup i with
  | none =>
    have hnot : i ∉ ws.map Prod.fst := by
      rw [List.mem_map]
      rintro ⟨w, hmem, rfl⟩
      simpa using List.lookup_eq_none_iff.1 hw w hmem
    rw [writeSlots_of_notMem hnot, Array.getElem?_replicate, if_pos hi]
  | some w =>
    obtain ⟨pre, post, hsplit, -⟩ := List.lookup_eq_some_iff.1 hw
    exact writeSlots_of_mem hws (by simp [hsplit]) hsize

/-- A blank object that is filled in holds what the sources of its description give. -/
theorem holds_of_filledBody {o : Object} (ho : Blank d o) (h : filledBody f t d o.body = .ok b) :
    Holds f t d b := by
  cases hk : d.klass.isInstance with
  | true =>
    rw [ho.slots hk] at h
    obtain ⟨ws, hws, rfl⟩ := exists_assignments_of_filledBody hk h
    have hread := readsFields_of_assignments hws
    refine .fields hk hread (by rw [size_writeSlots, Array.size_replicate]) fun i hi => ?_
    exact writeSlots_replicate (hread.map_fst ▸ nodup_visibleFields _ _) hi
  | false =>
    unfold filledBody at h
    cases hd : d.klass with
    | base | derived =>
      rw [hd] at hk
      cases hk
    | primitiveArray ty box =>
      simp only [hd, bind_eq_ok, pure_eq_ok] at h
      obtain ⟨es, hes, rfl⟩ := h
      exact .primitives hd (reads_of_primitiveElements hes)
    | referenceArray name box =>
      simp only [hd, referenceElements, bind_eq_ok, pure_eq_ok] at h
      obtain ⟨os, hos, rfl⟩ := h
      refine .references hd ((mapM_eq_ok.1 hos).imp fun s o hs => ?_)
      simp only [bind_eq_ok, pure_eq_ok] at hs
      obtain ⟨v, hv, rfl⟩ := hs
      exact ⟨v, hv, rfl⟩

end Bailout.Restore
