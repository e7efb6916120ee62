import Bailout.Proofs.Restore.Orderly

/-!
# Restoring with less

The same objects restored from the same store, once with a heap that hands out every one of them and
once with any heap and with box caches of which some may have failed. Whatever stands for an object
the second time is the same shared box or a new object, so the monitors that are to be entered are
no more than the first time, up to the names of new objects.
-/

namespace Bailout.Restore

variable {s s' : Supply} {f : CompiledFrame} {r : DebugRecord} {d : Description}
  {ds : List Description} {m m' : Memory} {mode : Mode} {pending pending' : Option Thrown}
  {o o' : Outcome} {n : Nat} {store store' : Store} {rs : List Ref}

/-- A supply with the same switches, of which every box cache is the same or has failed. -/
structure Poorer (s s' : Supply) : Prop where
  config : s'.config = s.config
  caches : ∀ ty, s'.boxes.caches.get? ty = s.boxes.caches.get? ty ∨
    s'.boxes.caches.get? ty = some .failed

namespace Poorer

lemma boxes_lookup (h : Poorer s s') (ty : BasicType) (w : Int64) :
    s'.boxes.lookup ty w = s.boxes.lookup ty w ∨ s'.boxes.lookup ty w = .unavailable := by
  rcases h.caches ty with hty | hty
  · left
    rw [BoxCaches.lookup, BoxCaches.lookup, hty]
  · right
    rw [BoxCaches.lookup, hty]

/-- What the caches say about an object is the same, or that they cannot say. -/
lemma lookup (h : Poorer s s') (f : CompiledFrame) (t : Restored) (d : Description) :
    lookup s' f t d = lookup s f t d ∨
      lookup s' f t d = .ok .unavailable ∧ ∃ b, lookup s f t d = .ok b := by
  unfold Restore.lookup sharedBox
  rw [h.config]
  split_ifs
  · cases d.klass.box? with
    | none => exact .inl rfl
    | some ty =>
      simp only
      cases d.sources[boxedSource ty]? with
      | none => exact .inl rfl
      | some x =>
        simp only
        cases f.resolve t x with
        | error e => exact .inl rfl
        | ok w =>
          simp only [ok_bind]
          rcases h.boxes_lookup ty w.bits with hw | hw
          · exact .inl (congrArg _ hw)
          · exact .inr ⟨congrArg _ hw, _, rfl⟩
  · exact .inl rfl

lemma lookup_of_ne (h : Poorer s s') {b : BoxLookup} (hb : b ≠ .unavailable)
    (hd : Restore.lookup s' f {} d = .ok b) : Restore.lookup s f {} d = .ok b := by
  rcases h.lookup f {} d with heq | ⟨heq, -⟩
  · exact heq ▸ hd
  · rw [heq] at hd
    cases hd
    exact absurd rfl hb

lemma restoresObjects (h : Poorer s s') : s'.restoresObjects = s.restoresObjects := by
  rw [Supply.restoresObjects, Supply.restoresObjects, h.config]

lemma known (h : Poorer s s') (hk : Known s f r store) : Known s' f r store where
  boxes := by
    intro ty w q hq
    rcases h.boxes_lookup ty w with heq | heq
    · exact hk.boxes ty w q (heq ▸ hq)
    · rw [heq] at hq
      cases hq
  owners := hk.owners

/-- Descriptions that are in order stay so. -/
theorem inOrder (h : Poorer s s') (hds : InOrder s f ds) : InOrder s' f ds where
  ids := hds.ids
  each := by
    intro d hd
    have hmiss := h.lookup_of_ne (f := f) (d := d) (b := .miss) (by simp)
    refine ⟨?_, fun hb => (hds.each d hd).sized (hmiss hb), fun hb =>
      (hds.each d hd).filled (hmiss hb)⟩
    rcases h.lookup f {} d with heq | ⟨heq, -⟩
    · exact heq ▸ (hds.each d hd).value
    · exact ⟨_, heq⟩

end Poorer

/-! ### Monitors that could be entered -/

lemma owner_of_enter {m m' : Monitor} (h : m.enter n = .ok m') :
    (m.owner = none ∨ m.owner = some n) ∧ m'.holdCount n ≤ counterLimit := by
  rw [Monitor.enter, Monitor.tryEnter] at h
  cases ho : m.owner with
  | none =>
    rw [ho] at h
    cases h
    exact ⟨.inl rfl, by simp [Monitor.holdCount]; decide⟩
  | some k =>
    simp only [ho] at h
    split_ifs at h with hk
    · subst hk
      unfold Monitor.deepen at h
      split_ifs at h with hr
      · cases h
        refine ⟨.inr rfl, ?_⟩
        simp only [Monitor.holdCount, ho, if_true]
        omega
      · cases h
    · cases h

/-- If monitors were entered, they admitted that. -/
theorem admits_of_enterAll (h : enterAll n store rs = .ok store') (hhas : ∀ q ∈ rs, store.Has q) :
    Admits n store rs := by
  induction rs generalizing store with
  | nil => exact List.forall_mem_nil _
  | cons r rs ih =>
    rw [enterAll_cons, bind_eq_ok] at h
    obtain ⟨m, hm, h⟩ := h
    have hr : store.Has r := hhas r List.mem_cons_self
    obtain ⟨howner, hbound⟩ := owner_of_enter hm
    have hrest : Admits n (store.setMonitor r m) rs := by
      refine ih h fun q hq => ?_
      rw [Store.Has, Store.setMonitor, Store.size_modify]
      exact hhas q (List.mem_cons_of_mem _ hq)
    have hself : (store.setMonitor r m).monitor r = m := Store.monitor_setMonitor_self hr
    have hcount := (Monitor.enter_spec hm).2
    intro q hq
    by_cases hqr : q = r
    · subst hqr
      refine ⟨howner, ?_⟩
      rw [List.count_cons_self]
      by_cases hmem : q ∈ rs
      · have hlater := (hrest q hmem).2
        rw [hself] at hlater
        omega
      · rw [List.count_eq_zero_of_not_mem hmem]
        omega
    · have hlater := hrest q (List.mem_of_ne_of_mem hqr hq)
      rw [Store.monitor_setMonitor_of_ne hqr] at hlater
      rw [List.count_cons_of_ne (Ne.symm hqr)]
      exact hlater

/-! ### Two restorations from one store -/

lemma count_filterMap_le {α β : Type} [DecidableEq β] {g g' : α → Option β} {b b' : β} (as : List α)
    (h : ∀ a ∈ as, g a = some b → g' a = some b') :
    (as.filterMap g).count b ≤ (as.filterMap g').count b' := by
  induction as with
  | nil => exact Nat.le_refl _
  | cons a as ih =>
    replace ih := ih fun x hx => h x (List.mem_cons_of_mem _ hx)
    rw [← List.singleton_append, List.filterMap_append, List.filterMap_append, List.count_append,
      List.count_append]
    refine Nat.add_le_add ?_ ih
    by_cases ha : g a = some b
    · simp [ha, h a List.mem_cons_self ha]
    · have hnone : ([a].filterMap g).count b = 0 := by
        refine List.count_eq_zero_of_not_mem fun hb => ha ?_
        simpa using hb
      rw [hnone]
      exact Nat.zero_le _

/-- One restoration in which nothing was refused, and another one from the same store with less to
hand out. -/
structure Reduced (s s' : Supply) (m m' : Memory) (f : CompiledFrame) (r : DebugRecord)
    (o o' : Outcome) : Prop where
  poorer : Poorer s s'
  store : m'.store = m.store
  known : Known s f r m.store
  ids : (r.objects.map Description.id).Nodup
  all : ∀ d ∈ r.objects, (o.table.get d.id).isSome = true
  full : ∃ mode pending, Restoring s m pending mode f r.objects o
  less : ∃ mode pending, Restoring s' m' pending mode f r.objects o'

namespace Reduced

variable {q : Ref} {h : HeldMonitor}

/-- What stands for an object is the same shared box, or a new object. -/
lemma stands (hr : Reduced s s' m m' f r o o') {id : Nat} (hq : o'.table.get id = some q) :
    ∃ q', o.table.get id = some q' ∧ (m.store.Has q → q' = q) := by
  obtain ⟨_, _, hfull⟩ := hr.full
  obtain ⟨_, _, hless⟩ := hr.less
  obtain ⟨d, hd, rfl, horigin⟩ := hless.stands id q hq
  obtain ⟨q', hq'⟩ := Option.isSome_iff_exists.1 (hr.all d hd)
  refine ⟨q', hq', fun hhas => ?_⟩
  rcases horigin with hhit | ⟨-, hnew, -⟩
  · have hhit := hr.poorer.lookup_of_ne (by simp) hhit
    obtain ⟨e, he, hid, horigin⟩ := hfull.stands d.id q' hq'
    obtain rfl := List.inj_on_of_nodup_map hr.ids he hd hid
    rcases horigin with hhit' | ⟨hmiss, -⟩
    · rw [hhit] at hhit'
      cases hhit'
      rfl
    · rw [hhit] at hmiss
      cases hmiss
  · rw [hr.store] at hnew
    exact absurd hhas (Nat.not_lt.2 hnew)

/-- An owner that the frame names itself is the same both times. -/
lemma entered?_of_ne (ho : ∀ id, h.owner ≠ .eliminated id) (t t' : Restored) :
    f.entered? t h = f.entered? t' h := by
  unfold CompiledFrame.entered?
  cases hx : h.owner with
  | eliminated id => exact absurd hx (ho id)
  | _ => rfl

/-- Every owner has a counterpart that is listed at least as often. -/
theorem count_owners_le (hr : Reduced s s' m m' f r o o') (hq : q ∈ f.owners o'.table r) :
    ∃ q', (m.store.Has q → q' = q) ∧
      (f.owners o'.table r).count q ≤ (f.owners o.table r).count q' := by
  have helim : ∀ {t : Restored} {h : HeldMonitor} {id : Nat} {x : Ref}, h.owner = .eliminated id →
      (f.entered? t h = some x ↔ h.eliminated = true ∧ t.get id = some x) := by
    intro t h id x ho
    simp [CompiledFrame.entered?, ho, CompiledFrame.resolve, Except.toOption, Word.object?, pure,
      Except.pure]
  by_cases hhas : m.store.Has q
  · refine ⟨q, fun _ => rfl, count_filterMap_le _ fun h _ hh => ?_⟩
    by_cases ho : ∃ id, h.owner = .eliminated id
    · obtain ⟨id, ho⟩ := ho
      obtain ⟨he, hget⟩ := (helim ho).1 hh
      obtain ⟨q', hq', hsame⟩ := hr.stands hget
      exact (helim ho).2 ⟨he, hsame hhas ▸ hq'⟩
    · rw [← hh]
      exact entered?_of_ne (fun id hid => ho ⟨id, hid⟩) _ _
  · -- A new object stands for one description only, and the frame names it nowhere.
    have hnamed : q ∉ f.owners {} r := fun hmem => hhas (hr.known.owners q hmem)
    obtain ⟨id, hid⟩ := (CompiledFrame.mem_owners hq).resolve_left hnamed
    obtain ⟨q', hq', -⟩ := hr.stands hid
    refine ⟨q', fun h => absurd h hhas, ?_⟩
    refine count_filterMap_le _ fun h hmem hh => ?_
    by_cases ho : ∃ id, h.owner = .eliminated id
    · obtain ⟨i, ho⟩ := ho
      obtain ⟨he, hget⟩ := (helim ho).1 hh
      obtain ⟨_, _, hless⟩ := hr.less
      have hboxes := (hr.poorer.known hr.known).boxes
      rw [← hr.store] at hboxes hhas
      obtain rfl := hless.unique hboxes i id q (Nat.le_of_not_lt hhas) hget hid
      exact (helim ho).2 ⟨he, hq'⟩
    · rw [entered?_of_ne (fun i hi => ho ⟨i, hi⟩) o'.table {}] at hh
      exact absurd (List.mem_filterMap.2 ⟨h, hmem, hh⟩) hnamed

/-- If the monitors that were entered the first time admitted that, so do those of the second. -/
theorem admits (hr : Reduced s s' m m' f r o o')
    (hadmits : Admits n m.store (f.owners o.table r)) :
    Admits n m'.store (f.owners o'.table r) := by
  intro q hq
  obtain ⟨q', hsame, hle⟩ := hr.count_owners_le hq
  have hpos : 0 < (f.owners o'.table r).count q := List.count_pos_iff.2 hq
  obtain ⟨howner, hroom⟩ := hadmits q' (List.count_pos_iff.1 (Nat.lt_of_lt_of_le hpos hle))
  rw [hr.store]
  by_cases hhas : m.store.Has q
  · obtain rfl := hsame hhas
    exact ⟨howner, Nat.le_trans (Nat.add_le_add_left hle _) hroom⟩
  · rw [Store.monitor_of_size_le (Nat.le_of_not_lt hhas)]
    refine ⟨.inl rfl, ?_⟩
    have hfree : Monitor.holdCount {} n = 0 := by simp [Monitor.holdCount]
    omega

end Reduced
end Bailout.Restore
