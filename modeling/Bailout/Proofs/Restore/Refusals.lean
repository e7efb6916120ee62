import Bailout.Proofs.Restore.Orderly

/-!
# Refusals last

An object that a heap refused is refused again once more of the heap is used. So if the objects of a
frame are restored again after some were refused, nothing else comes of it the next time: the same
objects are refused, and perhaps more. What is left each time are new objects that nobody knows of;
what was in the store before stays as it is.
-/

namespace Bailout

/-! ### Heaps that fill up -/

/-- More of a heap may have been used. -/
structure Heap.Fills (h h' : Heap) : Prop where
  capacity : h'.capacity = h.capacity
  limit : h'.limit = h.limit
  used_le : h.used ≤ h'.used
  allocations_le : h.allocations ≤ h'.allocations

namespace Heap

variable {h h' h'' : Heap} {bytes : Nat}

lemma Fills.refl (h : Heap) : h.Fills h := ⟨rfl, rfl, Nat.le_refl _, Nat.le_refl _⟩

lemma Fills.trans (hf : h.Fills h') (hf' : h'.Fills h'') : h.Fills h'' where
  capacity := hf'.capacity.trans hf.capacity
  limit := hf'.limit.trans hf.limit
  used_le := Nat.le_trans hf.used_le hf'.used_le
  allocations_le := Nat.le_trans hf.allocations_le hf'.allocations_le

lemma fills_reserve? (hr : h.reserve? bytes = some h') : h.Fills h' := by
  unfold reserve? at hr
  split_ifs at hr
  cases hr
  exact ⟨rfl, rfl, Nat.le_add_right _ _, Nat.le_succ _⟩

/-- What had no room has none later. -/
lemma Fills.reserve?_eq_none (hf : h.Fills h') (hr : h.reserve? bytes = none) :
    h'.reserve? bytes = none := by
  obtain ⟨hcapacity, hlimit, hused, hallocations⟩ := hf
  simp only [reserve?, ite_eq_right_iff, reduceCtorEq, imp_false] at hr ⊢
  omega

end Heap

/-- All that is in a store is in the other one, as it was. -/
def Store.Extends (s s' : Store) : Prop := ∀ r, s.Has r → s'.get r = s.get r

namespace Memory

variable {m m' m₁ : Memory} {k : Klass} {n : Nat} {r : Ref} {e : HeapExhausted}

lemma fills_allocate (h : m.allocate k n = .ok (.ok (r, m'))) : m.heap.Fills m'.heap := by
  obtain ⟨bytes, -, hreserve, -, -⟩ := allocate_cases h
  exact Heap.fills_reserve? hreserve

/-- An object that is handed out is put behind all others. -/
lemma extends_allocate (h : m.allocate k n = .ok (.ok (r, m'))) :
    m.store.Extends m'.store := by
  obtain ⟨bytes, body, -, -, hadd⟩ := allocate_cases h
  intro q hq
  have hstore := (Prod.mk.inj hadd).2
  rw [← hstore]
  exact Store.get_add_of_lt _ _ hq

lemma allocate_refused_again (hf : m.heap.Fills m₁.heap) (h : m.allocate k n = .ok (.error e)) :
    m₁.allocate k n = .ok (.error e) := by
  simp only [allocate, bind_eq_ok] at h
  obtain ⟨bytes, hbytes, h⟩ := h
  cases hr : m.heap.reserve? bytes with
  | some heap =>
    simp only [hr, bind_eq_ok] at h
    obtain ⟨_, -, h⟩ := h
    cases h
  | none =>
    rw [hr] at h
    rw [allocate, hbytes, ok_bind, hf.reserve?_eq_none hr]
    exact h

end Memory

namespace Restore

variable {s : Supply} {f : CompiledFrame} {d : Description} {ds : List Description}
  {m m' m₁ : Memory} {p p' q q' : Progress} {t : Restored} {store store' : Store}
  {e : HeapExhausted}

lemma newObject_refused_again (hf : m.heap.Fills m₁.heap)
    (h : newObject m d = .ok (.error e)) : newObject m₁ d = .ok (.error e) := by
  unfold newObject at h ⊢
  split_ifs at h ⊢
  · simp only [Memory.allocateInstance, bind_eq_ok] at h
    obtain ⟨_, hu, h⟩ := h
    rw [Memory.allocateInstance, hu, ok_bind, Memory.allocate_refused_again hf h]
  · simp only [Memory.allocateArray, bind_eq_ok] at h
    obtain ⟨n, hn, _, hu, h⟩ := h
    rw [hn, ok_bind, Memory.allocateArray, hu, ok_bind, Memory.allocate_refused_again hf h]

/-! ### Allocating again -/

/-- Allocating one object, taken apart. -/
lemma allocateOne_cases (h : allocateOne s f p d = .ok p') :
    (∃ r, lookup s f {} d = .ok (.hit r) ∧
      p' = { p with table := (p.table.markCached d.id).insert d.id (some r) }) ∨
    (lookup s f {} d = .ok .unavailable ∧ p' = p.refuse d) ∨
    (∃ e, lookup s f {} d = .ok .miss ∧ newObject p.memory d = .ok (.error e) ∧
      p' = p.refuse d) ∨
    ∃ r memory, lookup s f {} d = .ok .miss ∧ newObject p.memory d = .ok (.ok (r, memory)) ∧
      p' = { p with memory, table := p.table.insert d.id (some r) } := by
  simp only [allocateOne, bind_eq_ok, lookup_congr s f p.table {}] at h
  obtain ⟨_, -, b, hb, h⟩ := h
  cases b with
  | hit r =>
    cases h
    exact .inl ⟨r, hb, rfl⟩
  | unavailable =>
    cases h
    exact .inr (.inl ⟨hb, rfl⟩)
  | miss =>
    obtain ⟨y, hy, h⟩ := bind_eq_ok.1 h
    cases y with
    | error e =>
      cases h
      exact .inr (.inr (.inl ⟨e, hb, hy, rfl⟩))
    | ok y =>
      cases h
      exact .inr (.inr (.inr ⟨y.1, y.2, hb, hy, rfl⟩))

lemma fills_allocateOne (h : allocateOne s f p d = .ok p') :
    p.memory.heap.Fills p'.memory.heap := by
  rcases allocateOne_cases h with ⟨r, -, rfl⟩ | ⟨-, rfl⟩ | ⟨e, -, -, rfl⟩ | ⟨r, m, -, hnew, rfl⟩
  · exact .refl _
  · exact .refl _
  · exact .refl _
  · obtain ⟨n, hnew⟩ := allocate_of_newObject hnew
    exact Memory.fills_allocate hnew

lemma extends_allocateOne (h : allocateOne s f p d = .ok p') :
    p.memory.store.Extends p'.memory.store := by
  rcases allocateOne_cases h with ⟨r, -, rfl⟩ | ⟨-, rfl⟩ | ⟨e, -, -, rfl⟩ | ⟨r, m, -, hnew, rfl⟩
  · exact fun _ _ => rfl
  · exact fun _ _ => rfl
  · exact fun _ _ => rfl
  · obtain ⟨n, hnew⟩ := allocate_of_newObject hnew
    exact Memory.extends_allocate hnew

/-- An object for which there is none afterwards was refused. -/
lemma get_eq_none_iff (h : allocateOne s f p d = .ok p') :
    p'.table.get d.id = none ↔ lookup s f {} d = .ok .unavailable ∨
      lookup s f {} d = .ok .miss ∧ ∃ e, newObject p.memory d = .ok (.error e) := by
  rcases allocateOne_cases h with
    ⟨r, hb, rfl⟩ | ⟨hb, rfl⟩ | ⟨e, hb, hnew, rfl⟩ | ⟨r, m, hb, hnew, rfl⟩
  · simp [hb, Restored.get_insert]
  · simp [hb, Progress.refuse, Restored.get_insert]
  · simp [hb, hnew, Progress.refuse, Restored.get_insert]
  · simp [hb, hnew, Restored.get_insert]

/-- And then allocation has failed. -/
lemma failed_iff (h : allocateOne s f p d = .ok p') :
    p'.failed = true ↔ p.failed = true ∨ p'.table.get d.id = none := by
  rcases allocateOne_cases h with ⟨r, -, rfl⟩ | ⟨-, rfl⟩ | ⟨e, -, -, rfl⟩ | ⟨r, m, -, -, rfl⟩
  · simp [Restored.get_insert]
  · simp [Progress.refuse, Restored.get_insert]
  · simp [Progress.refuse, Restored.get_insert]
  · simp [Restored.get_insert]

/-- One allocation has come as far as another one, and as many objects were refused at least. -/
structure Progress.Tracks (p q : Progress) : Prop where
  contains : ∀ id, q.table.contains id = true ↔ p.table.contains id = true
  stands : ∀ id, p.table.get id = none → q.table.get id = none
  failed : p.failed = true → q.failed = true

/-- If both heaps are asked for the same object, the one of which more is used refuses it if the
other does. -/
lemma exists_allocateOne_again (ht : p.Tracks q) (hf : p.memory.heap.Fills q.memory.heap)
    (h : allocateOne s f p d = .ok p') : ∃ q', allocateOne s f q d = .ok q' ∧ p'.Tracks q' := by
  have hp := allots_of_allocateOne h
  have hcontains : ¬ q.table.contains d.id = true := fun hc => hp.new ((ht.contains _).1 hc)
  have hguarantee : guarantee (!q.table.contains d.id) (.reallocatedTwice d.id) = .ok () := by
    simpa using hcontains
  obtain ⟨q', hq'⟩ : ∃ q', allocateOne s f q d = .ok q' := by
    simp only [allocateOne, hguarantee, ok_bind, lookup_congr s f q.table {}]
    rcases allocateOne_cases h with
      ⟨r, hb, -⟩ | ⟨hb, -⟩ | ⟨e, hb, hnew, -⟩ | ⟨r, m, hb, hnew, -⟩
    · exact ⟨_, by rw [hb, ok_bind]; rfl⟩
    · exact ⟨_, by rw [hb, ok_bind]; rfl⟩
    · exact ⟨_, by rw [hb, ok_bind]; simp only [newObject_refused_again hf hnew, ok_bind]; rfl⟩
    · obtain ⟨y, hy⟩ := exists_newObject hnew q.memory
      cases y with
      | error e => exact ⟨_, by rw [hb, ok_bind]; simp only [hy, ok_bind]; rfl⟩
      | ok y => exact ⟨_, by rw [hb, ok_bind]; simp only [hy, ok_bind]; rfl⟩
  have hq := allots_of_allocateOne hq'
  have hrefused : p'.table.get d.id = none → q'.table.get d.id = none := by
    rw [get_eq_none_iff h, get_eq_none_iff hq']
    rintro (hb | ⟨hb, e, hnew⟩)
    · exact .inl hb
    · exact .inr ⟨hb, e, newObject_refused_again hf hnew⟩
  refine ⟨q', hq', fun id => ?_, fun id hid => ?_, ?_⟩
  · rw [hq.contains, hp.contains, ht.contains]
  · by_cases hd : id = d.id
    · exact hd ▸ hrefused (hd ▸ hid)
    · rw [hp.kept id hd] at hid
      rw [hq.kept id hd]
      exact ht.stands id hid
  · rw [failed_iff h, failed_iff hq']
    exact Or.imp ht.failed hrefused

lemma fills_foldlM (h : ds.foldlM (allocateOne s f) p = .ok p') :
    p.memory.heap.Fills p'.memory.heap :=
  foldlM_induction (fun _ q => p.memory.heap.Fills q.memory.heap) (.refl _)
    (fun _ _ _ _ hpre hd => hpre.trans (fills_allocateOne hd)) h

lemma extends_foldlM (h : ds.foldlM (allocateOne s f) p = .ok p') :
    p.memory.store.Extends p'.memory.store := by
  have hboth : p.memory.store.Extends p'.memory.store ∧
      p.memory.store.objects.size ≤ p'.memory.store.objects.size := by
    refine foldlM_induction (fun _ q => p.memory.store.Extends q.memory.store ∧
      p.memory.store.objects.size ≤ q.memory.store.objects.size)
      ⟨fun _ _ => rfl, Nat.le_refl _⟩ (fun _ _ q q' hpre hd => ?_) h
    refine ⟨fun r hr => ?_, Nat.le_trans hpre.2 (allocateOne_spec hd).1.size_le⟩
    rw [extends_allocateOne hd r (hr.mono hpre.2), hpre.1 r hr]
  exact hboth.1

/-- Allocating all objects again, from a heap of which more is used than the first time at the
end. -/
lemma exists_foldlM_again (ht : p.Tracks q) (h : ds.foldlM (allocateOne s f) p = .ok p')
    (hf : p'.memory.heap.Fills q.memory.heap) :
    ∃ q', ds.foldlM (allocateOne s f) q = .ok q' ∧ p'.Tracks q' := by
  induction ds generalizing p q with
  | nil =>
    cases h
    exact ⟨q, rfl, ht⟩
  | cons d ds ih =>
    rw [List.foldlM_cons, bind_eq_ok] at h
    obtain ⟨p₁, hd, h⟩ := h
    -- What was used up to here was used at the end, and so the second heap is the fuller one.
    have hlater := fills_foldlM h
    obtain ⟨q₁, hq₁, ht₁⟩ :=
      exists_allocateOne_again ht (((fills_allocateOne hd).trans hlater).trans hf) hd
    obtain ⟨q', hq', ht'⟩ := ih ht₁ h (hf.trans (fills_allocateOne hq₁))
    exact ⟨q', by rw [List.foldlM_cons, hq₁, ok_bind, hq'], ht'⟩

/-! ### Filling again -/

/-- Only new objects are filled. -/
lemma extends_fill (hp : Allotted s f m ds p) (h : fill f p.table store ds = .ok store')
    (r : Ref) (hr : m.store.Has r) : store'.get r = store.get r := by
  refine foldlM_induction (fun pre (st : Store) => (∀ d ∈ pre, d ∈ ds) → st.get r = store.get r)
    (fun _ => rfl) (fun pre d st st' hpre hd hall => ?_) h fun _ hd => hd
  rw [← hpre fun e he => hall e (List.mem_append_left _ he)]
  unfold fillOne at hd
  split_ifs at hd with hcached
  · cases hd
    rfl
  · cases hget : p.table.get d.id with
    | none =>
      rw [hget] at hd
      cases hd
      rfl
    | some q =>
      simp only [hget, bind_eq_ok, pure_eq_ok] at hd
      obtain ⟨b, -, rfl⟩ := hd
      have hmem : d ∈ ds := hall d (by simp)
      have hmiss := hp.miss hmem hcached hget
      have hindex : m.store.objects.size ≤ q.index := by
        rcases hp.origin hmem hget with hhit | ⟨-, hindex, -⟩
        · rw [hmiss] at hhit
          cases hhit
        · exact hindex
      refine Store.get_modify_of_ne _ _ ?_
      rintro rfl
      exact absurd hr (Nat.not_lt.2 hindex)

/-- What could be filled in can be filled in again, where there is an object for it. -/
lemma exists_fill_again (hp : Allotted s f m ds p) (hq : Allotted s f m₁ ds q) (ht : p.Tracks q)
    (h : fill f p.table store ds = .ok store') (store₁ : Store) :
    ∃ store₂, fill f q.table store₁ ds = .ok store₂ := by
  refine exists_foldlM fun pre d post st hds _ => ?_
  have hd : d ∈ ds := by simp [hds]
  unfold fillOne
  split_ifs with hcached
  · exact ⟨_, rfl⟩
  · cases hr : q.table.get d.id with
    | none => exact ⟨_, rfl⟩
    | some r =>
      obtain ⟨r', hr'⟩ : ∃ r', p.table.get d.id = some r' := by
        rw [← Option.ne_none_iff_exists']
        intro hnone
        rw [ht.stands d.id hnone] at hr
        cases hr
      obtain ⟨st₁, st₂, hfill⟩ := exists_of_mem_of_foldlM h hd
      rw [hq.isCached_iff hd, ← hp.isCached_iff hd] at hcached
      rw [fillOne, if_neg hcached, hr'] at hfill
      simp only [bind_eq_ok] at hfill
      obtain ⟨b, hb, -⟩ := hfill
      have hentails : Entails (filledBody f p.table d (st₁.body r'))
          (filledBody f q.table d (st.body r)) := entails_filledBody _ _
      obtain ⟨b', hb'⟩ := hentails ⟨b, hb⟩
      exact ⟨_, by simp only [hb', ok_bind]; rfl⟩

/-! ### Restoring again -/

variable {mode mode' : Mode} {pending pending' : Option Thrown} {o : Outcome}

/-- What some objects of a frame were refused leaves behind: a heap of which more is used, and
objects that are new. -/
structure Leftover (m m' : Memory) : Prop where
  fills : m.heap.Fills m'.heap
  grows : m.store.Grows m'.store
  extends_store : m.store.Extends m'.store

/-- Objects of a frame that were refused are refused once more if they are asked for again. -/
theorem objects_refused_again (h : objects s m pending mode f ds = .ok o) (hf : o.failed = true)
    (hm : o.memory.heap.Fills m₁.heap) :
    ∃ o', objects s m₁ pending' mode' f ds = .ok o' ∧ o'.failed = true := by
  unfold objects at h ⊢
  split_ifs at h ⊢ with hds
  · cases h
    cases hf
  · simp only [allocate, bind_eq_ok, pure_eq_ok] at h
    obtain ⟨p, hp, store, hstore, rfl⟩ := h
    have hstart : Progress.Tracks { memory := m } { memory := m₁ } :=
      ⟨fun _ => Iff.rfl, fun _ h => h, id⟩
    obtain ⟨q, hq, ht⟩ := exists_foldlM_again hstart hp hm
    obtain ⟨store', hstore'⟩ :=
      exists_fill_again (allotted_of_foldlM hp) (allotted_of_foldlM hq) ht hstore q.memory.store
    exact ⟨_, by rw [allocate, hq, ok_bind, hstore', ok_bind]; rfl, ht.failed hf⟩

theorem leftover_of_objects (h : objects s m pending mode f ds = .ok o) :
    Leftover m o.memory := by
  unfold objects at h
  split_ifs at h
  · cases h
    exact ⟨.refl _, .refl _, fun _ _ => rfl⟩
  · simp only [allocate, bind_eq_ok, pure_eq_ok] at h
    obtain ⟨p, hp, store, hstore, rfl⟩ := h
    have hallotted := allotted_of_foldlM hp
    refine ⟨fills_foldlM hp, hallotted.grows.trans (fill_spec hstore), fun r hr => ?_⟩
    rw [extends_fill hallotted hstore r hr]
    exact extends_foldlM hp r hr

end Restore
end Bailout
