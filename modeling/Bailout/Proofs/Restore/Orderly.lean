import Mathlib.Data.List.Nodup
import Bailout.Proofs.Restore.Reads
import Bailout.Proofs.Restore.Restoration

/-!
# Descriptions in order

Restoring the objects of a frame comes to something whatever the heap and the box caches refuse, as
long as the descriptions are in order: the values of boxes can be read, no object is too large for
any memory, and the sources can be filled in. None of that depends on what stands for other objects,
so descriptions from which all objects were restored once are in order for every other heap.
-/

namespace Bailout

lemma Restored.contains_insert (t : Restored) (i : Nat) (o : Option Ref) (j : Nat) :
    (t.insert i o).contains j = true ↔ j = i ∨ t.contains j = true := by
  by_cases h : j = i
  · simp [insert, contains, Table.contains, Table.get?_set, h]
  · simp [insert, contains, Table.contains, Table.get?_set, h]

namespace Restore

variable {s s' : Supply} {f : CompiledFrame} {t t' table : Restored} {d : Description}
  {ds : List Description} {m m' : Memory} {p p' : Progress} {x : Source}

/-! ### Filling with other objects -/

lemma entails_resolve : Entails (f.resolve t x) (f.resolve t' x) := by
  cases x with
  | eliminated id => exact .pure _ _
  | _ => exact .refl _

lemma entails_assignments (fields : List (Field × Nat)) (rest : List Source) :
    Entails (assignments f t d fields rest) (assignments f t' d fields rest) := by
  rintro ⟨ws, hws⟩
  have hall : ∀ x v, f.resolve t x = .ok v → ∃ v', f.resolve t' x = .ok v' :=
    fun _ v hv => entails_resolve ⟨v, hv⟩
  obtain ⟨ws', hws'⟩ := (assignments_eq_ok_iff.1 hws).exists_of_resolve hall
  exact ⟨ws', assignments_eq_ok_iff.2 hws'⟩

/-- Whether an object can be filled in does not depend on what stands for others. -/
theorem entails_filledBody (b b' : Body) :
    Entails (filledBody f t d b) (filledBody f t' d b') := by
  unfold filledBody
  cases d.klass with
  | primitiveArray ty box =>
    have hsame : primitiveElements f t' d ty = primitiveElements f t d ty :=
      primitiveElements_congr bits_resolve
    simp only [hsame]
    exact .refl _
  | referenceArray name box =>
    refine Entails.bind (.mapM fun _ _ => ?_) fun _ _ _ _ => .pure _ _
    exact entails_resolve.bind fun _ _ _ _ => .pure _ _
  | base | derived =>
    refine (entails_assignments _ _).bind fun ws ws' _ _ _ => ?_
    cases b' <;> exact ⟨_, rfl⟩

/-! ### Asking the heap -/

/-- What is handed out is the next object of the store. -/
lemma index_of_newObject {r : Ref} (h : newObject m d = .ok (.ok (r, m'))) :
    r.index = m.store.objects.size := by
  obtain ⟨n, h⟩ := allocate_of_newObject h
  obtain ⟨bytes, body, -, -, hadd⟩ := Memory.allocate_cases h
  rw [← (Prod.mk.inj hadd).1]

/-- What some memory could hand out can be asked of any other. -/
lemma exists_newObject {r : Ref} (h : newObject m d = .ok (.ok (r, m'))) (m₁ : Memory) :
    ∃ y, newObject m₁ d = .ok y := by
  have hallocate : ∀ k n, m.allocate k n = .ok (.ok (r, m')) → ∃ y, m₁.allocate k n = .ok y := by
    intro k n h
    simp only [Memory.allocate, bind_eq_ok] at h
    obtain ⟨bytes, hbytes, h⟩ := h
    rw [Memory.allocate, hbytes, ok_bind]
    cases hr : m₁.heap.reserve? bytes with
    | none => exact ⟨_, rfl⟩
    | some heap₁ =>
      cases hr' : m.heap.reserve? bytes with
      | none =>
        rw [hr'] at h
        cases h
      | some heap =>
        simp only [hr', bind_eq_ok] at h
        obtain ⟨body, hbody, -⟩ := h
        exact ⟨_, by simp only [hbody, ok_bind]; rfl⟩
  unfold newObject at h ⊢
  split_ifs at h ⊢
  · simp only [Memory.allocateInstance, bind_eq_ok] at h
    obtain ⟨u, hu, h⟩ := h
    obtain ⟨y, hy⟩ := hallocate _ _ h
    exact ⟨y, by rw [Memory.allocateInstance, hu, ok_bind, hy]⟩
  · simp only [Memory.allocateArray, bind_eq_ok] at h
    obtain ⟨n, hn, u, hu, h⟩ := h
    obtain ⟨y, hy⟩ := hallocate _ _ h
    exact ⟨y, by rw [hn, ok_bind, Memory.allocateArray, hu, ok_bind, hy]⟩

/-! ### Allocating -/

/-- What allocating one object does: there is an entry for it now, and if an object stands for it,
then that is a shared box or the next one of the store. -/
structure Allots (s : Supply) (f : CompiledFrame) (d : Description) (p p' : Progress) : Prop where
  new : ¬ p.table.contains d.id = true
  grows : p.memory.store.Grows p'.memory.store
  failed : p'.failed = false → p.failed = false
  asked : ∃ b, lookup s f {} d = .ok b ∧
    (b = .miss → p'.failed = false → ∃ m₁ r m₂, newObject m₁ d = .ok (.ok (r, m₂)))
  contains : ∀ id, p'.table.contains id = true ↔ id = d.id ∨ p.table.contains id = true
  kept : ∀ id, id ≠ d.id → p'.table.get id = p.table.get id
  stands : ∀ r, p'.table.get d.id = some r → lookup s f {} d = .ok (.hit r) ∨
    lookup s f {} d = .ok .miss ∧ r.index = p.memory.store.objects.size ∧ p'.memory.store.Has r
  cached : ∀ id, p'.table.isCached id = true ↔
    (id = d.id ∧ ∃ r, lookup s f {} d = .ok (.hit r)) ∨ p.table.isCached id = true

theorem allots_of_allocateOne (h : allocateOne s f p d = .ok p') : Allots s f d p p' := by
  have hgrows := (allocateOne_spec h).1
  simp only [allocateOne, bind_eq_ok, guarantee_eq_ok, Bool.not_eq_true', exists_const,
    lookup_congr s f p.table {}] at h
  obtain ⟨hnew, b, hb, h⟩ := h
  have hget : ∀ (t : Restored) (o : Option Ref) (id : Nat), id ≠ d.id →
      (t.insert d.id o).get id = t.get id := fun t o id hid => by
    rw [Restored.get_insert, if_neg hid]
  have hself : ∀ (t : Restored) (o : Option Ref), (t.insert d.id o).get d.id = o := fun t o => by
    rw [Restored.get_insert, if_pos rfl]
  cases b with
  | hit r =>
    cases h
    refine ⟨by simp [hnew], hgrows, id, ⟨_, hb, by simp⟩, Restored.contains_insert _ _ _, hget _ _,
      ?_, fun id => ?_⟩
    · intro q hq
      rw [hself] at hq
      cases hq
      exact .inl hb
    · simp [Restored.isCached, Restored.insert, Restored.markCached, hb]
  | unavailable =>
    cases h
    refine ⟨by simp [hnew], hgrows, by simp [Progress.refuse], ⟨_, hb, by simp⟩,
      Restored.contains_insert _ _ _, hget _ _, ?_, fun id => ?_⟩
    · intro q hq
      simp [Progress.refuse, hself] at hq
    · simp [Progress.refuse, Restored.isCached, Restored.insert, hb]
  | miss =>
    obtain ⟨y, hy, h⟩ := bind_eq_ok.1 h
    cases y with
    | error e =>
      cases h
      refine ⟨by simp [hnew], hgrows, by simp [Progress.refuse], ⟨_, hb, by simp [Progress.refuse]⟩,
        Restored.contains_insert _ _ _, hget _ _, ?_, fun id => ?_⟩
      · intro q hq
        simp [Progress.refuse, hself] at hq
      · simp [Progress.refuse, Restored.isCached, Restored.insert, hb]
    | ok y =>
      cases h
      refine ⟨by simp [hnew], hgrows, id, ⟨_, hb, fun _ _ => ⟨_, _, _, hy⟩⟩,
        Restored.contains_insert _ _ _, hget _ _, ?_, fun id => ?_⟩
      · intro q hq
        rw [hself] at hq
        cases hq
        exact .inr ⟨hb, index_of_newObject hy, (newObject_spec hy).2.2⟩
      · simp [Restored.isCached, Restored.insert, hb]

/-- What allocating the objects of some descriptions has come to so far, from a memory on. -/
structure Allotted (s : Supply) (f : CompiledFrame) (m : Memory) (ds : List Description)
    (p : Progress) : Prop where
  ids : (ds.map Description.id).Nodup
  grows : m.store.Grows p.memory.store
  asked : ∀ d ∈ ds, ∃ b, lookup s f {} d = .ok b ∧
    (b = .miss → p.failed = false → ∃ m₁ r m₂, newObject m₁ d = .ok (.ok (r, m₂)))
  contains : ∀ id, p.table.contains id = true ↔ ∃ d ∈ ds, d.id = id
  /-- An object that stands for a described one is a shared box or new. -/
  stands : ∀ id r, p.table.get id = some r → ∃ d ∈ ds, d.id = id ∧
    (lookup s f {} d = .ok (.hit r) ∨ lookup s f {} d = .ok .miss ∧
      m.store.objects.size ≤ r.index ∧ p.memory.store.Has r)
  /-- Shared boxes are noted. -/
  cached : ∀ id, p.table.isCached id = true ↔
    ∃ d ∈ ds, d.id = id ∧ ∃ r, lookup s f {} d = .ok (.hit r)
  /-- No new object stands for two. -/
  unique : (∀ ty w q, s.boxes.lookup ty w = .hit q → m.store.Has q) → ∀ i j r,
    m.store.objects.size ≤ r.index → p.table.get i = some r → p.table.get j = some r → i = j

namespace Allotted

lemma start (s : Supply) (f : CompiledFrame) (m : Memory) : Allotted s f m [] { memory := m } where
  ids := .nil
  grows := .refl _
  asked := by simp
  contains := by simp [Restored.contains, Table.contains]
  stands := nofun
  cached := by simp [Restored.isCached]
  unique := nofun

/-- One more object is allocated. -/
lemma snoc (h : Allotted s f m ds p) (hd : Allots s f d p p') :
    Allotted s f m (ds ++ [d]) p' where
  ids := by
    rw [List.map_append, List.nodup_append]
    refine ⟨h.ids, by simp, ?_⟩
    rintro i hi j hj rfl
    obtain rfl : i = d.id := List.mem_singleton.1 hj
    obtain ⟨e, he, hid⟩ := List.mem_map.1 hi
    exact hd.new ((h.contains _).2 ⟨e, he, hid⟩)
  grows := h.grows.trans hd.grows
  asked := by
    intro e he
    rcases List.mem_append.1 he with he | he
    · obtain ⟨b, hb, hnew⟩ := h.asked e he
      exact ⟨b, hb, fun hm hf => hnew hm (hd.failed hf)⟩
    · obtain rfl := List.mem_singleton.1 he
      exact hd.asked
  contains := by
    intro id
    rw [hd.contains, h.contains]
    simp only [List.mem_append, List.mem_singleton, or_and_right, exists_or, exists_eq_left]
    rw [or_comm, eq_comm]
  stands := by
    intro id r hr
    by_cases hid : id = d.id
    · subst hid
      refine ⟨d, by simp, rfl, (hd.stands r hr).imp_right (.imp_right (.imp_left fun hi => ?_))⟩
      exact hi ▸ h.grows.size_le
    · rw [hd.kept id hid] at hr
      obtain ⟨e, he, hid, horigin⟩ := h.stands id r hr
      refine ⟨e, by simp [he], hid, horigin.imp_right (.imp_right (.imp_right fun hhas => ?_))⟩
      exact hhas.mono hd.grows.size_le
  cached := by
    intro id
    rw [hd.cached, h.cached]
    simp only [List.mem_append, List.mem_singleton, or_and_right, exists_or, exists_eq_left]
    rw [or_comm, eq_comm (a := id)]
  unique := by
    intro hboxes
    -- A new object is not among those that stood for others before.
    have hother : ∀ i r, i ≠ d.id → m.store.objects.size ≤ r.index →
        p'.table.get d.id = some r → p'.table.get i ≠ some r := by
      intro i r hi hr hdr hir
      rw [hd.kept i hi] at hir
      obtain ⟨e, -, -, horigin⟩ := h.stands i r hir
      rcases hd.stands r hdr with hhit | ⟨-, hindex, -⟩
      · exact absurd (has_of_lookup hboxes hhit) (Nat.not_lt.2 hr)
      · rcases horigin with hhit | ⟨-, -, hhas⟩
        · exact absurd (has_of_lookup hboxes hhit) (Nat.not_lt.2 hr)
        · exact absurd hhas (by rw [Store.Has, hindex]; exact Nat.lt_irrefl _)
    intro i j r hr hir hjr
    by_cases hi : i = d.id
    · subst hi
      by_contra hij
      exact hother j r (Ne.symm hij) hr hir hjr
    · by_cases hj : j = d.id
      · subst hj
        exact absurd hir (hother i r hi hr hjr)
      · rw [hd.kept i hi] at hir
        rw [hd.kept j hj] at hjr
        exact h.unique hboxes i j r hr hir hjr

end Allotted

theorem allotted_of_foldlM (h : ds.foldlM (allocateOne s f) { memory := m } = .ok p) :
    Allotted s f m ds p :=
  foldlM_induction (Allotted s f m) (.start s f m)
    (fun _ _ _ _ hpre hd => hpre.snoc (allots_of_allocateOne hd)) h

/-! ### Order -/

/-- Nothing but a refusal keeps the object of a description from being restored. Of a shared box
nothing is asked but its value. -/
structure Orderly (s : Supply) (f : CompiledFrame) (d : Description) : Prop where
  value : ∃ b, lookup s f {} d = .ok b
  sized : lookup s f {} d = .ok .miss → ∀ m, ∃ y, newObject m d = .ok y
  filled : lookup s f {} d = .ok .miss → ∀ t b, ∃ b', filledBody f t d b = .ok b'

/-- The descriptions of a frame are in order. -/
structure InOrder (s : Supply) (f : CompiledFrame) (ds : List Description) : Prop where
  ids : (ds.map Description.id).Nodup
  each : ∀ d ∈ ds, Orderly s f d

lemma exists_allocateOne (hd : Orderly s f d) (hnew : ¬ p.table.contains d.id = true) :
    ∃ p', allocateOne s f p d = .ok p' := by
  obtain ⟨b, hb⟩ := hd.value
  have hguarantee : guarantee (!p.table.contains d.id) (.reallocatedTwice d.id) = .ok () := by
    simpa using hnew
  simp only [allocateOne, hguarantee, ok_bind, lookup_congr s f p.table {}, hb]
  cases b with
  | hit r => exact ⟨_, rfl⟩
  | unavailable => exact ⟨_, rfl⟩
  | miss =>
    obtain ⟨y, hy⟩ := hd.sized hb p.memory
    simp only [hy, ok_bind]
    cases y with
    | error e => exact ⟨_, rfl⟩
    | ok y => exact ⟨_, rfl⟩

lemma exists_allocate (h : InOrder s f ds) (m : Memory) : ∃ p, allocate s m f ds = .ok p := by
  refine exists_foldlM fun pre d post p hds hp => ?_
  refine exists_allocateOne (h.each d (by simp [hds])) fun hd => ?_
  obtain ⟨e, he, hid⟩ := ((allotted_of_foldlM hp).contains _).1 hd
  have hids := h.ids
  rw [hds, List.map_append, List.nodup_append] at hids
  exact hids.2.2 d.id (hid ▸ List.mem_map_of_mem he) d.id (by simp) rfl

/-- What stands for a description is a shared box or new. -/
lemma Allotted.origin (h : Allotted s f m ds p) (hd : d ∈ ds) {r : Ref}
    (hr : p.table.get d.id = some r) : lookup s f {} d = .ok (.hit r) ∨
      lookup s f {} d = .ok .miss ∧ m.store.objects.size ≤ r.index ∧ p.memory.store.Has r := by
  obtain ⟨e, he, hid, horigin⟩ := h.stands d.id r hr
  obtain rfl := List.inj_on_of_nodup_map h.ids he hd hid
  exact horigin

/-- A description is noted as a shared box if one was found for it. -/
lemma Allotted.isCached_iff (h : Allotted s f m ds p) (hd : d ∈ ds) :
    p.table.isCached d.id = true ↔ ∃ r, lookup s f {} d = .ok (.hit r) := by
  rw [h.cached]
  constructor
  · rintro ⟨e, he, hid, hhit⟩
    obtain rfl := List.inj_on_of_nodup_map h.ids he hd hid
    exact hhit
  · intro hhit
    exact ⟨d, hd, rfl, hhit⟩

/-- An object that has to be filled in is no shared box. -/
lemma Allotted.miss (h : Allotted s f m ds p) (hd : d ∈ ds)
    (hcached : ¬ p.table.isCached d.id = true) {r : Ref} (hr : p.table.get d.id = some r) :
    lookup s f {} d = .ok .miss := by
  rcases h.origin hd hr with hhit | ⟨hmiss, -⟩
  · exact absurd ((h.isCached_iff hd).2 ⟨r, hhit⟩) hcached
  · exact hmiss

lemma exists_fill (h : InOrder s f ds) (hp : Allotted s f m ds p) (store : Store) :
    ∃ store', fill f p.table store ds = .ok store' := by
  refine exists_foldlM fun pre d post store' hds _ => ?_
  have hd : d ∈ ds := by simp [hds]
  unfold fillOne
  split_ifs with hcached
  · exact ⟨_, rfl⟩
  · cases hr : p.table.get d.id with
    | none => exact ⟨_, rfl⟩
    | some r =>
      obtain ⟨b, hb⟩ := (h.each d hd).filled (hp.miss hd hcached hr) p.table (store'.body r)
      exact ⟨_, by simp only [hb, ok_bind]; rfl⟩

/-! ### Restoring from descriptions in order -/

variable {mode : Mode} {pending : Option Thrown} {o : Outcome}

/-- What restoring the objects of a frame comes to, refused or not. -/
structure Restoring (s : Supply) (m : Memory) (pending : Option Thrown) (mode : Mode)
    (f : CompiledFrame) (ds : List Description) (o : Outcome) : Prop where
  grows : m.store.Grows o.memory.store
  pending : o.pending = pendingAfter mode o.failed pending
  stands : ∀ id r, o.table.get id = some r → ∃ d ∈ ds, d.id = id ∧
    (lookup s f {} d = .ok (.hit r) ∨ lookup s f {} d = .ok .miss ∧
      m.store.objects.size ≤ r.index ∧ o.memory.store.Has r)
  unique : (∀ ty w q, s.boxes.lookup ty w = .hit q → m.store.Has q) → ∀ i j r,
    m.store.objects.size ≤ r.index → o.table.get i = some r → o.table.get j = some r → i = j

theorem restoring_of_objectsIfEnabled (h : objectsIfEnabled s m pending mode f ds = .ok o) :
    Restoring s m pending mode f ds o := by
  unfold objectsIfEnabled objects at h
  split_ifs at h
  · cases h
    exact ⟨.refl _, rfl, nofun, nofun⟩
  · simp only [allocate, bind_eq_ok, pure_eq_ok] at h
    obtain ⟨p, hp, store, hstore, rfl⟩ := h
    have hallotted := allotted_of_foldlM hp
    have hfill := fill_spec hstore
    refine ⟨hallotted.grows.trans hfill, rfl, fun id r hr => ?_, hallotted.unique⟩
    obtain ⟨d, hd, hid, horigin⟩ := hallotted.stands id r hr
    refine ⟨d, hd, hid, horigin.imp_right (.imp_right (.imp_right fun hhas => ?_))⟩
    exact hhas.mono hfill.size_le
  · cases h
    exact ⟨.refl _, rfl, nofun, nofun⟩

/-- Whatever is refused, restoring objects from descriptions in order comes to something. -/
theorem exists_objects (h : InOrder s f ds) (m : Memory) (pending : Option Thrown) (mode : Mode) :
    ∃ o, objects s m pending mode f ds = .ok o := by
  unfold objects
  split_ifs
  · exact ⟨_, rfl⟩
  · obtain ⟨p, hp⟩ := exists_allocate h m
    obtain ⟨store, hstore⟩ := exists_fill h (allotted_of_foldlM hp) p.memory.store
    exact ⟨_, by rw [hp, ok_bind, hstore, ok_bind]; rfl⟩

/-- The same holds if objects are not restored at all. -/
theorem exists_objectsIfEnabled (h : InOrder s f ds) (m : Memory) (pending : Option Thrown)
    (mode : Mode) : ∃ o, objectsIfEnabled s m pending mode f ds = .ok o := by
  unfold objectsIfEnabled
  split_ifs
  · exact exists_objects h m pending mode
  · exact ⟨_, rfl⟩

/-- Descriptions from which all objects were restored once are in order. -/
theorem inOrder_of_objects (hs : s.restoresObjects = true)
    (h : objectsIfEnabled s m pending mode f ds = .ok o) (hf : o.failed = false) :
    InOrder s f ds := by
  rw [objectsIfEnabled, if_pos hs] at h
  unfold objects at h
  split_ifs at h with hds
  · rw [List.isEmpty_iff] at hds
    subst hds
    exact ⟨.nil, by simp⟩
  · simp only [allocate, bind_eq_ok, pure_eq_ok] at h
    obtain ⟨p, hp, store, hstore, rfl⟩ := h
    have hallotted := allotted_of_foldlM hp
    refine ⟨hallotted.ids, fun d hd => ?_⟩
    obtain ⟨b, hb, hnew⟩ := hallotted.asked d hd
    refine ⟨⟨b, hb⟩, fun hmiss => ?_, fun hmiss t b₁ => ?_⟩
    · obtain ⟨m₁, r, m₂, hobject⟩ := hnew (Except.ok.inj (hb.symm.trans hmiss)) hf
      exact exists_newObject hobject
    · obtain ⟨store₁, store₂, hfill⟩ := exists_of_mem_of_foldlM hstore hd
      obtain ⟨r, hr⟩ : ∃ r, p.table.get d.id = some r :=
        Option.isSome_iff_exists.1 ((foldlM_allocateOne_spec hp).2 hf |>.2.1 d hd)
      have hcached : ¬ p.table.isCached d.id = true := by
        rw [hallotted.isCached_iff hd]
        rintro ⟨q, hhit⟩
        rw [hmiss] at hhit
        cases hhit
      rw [fillOne, if_neg hcached, hr] at hfill
      simp only [bind_eq_ok] at hfill
      obtain ⟨b₂, hb₂, -⟩ := hfill
      exact entails_filledBody _ _ ⟨b₂, hb₂⟩

end Restore
end Bailout
