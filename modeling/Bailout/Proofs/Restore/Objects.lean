import Bailout.Proofs.Restore.Relock

/-!
# Restoring eliminated objects

Restoring objects adds to the store and leaves all monitors as they are. If no object is refused,
every described object gets one that stands for it, and the heap hands out one object for each that
does not come from a box cache.
-/

namespace Bailout

/-! ### Monitors of a growing store -/

/-- The store may have grown and its bodies may have changed, but no monitor did. -/
structure Store.Grows (s s' : Store) : Prop where
  size_le : s.objects.size ≤ s'.objects.size
  monitor : ∀ r, s'.monitor r = s.monitor r

/-- The object of a reference is there. -/
def Store.Has (s : Store) (r : Ref) : Prop := r.index < s.objects.size

namespace Store

variable {s s' s'' : Store} {r : Ref}

lemma Has.mono (h : s.Has r) (hle : s.objects.size ≤ s'.objects.size) : s'.Has r :=
  Nat.lt_of_lt_of_le h hle

lemma Grows.refl (s : Store) : s.Grows s := ⟨Nat.le_refl _, fun _ => rfl⟩

lemma Grows.trans (h : s.Grows s') (h' : s'.Grows s'') : s.Grows s'' :=
  ⟨Nat.le_trans h.size_le h'.size_le, fun r => (h'.monitor r).trans (h.monitor r)⟩

/-- Where there is no object the monitor is free. -/
lemma monitor_of_size_le (h : s.objects.size ≤ r.index) : s.monitor r = {} := by
  simp only [monitor, get, Array.getD_eq_getD_getElem?, Array.getElem?_eq_none h]
  rfl

lemma grows_add (s : Store) {o : Object} (ho : o.monitor = {}) : s.Grows (s.add o).2 := by
  refine ⟨by simp [add], fun r => ?_⟩
  rcases Nat.lt_or_ge r.index s.objects.size with h | h
  · rw [monitor, get_add_of_lt _ _ h, monitor]
  · rw [monitor_of_size_le h]
    rcases Nat.eq_or_lt_of_le h with h | h
    · rw [show r = (s.add o).1 from congrArg Ref.mk h.symm, monitor, get_add_self, ho]
    · exact monitor_of_size_le (by simpa [add] using Nat.succ_le_of_lt h)

lemma grows_setBody (s : Store) (q : Ref) (b : Body) : s.Grows (s.setBody q b) := by
  refine ⟨Nat.le_of_eq (size_modify _ _ _).symm, fun r => ?_⟩
  by_cases hr : r = q
  · subst hr
    rcases Nat.lt_or_ge r.index s.objects.size with h | h
    · rw [monitor, setBody, get_modify_self _ _ h, monitor]
    · rw [monitor_of_size_le h, monitor_of_size_le ((size_modify _ _ _).symm ▸ h)]
  · rw [monitor, setBody, get_modify_of_ne _ _ hr, monitor]

end Store

/-! ### Allocation -/

lemma Body.fresh_of_isInstance {k : Klass} (hk : k.isInstance = true) (n : Nat) :
    Body.fresh k n = .ok (.fields (Array.replicate k.slotCount none)) := by
  cases k with
  | base | derived => rfl
  | primitiveArray | referenceArray => cases hk

namespace Memory

variable {m m' : Memory} {k : Klass} {n : Nat} {r : Ref}

lemma allocateInstance_eq (hk : k.isInstance = true) : m.allocateInstance k = m.allocate k 0 := by
  rw [allocateInstance, hk]
  rfl

/-- What was handed out had room on the heap, and is the next object of the store. -/
lemma allocate_cases (h : m.allocate k n = .ok (.ok (r, m'))) :
    ∃ bytes body, m.heap.reserve? bytes = some m'.heap ∧ Body.fresh k n = .ok body ∧
      m.store.add { serial := m'.heap.allocations, klass := k, body } = (r, m'.store) := by
  simp only [allocate, bind_eq_ok] at h
  obtain ⟨bytes, -, h⟩ := h
  cases hr : m.heap.reserve? bytes with
  | none =>
    rw [hr] at h
    cases h
  | some heap =>
    simp only [hr, bind_eq_ok] at h
    obtain ⟨body, hbody, h⟩ := h
    cases h
    exact ⟨bytes, body, hr, hbody, rfl⟩

/-- An object that is handed out is there, and counted once. -/
lemma allocate_spec (h : m.allocate k n = .ok (.ok (r, m'))) :
    m.store.Grows m'.store ∧ m'.heap.allocations = m.heap.allocations + 1 ∧ m'.store.Has r := by
  obtain ⟨bytes, body, hr, -, hadd⟩ := allocate_cases h
  obtain ⟨rfl, hstore⟩ := Prod.mk.inj hadd
  rw [← hstore]
  refine ⟨Store.grows_add _ rfl, ?_, by simp [Store.Has]⟩
  unfold Heap.reserve? at hr
  split_ifs at hr
  rw [← Option.some.inj hr]

end Memory

namespace Restore

variable {s : Supply} {f : CompiledFrame} {p p' : Progress} {d : Description} {m m' : Memory}

lemma allocate_of_newObject {r : Ref} (h : newObject m d = .ok (.ok (r, m'))) :
    ∃ n, m.allocate d.klass n = .ok (.ok (r, m')) := by
  unfold newObject at h
  split_ifs at h with hk
  · rw [Memory.allocateInstance_eq hk] at h
    exact ⟨0, h⟩
  · simp only [Memory.allocateArray, bind_eq_ok] at h
    obtain ⟨n, -, _, -, h⟩ := h
    exact ⟨n, h⟩

lemma newObject_spec {r : Ref} (h : newObject m d = .ok (.ok (r, m'))) :
    m.store.Grows m'.store ∧ m'.heap.allocations = m.heap.allocations + 1 ∧ m'.store.Has r := by
  obtain ⟨n, h⟩ := allocate_of_newObject h
  exact Memory.allocate_spec h

/-- What the box caches say does not depend on the objects that were restored so far: a value in a
box is no reference. -/
lemma lookup_congr (s : Supply) (f : CompiledFrame) (t t' : Restored) (d : Description) :
    lookup s f t d = lookup s f t' d := by
  unfold lookup sharedBox
  split_ifs
  · cases d.klass.box? with
    | none => rfl
    | some ty =>
      cases hx : d.sources[boxedSource ty]? with
      | none => simp only [hx]
      | some x => cases x <;> simp only [hx] <;> rfl
  · rfl

/-- How many objects the heap hands out for a described one: none if a box is shared. -/
def newObjects (s : Supply) (f : CompiledFrame) (d : Description) : Nat :=
  match lookup s f {} d with
  | .ok .miss => 1
  | _ => 0

/-- What it comes to that an object was restored. -/
structure Serves (s : Supply) (f : CompiledFrame) (d : Description) (p p' : Progress) : Prop where
  before : p.failed = false
  self : (p'.table.get d.id).isSome = true
  kept : ∀ id, (p.table.get id).isSome = true → (p'.table.get id).isSome = true
  allocations : p'.memory.heap.allocations = p.memory.heap.allocations + newObjects s f d

/-- Allocating one object either refuses it or serves it. -/
theorem allocateOne_spec (h : allocateOne s f p d = .ok p') :
    p.memory.store.Grows p'.memory.store ∧ (p'.failed = false → Serves s f d p p') := by
  simp only [allocateOne, bind_eq_ok, guarantee_eq_ok, Bool.not_eq_true'] at h
  obtain ⟨_, hnew, b, hb, h⟩ := h
  rw [lookup_congr s f p.table {}] at hb
  have hkept : ∀ (t : Restored) (r : Ref), (∀ id, t.get id = p.table.get id) →
      ∀ id, (p.table.get id).isSome = true → ((t.insert d.id (some r)).get id).isSome = true := by
    intro t r ht id hid
    rw [Restored.get_insert]
    split_ifs
    · rfl
    · rwa [ht]
  cases b with
  | hit r =>
    cases h
    refine ⟨.refl _, fun hf => ⟨hf, ?_, hkept _ r fun _ => rfl, ?_⟩⟩
    · simp [Restored.get_insert]
    · simp [newObjects, hb]
  | unavailable =>
    cases h
    exact ⟨.refl _, fun hf => by cases hf⟩
  | miss =>
    simp only [bind_eq_ok] at h
    obtain ⟨o, ho, h⟩ := h
    cases o with
    | error e =>
      cases h
      exact ⟨.refl _, fun hf => by cases hf⟩
    | ok x =>
      cases h
      obtain ⟨hgrows, hcount, -⟩ := newObject_spec ho
      refine ⟨hgrows, fun hf => ⟨hf, ?_, hkept _ _ fun _ => rfl, ?_⟩⟩
      · simp [Restored.get_insert]
      · simp [newObjects, hb, hcount]

/-- Allocating objects one after the other, none of which is refused. -/
lemma foldlM_allocateOne_spec {ds : List Description}
    (h : ds.foldlM (allocateOne s f) p = .ok p') :
    p.memory.store.Grows p'.memory.store ∧ (p'.failed = false → p.failed = false ∧
      (∀ d ∈ ds, (p'.table.get d.id).isSome = true) ∧
      (∀ id, (p.table.get id).isSome = true → (p'.table.get id).isSome = true) ∧
      p'.memory.heap.allocations =
        p.memory.heap.allocations + (ds.map (newObjects s f)).sum) := by
  induction ds generalizing p with
  | nil =>
    cases h
    exact ⟨.refl _, fun hf => ⟨hf, by simp, fun _ h => h, rfl⟩⟩
  | cons d ds ih =>
    rw [List.foldlM_cons, bind_eq_ok] at h
    obtain ⟨p₁, hd, h⟩ := h
    obtain ⟨hgrows, hserves⟩ := allocateOne_spec hd
    obtain ⟨hgrows', hrest⟩ := ih h
    refine ⟨hgrows.trans hgrows', fun hf => ?_⟩
    obtain ⟨hf₁, hall, hkept, hcount⟩ := hrest hf
    have hserved := hserves hf₁
    refine ⟨hserved.before, ?_, fun id hid => hkept id (hserved.kept id hid), ?_⟩
    · intro e he
      rcases List.mem_cons.1 he with rfl | he
      · exact hkept _ hserved.self
      · exact hall e he
    · rw [hcount, hserved.allocations, List.map_cons, List.sum_cons, Nat.add_assoc]

/-! ### Filling -/

lemma fill_spec {t : Restored} {ds : List Description} {store store' : Store}
    (h : fill f t store ds = .ok store') : store.Grows store' := by
  unfold fill at h
  induction ds generalizing store with
  | nil =>
    cases h
    exact .refl _
  | cons d ds ih =>
    rw [List.foldlM_cons, bind_eq_ok] at h
    obtain ⟨store₁, hd, h⟩ := h
    refine Store.Grows.trans ?_ (ih h)
    unfold fillOne at hd
    split_ifs at hd
    · cases hd
      exact .refl _
    · cases hr : t.get d.id with
      | none =>
        rw [hr] at hd
        cases hd
        exact .refl _
      | some r =>
        simp only [hr, bind_eq_ok] at hd
        obtain ⟨b, -, hd⟩ := hd
        cases hd
        exact Store.grows_setBody _ _ _

/-! ### Restoring a frame's objects -/

/-- What restoring the objects of a frame comes to if none is refused. -/
structure Complete (s : Supply) (m : Memory) (pending : Option Thrown) (f : CompiledFrame)
    (ds : List Description) (o : Outcome) : Prop where
  grows : m.store.Grows o.memory.store
  there : ∀ d ∈ ds, (o.table.get d.id).isSome = true
  allocations : o.memory.heap.allocations =
    m.heap.allocations + (ds.map (newObjects s f)).sum
  pending : o.pending = pending

theorem objects_spec {pending : Option Thrown} {mode : Mode} {ds : List Description} {o : Outcome}
    (h : objects s m pending mode f ds = .ok o) (hf : o.failed = false) :
    Complete s m pending f ds o := by
  unfold objects at h
  split_ifs at h with hds
  · rw [List.isEmpty_iff] at hds
    subst hds
    cases h
    exact ⟨.refl _, by simp, rfl, rfl⟩
  · simp only [allocate, bind_eq_ok, pure_eq_ok] at h
    obtain ⟨p, hp, store, hstore, rfl⟩ := h
    obtain ⟨hgrows, hall⟩ := foldlM_allocateOne_spec hp
    obtain ⟨-, hthere, -, hcount⟩ := hall hf
    refine ⟨hgrows.trans (fill_spec hstore), hthere, hcount, ?_⟩
    rw [pendingAfter, if_neg (by simpa using hf)]

theorem objectsIfEnabled_spec {pending : Option Thrown} {mode : Mode} {ds : List Description}
    {o : Outcome} (hs : s.restoresObjects = true)
    (h : objectsIfEnabled s m pending mode f ds = .ok o) (hf : o.failed = false) :
    Complete s m pending f ds o := by
  rw [objectsIfEnabled, if_pos hs] at h
  exact objects_spec h hf

end Restore
end Bailout
