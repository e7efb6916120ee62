import Bailout.Proofs.Restore.Objects

/-!
# One restoration

What it comes to that the objects and monitors of a frame are restored once: the heap hands out each
eliminated object that is no shared box, and every eliminated monitor is entered once more. All of
that is counted, so that restorations that follow each other add up.
-/

namespace Bailout

/-! ### Owners of eliminated monitors -/

namespace CompiledFrame

variable {f : CompiledFrame} {t : Restored} {h : HeldMonitor} {r : DebugRecord} {q : Ref}

/-- The object whose monitor is entered for one that is held. -/
def entered? (f : CompiledFrame) (t : Restored) (h : HeldMonitor) : Option Ref :=
  if h.eliminated then (f.resolve t h.owner).toOption.bind Word.object? else none

/-- The objects whose monitors are entered, one for each eliminated monitor with an owner. -/
def owners (f : CompiledFrame) (t : Restored) (r : DebugRecord) : List Ref :=
  (r.scopes.reverse.flatMap Scope.monitors).filterMap (f.entered? t)

lemma entered?_of_guard {g : Guard} (hg : f.guard t h = .ok g) : g.entered? = f.entered? t h := by
  unfold guard at hg
  split at hg
  next id hid =>
    cases hg
    simp [Guard.entered?, entered?, hid, resolve, Except.toOption, Word.object?, pure, Except.pure]
  next =>
    obtain ⟨w, hw, hg⟩ := bind_eq_ok.1 hg
    cases hg
    simp [Guard.entered?, entered?, hw, Except.toOption]

lemma filterMap_entered?_of_guards {s : Scope} {gs : List Guard} (hgs : f.guards t s = .ok gs) :
    gs.filterMap Guard.entered? = s.monitors.filterMap (f.entered? t) := by
  replace hgs := mapM_eq_ok.1 hgs
  generalize s.monitors = hs at hgs ⊢
  induction hgs with
  | nil => rfl
  | cons hg _ ih => rw [List.filterMap_cons, List.filterMap_cons, entered?_of_guard hg, ih]

lemma owners_of_eliminatedOwners {rs : List Ref}
    (hrs : f.eliminatedOwners t r.scopes.reverse = .ok rs) : rs = f.owners t r := by
  simp only [eliminatedOwners, bind_eq_ok, pure_eq_ok] at hrs
  obtain ⟨gss, hgss, rfl⟩ := hrs
  replace hgss := mapM_eq_ok.1 hgss
  rw [owners]
  generalize r.scopes.reverse = ss at hgss ⊢
  induction hgss with
  | nil => rfl
  | cons hgs _ ih =>
    rw [List.flatten_cons, List.filterMap_append, List.flatMap_cons, List.filterMap_append, ih,
      filterMap_entered?_of_guards hgs]

/-- An owner is an eliminated object that was restored, or one that the frame names itself. -/
lemma mem_owners (hq : q ∈ f.owners t r) : q ∈ f.owners {} r ∨ ∃ id, t.get id = some q := by
  obtain ⟨h, hh, hq⟩ := List.mem_filterMap.1 hq
  unfold entered? at hq
  split_ifs at hq with he
  cases ho : h.owner with
  | eliminated id =>
    right
    simp only [ho, resolve] at hq
    exact ⟨id, hq⟩
  | _ =>
    left
    refine List.mem_filterMap.2 ⟨h, hh, ?_⟩
    simp only [ho] at hq
    simp only [entered?, he, ho]
    exact hq

/-- Every eliminated object that owns an eliminated monitor was restored. -/
def Covers (t : Restored) (r : DebugRecord) : Prop :=
  ∀ s ∈ r.scopes, ∀ h ∈ s.monitors, h.eliminated = true → ∀ id, h.owner = .eliminated id →
    (t.get id).isSome = true

/-- No more monitors are entered than when all owners were restored. -/
lemma length_owners_le {u : Restored} (hu : Covers u r) :
    (f.owners t r).length ≤ (f.owners u r).length := by
  rw [owners, owners, List.length_filterMap_eq_countP, List.length_filterMap_eq_countP]
  refine List.countP_mono_left fun h hh hsome => ?_
  obtain ⟨s, hs, hh⟩ := List.mem_flatMap.1 hh
  unfold entered? at hsome ⊢
  split_ifs at hsome with he
  · rw [if_pos he]
    cases ho : h.owner with
    | eliminated id => exact hu s (List.mem_reverse.1 hs) h hh he id ho
    | _ =>
      rw [ho] at hsome
      exact hsome
  · cases hsome

end CompiledFrame

/-! ### Objects that are there -/

namespace Restore

variable {s : Supply} {f : CompiledFrame} {r : DebugRecord} {table : Restored} {m m' : Memory}
  {p p' : Progress} {d : Description} {mode : Mode} {pending : Option Thrown} {o : Outcome}
  {t u : Thread} {store : Store}

/-- The shared boxes are there, and so are the owners of eliminated monitors, as far as they were
not eliminated themselves. -/
structure Known (s : Supply) (f : CompiledFrame) (r : DebugRecord) (store : Store) : Prop where
  boxes : ∀ ty w q, s.boxes.lookup ty w = .hit q → store.Has q
  owners : ∀ q ∈ f.owners {} r, store.Has q

lemma Known.mono (h : Known s f r store) {store' : Store}
    (hle : store.objects.size ≤ store'.objects.size) : Known s f r store' :=
  ⟨fun ty w q hq => (h.boxes ty w q hq).mono hle, fun q hq => (h.owners q hq).mono hle⟩

/-- An object is the shared box of the value that is described. -/
def IsBoxOf (s : Supply) (f : CompiledFrame) (t : Restored) (d : Description) (q : Ref) : Prop :=
  ∃ ty x w, d.klass.box? = some ty ∧ d.sources[boxedSource ty]? = some x ∧
    f.resolve t x = .ok w ∧ s.boxes.lookup ty w.bits = .hit q

lemma isBoxOf_of_lookup {q : Ref} (h : lookup s f table d = .ok (.hit q)) :
    IsBoxOf s f table d q := by
  unfold lookup sharedBox at h
  split_ifs at h
  · cases hb : d.klass.box? with
    | none =>
      rw [hb] at h
      cases h
    | some ty =>
      simp only [hb] at h
      cases hx : d.sources[boxedSource ty]? with
      | none =>
        rw [hx] at h
        cases h
      | some x =>
        simp only [hx, bind_eq_ok, pure_eq_ok] at h
        obtain ⟨w, hw, hbox⟩ := h
        exact ⟨ty, x, w, hb, hx, hw, hbox⟩
  · cases h

/-- A shared box is there if all of them are. -/
lemma has_of_lookup (hboxes : ∀ ty w q, s.boxes.lookup ty w = .hit q → store.Has q) {q : Ref}
    (h : lookup s f table d = .ok (.hit q)) : store.Has q := by
  obtain ⟨ty, x, w, -, -, -, hbox⟩ := isBoxOf_of_lookup h
  exact hboxes ty w.bits q hbox

/-- Whatever stands for an eliminated object is there. -/
def Sound (m : Memory) (table : Restored) : Prop :=
  ∀ id q, table.get id = some q → m.store.Has q

lemma Sound.insert {t t' : Restored} (ht : Sound m t) (htable : ∀ id, t'.get id = t.get id)
    (hle : m.store.objects.size ≤ m'.store.objects.size) {id : Nat} {q : Option Ref}
    (hq : ∀ r, q = some r → m'.store.Has r) : Sound m' (t'.insert id q) := by
  intro id r hr
  rw [Restored.get_insert] at hr
  split_ifs at hr
  · exact hq r hr
  · rw [htable] at hr
    exact (ht id r hr).mono hle

lemma sound_allocateOne (hb : ∀ ty w q, s.boxes.lookup ty w = .hit q → p.memory.store.Has q)
    (hp : Sound p.memory p.table) (h : allocateOne s f p d = .ok p') :
    Sound p'.memory p'.table := by
  simp only [allocateOne, bind_eq_ok] at h
  obtain ⟨_, -, b, hlookup, h⟩ := h
  cases b with
  | hit q =>
    cases h
    have hhas := has_of_lookup hb hlookup
    exact hp.insert (fun _ => rfl) (Nat.le_refl _) (by rintro r ⟨⟩; exact hhas)
  | unavailable =>
    cases h
    exact hp.insert (fun _ => rfl) (Nat.le_refl _) (by rintro r ⟨⟩)
  | miss =>
    simp only [bind_eq_ok] at h
    obtain ⟨x, hx, h⟩ := h
    cases x with
    | error e =>
      cases h
      exact hp.insert (fun _ => rfl) (Nat.le_refl _) (by rintro r ⟨⟩)
    | ok x =>
      cases h
      obtain ⟨hgrows, -, hhas⟩ := newObject_spec hx
      exact hp.insert (fun _ => rfl) hgrows.size_le (by rintro r ⟨⟩; exact hhas)

lemma sound_foldlM_allocateOne {ds : List Description}
    (hb : ∀ ty w q, s.boxes.lookup ty w = .hit q → p.memory.store.Has q)
    (hp : Sound p.memory p.table) (h : ds.foldlM (allocateOne s f) p = .ok p') :
    Sound p'.memory p'.table := by
  induction ds generalizing p with
  | nil =>
    cases h
    exact hp
  | cons d ds ih =>
    rw [List.foldlM_cons, bind_eq_ok] at h
    obtain ⟨p₁, hd, h⟩ := h
    have hle := (allocateOne_spec hd).1.size_le
    exact ih (fun ty w q hq => (hb ty w q hq).mono hle) (sound_allocateOne hb hp hd) h

/-- Whatever stands for an eliminated object once objects were restored is there. -/
theorem sound_of_objectsIfEnabled {ds : List Description} (hs : s.restoresObjects = true)
    (hb : ∀ ty w q, s.boxes.lookup ty w = .hit q → m.store.Has q)
    (h : objectsIfEnabled s m pending mode f ds = .ok o) : Sound o.memory o.table := by
  rw [objectsIfEnabled, if_pos hs] at h
  unfold objects at h
  split_ifs at h
  · cases h
    rintro id q ⟨⟩
  · simp only [allocate, bind_eq_ok, pure_eq_ok] at h
    obtain ⟨p, hp, store, hstore, rfl⟩ := h
    intro id q hq
    have hhas := sound_foldlM_allocateOne hb (by rintro id q ⟨⟩) hp id q hq
    exact hhas.mono (fill_spec hstore).size_le

/-! ### Restoring once -/

/-- The objects of a frame are restored once, and its monitors entered once by a thread. -/
structure Restores (s : Supply) (t : Nat) (f : CompiledFrame) (r : DebugRecord) (table : Restored)
    (m m' : Memory) : Prop where
  size_le : m.store.objects.size ≤ m'.store.objects.size
  covers : CompiledFrame.Covers table r
  allocations : m'.heap.allocations =
    m.heap.allocations + (r.objects.map (newObjects s f)).sum
  holdCount : ∀ q, (m'.store.monitor q).holdCount t =
    (m.store.monitor q).holdCount t + (f.owners table r).count q

lemma has_of_mem_owners (hk : Known s f r store) (hsound : Sound m table)
    (hle : store.objects.size ≤ m.store.objects.size) {q : Ref} (hq : q ∈ f.owners table r) :
    m.store.Has q := by
  rcases CompiledFrame.mem_owners hq with hq | ⟨id, hid⟩
  · exact (hk.owners q hq).mono hle
  · exact hsound id q hid

/-- Monitors are relocked only if all of their owners were restored. -/
lemma covers_of_relockAll {st : Store × Thread} {x : Bool × Store × Thread}
    (h : relockAll f table mode false st r.scopes.reverse = .ok x) :
    CompiledFrame.Covers table r := by
  obtain ⟨gss, hgss, hall⟩ := exists_guards_of_relockAll h
  intro s hs e he heliminated id hid
  obtain ⟨gs, hgs, hguards⟩ := exists_mem_of_forall₂ hgss.flip (List.mem_reverse.2 hs)
  obtain ⟨g, hg, hguard⟩ := exists_mem_of_forall₂ (mapM_eq_ok.1 hguards).flip he
  simp only [CompiledFrame.guard, hid, pure_eq_ok] at hguard
  subst hguard
  by_contra hnone
  exact absurd (hall _ (List.mem_flatten.2 ⟨gs, hgs, hg⟩) heliminated (by simpa using hnone))
    Bool.false_ne_true

/-- What is not there has a monitor that is free before and after. -/
lemma Enters.holdCount_of_has {id : Nat} {rs : List Ref} {s s' : Store}
    (h : Enters id rs s s') (hrs : ∀ r ∈ rs, s.Has r) (r : Ref) :
    (s'.monitor r).holdCount id = (s.monitor r).holdCount id + rs.count r := by
  by_cases hr : s.Has r
  · exact h.holdCount r hr
  · have hsize : s.objects.size ≤ r.index := Nat.le_of_not_lt hr
    rw [Store.monitor_of_size_le (h.size ▸ hsize), Store.monitor_of_size_le hsize,
      List.count_eq_zero_of_not_mem fun hmem => hr (hrs r hmem), Nat.add_zero]

/-- Objects that are restored, none of them refused, and monitors that are entered after that come
to one restoration. -/
theorem restores_of_relockAll {b : Bool} (hs : s.restoresObjects = true)
    (hk : Known s f r m.store) (hmode : mode ≠ .inspect ∨ t.waitingOn = none)
    (ho : objectsIfEnabled s m pending mode f r.objects = .ok o) (hf : o.failed = false)
    (h : relockAll f o.table mode o.failed (o.memory.store, t) r.scopes.reverse =
      .ok (b, store, u)) :
    u = t ∧ Restores s t.id f r o.table m { o.memory with store } := by
  have hcomplete := objectsIfEnabled_spec hs ho hf
  have hle := hcomplete.grows.size_le
  obtain ⟨hu, rs, hrs, henters⟩ := relockAll_spec hmode h
  obtain rfl := CompiledFrame.owners_of_eliminatedOwners hrs
  rw [hf] at h
  refine ⟨hu, henters.size ▸ hle, covers_of_relockAll h, hcomplete.allocations, fun q => ?_⟩
  rw [← hcomplete.grows.monitor q]
  exact henters.holdCount_of_has (fun _ => has_of_mem_owners hk
    (sound_of_objectsIfEnabled hs hk.boxes ho) hle) q

/-- What was restored for an inspector, unless an object was refused, comes to one restoration. -/
theorem restores_of_inspect (hs : s.restoresObjects = true) (hl : s.config.eliminateLocks = true)
    (hk : Known s f r m.store) (hwait : t.waitingOn = none)
    (h : inspect s m t pending f r.scopes r.objects = .ok (o, u)) (hf : o.failed = false) :
    u = t ∧ Restores s t.id f r o.table m o.memory := by
  simp only [inspect, bind_eq_ok] at h
  obtain ⟨o₁, ho, h⟩ := h
  split_ifs at h with hc
  · simp only [bind_eq_ok] at h
    obtain ⟨⟨b, store, v⟩, hrelock, h⟩ := h
    cases h
    exact restores_of_relockAll (o := o₁) hs hk (.inr hwait) ho hf hrelock
  · cases h
    simp [hl, hf] at hc

end Restore
end Bailout
