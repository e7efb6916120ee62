import Bailout.Proofs.Restore.Fields
import Bailout.Proofs.Restore.Orderly

/-!
# The graph of restored objects

The objects that stand for eliminated ones refer to each other as the descriptions do. All of them
are allocated before any is filled in, so that a description may name another that comes later, or
itself: whatever it names, the object is there, and it is the same one that the values of the
activations are.
-/

namespace Bailout

namespace Restore

variable {s : Supply} {f : CompiledFrame} {t : Restored} {d : Description}
  {ds : List Description} {m m' : Memory} {p p' : Progress} {x : Source} {q : Ref}

/-! ### New objects -/

/-- A new object for a description, before it is filled in. -/
structure Blank (d : Description) (o : Object) : Prop where
  klass : o.klass = d.klass
  slots : d.klass.isInstance = true → o.body = .fields (Array.replicate d.klass.slotCount none)

/-- The heap puts a blank object into the store, and does nothing else to it. -/
lemma blank_of_newObject (h : newObject m d = .ok (.ok (q, m'))) :
    ∃ o, Blank d o ∧ m.store.add o = (q, m'.store) := by
  obtain ⟨n, h⟩ := allocate_of_newObject h
  obtain ⟨bytes, body, -, hbody, hadd⟩ := Memory.allocate_cases h
  refine ⟨_, ⟨rfl, fun hk => ?_⟩, hadd⟩
  exact (Except.ok.inj ((Body.fresh_of_isInstance hk n).symm.trans hbody)).symm

/-- Allocating one object leaves the store as it is, or adds the blank object that stands for the
description. -/
lemma store_of_allocateOne (h : allocateOne s f p d = .ok p') :
    (p'.memory.store = p.memory.store ∧
      ∀ q, p'.table.get d.id = some q → lookup s f {} d = .ok (.hit q)) ∨
    ∃ o, Blank d o ∧ p'.memory.store = (p.memory.store.add o).2 ∧
      p'.table.get d.id = some (p.memory.store.add o).1 := by
  simp only [allocateOne, bind_eq_ok, guarantee_eq_ok, exists_const,
    lookup_congr s f p.table {}] at h
  obtain ⟨-, b, hb, h⟩ := h
  cases b with
  | hit r =>
    cases h
    refine .inl ⟨rfl, fun q hq => ?_⟩
    simp only [Restored.get_insert, if_true] at hq
    rw [hb, Option.some.inj hq]
  | unavailable =>
    cases h
    refine .inl ⟨rfl, fun q hq => ?_⟩
    simp [Progress.refuse, Restored.get_insert] at hq
  | miss =>
    obtain ⟨y, hy, h⟩ := bind_eq_ok.1 h
    cases y with
    | error e =>
      cases h
      refine .inl ⟨rfl, fun q hq => ?_⟩
      simp [Progress.refuse, Restored.get_insert] at hq
    | ok y =>
      cases h
      obtain ⟨o, ho, hadd⟩ := blank_of_newObject hy
      refine .inr ⟨o, ho, by rw [hadd], ?_⟩
      rw [Restored.get_insert, if_pos rfl, hadd]

/-- What the store is like when objects were allocated for some descriptions: what was there is
untouched, and the new objects are blank and stand for the descriptions that no shared box stands
for. -/
structure Stocked (s : Supply) (f : CompiledFrame) (m : Memory) (ds : List Description)
    (p : Progress) : Prop where
  kept : ∀ q, m.store.Has q → p.memory.store.get q = m.store.get q
  blank : ∀ d ∈ ds, lookup s f {} d = .ok .miss → ∀ q, p.table.get d.id = some q →
    Blank d (p.memory.store.get q)
  onto : ∀ q, m.store.objects.size ≤ q.index → p.memory.store.Has q →
    ∃ d ∈ ds, p.table.get d.id = some q

namespace Stocked

lemma start (s : Supply) (f : CompiledFrame) (m : Memory) : Stocked s f m [] { memory := m } where
  kept := fun _ _ => rfl
  blank := by simp
  onto := fun q hle hlt => absurd hlt (Nat.not_lt.2 hle)

/-- A description gets no new object. -/
lemma stay (h : Stocked s f m ds p) (hget : ∀ e ∈ ds, p'.table.get e.id = p.table.get e.id)
    (hstore : p'.memory.store = p.memory.store)
    (hhit : ∀ q, p'.table.get d.id = some q → lookup s f {} d = .ok (.hit q)) :
    Stocked s f m (ds ++ [d]) p' where
  kept := by
    intro q hq
    rw [hstore, h.kept q hq]
  blank := by
    intro e he hmiss q hq
    rcases List.mem_append.1 he with he | he
    · rw [hstore]
      exact h.blank e he hmiss q (hget e he ▸ hq)
    · obtain rfl := List.mem_singleton.1 he
      rw [hhit q hq] at hmiss
      cases hmiss
  onto := by
    intro q hle hhas
    rw [hstore] at hhas
    obtain ⟨e, he, hq⟩ := h.onto q hle hhas
    exact ⟨e, List.mem_append_left _ he, (hget e he).trans hq⟩

/-- A description gets a new object. -/
lemma add (h : Stocked s f m ds p) (hp : Allotted s f m ds p)
    (hget : ∀ e ∈ ds, p'.table.get e.id = p.table.get e.id) {o : Object} (ho : Blank d o)
    (hstore : p'.memory.store = (p.memory.store.add o).2)
    (hself : p'.table.get d.id = some (p.memory.store.add o).1) :
    Stocked s f m (ds ++ [d]) p' where
  kept := by
    intro q hq
    rw [hstore, Store.get_add_of_lt _ _ (hq.mono hp.grows.size_le), h.kept q hq]
  blank := by
    intro e he hmiss q hq
    rcases List.mem_append.1 he with he | he
    · rw [hget e he] at hq
      obtain ⟨-, -, hhas⟩ := (hp.origin he hq).resolve_left (by simp [hmiss])
      rw [hstore, Store.get_add_of_lt _ _ hhas]
      exact h.blank e he hmiss q hq
    · obtain rfl := List.mem_singleton.1 he
      rw [hself] at hq
      cases hq
      rw [hstore, Store.get_add_self]
      exact ho
  onto := by
    intro q hle hhas
    by_cases hq : p.memory.store.Has q
    · obtain ⟨e, he, hq⟩ := h.onto q hle hq
      exact ⟨e, List.mem_append_left _ he, (hget e he).trans hq⟩
    · have hindex : p.memory.store.objects.size = q.index := by
        rw [hstore, Store.Has, Store.add, Array.size_push] at hhas
        exact Nat.le_antisymm (Nat.not_lt.1 hq) (Nat.lt_succ_iff.1 hhas)
      exact ⟨d, by simp, hself.trans (congrArg some (congrArg Ref.mk hindex))⟩

/-- One more description is gone through. -/
lemma snoc (h : Stocked s f m ds p) (hp : Allotted s f m ds p) (hd : allocateOne s f p d = .ok p') :
    Stocked s f m (ds ++ [d]) p' := by
  have hallots := allots_of_allocateOne hd
  have hget : ∀ e ∈ ds, p'.table.get e.id = p.table.get e.id := by
    intro e he
    apply hallots.kept
    intro hid
    exact hallots.new ((hp.contains _).2 ⟨e, he, hid⟩)
  rcases store_of_allocateOne hd with ⟨hstore, hhit⟩ | ⟨o, ho, hstore, hself⟩
  · exact h.stay hget hstore hhit
  · exact h.add hp hget ho hstore hself

end Stocked

theorem stocked_of_foldlM (h : ds.foldlM (allocateOne s f) { memory := m } = .ok p) :
    Stocked s f m ds p := by
  refine (foldlM_induction (fun pre p => Allotted s f m pre p ∧ Stocked s f m pre p)
    ⟨.start s f m, .start s f m⟩ ?_ h).2
  rintro pre d p p' ⟨hp, hstocked⟩ hd
  exact ⟨hp.snoc (allots_of_allocateOne hd), hstocked.snoc hp hd⟩

/-! ### Filling -/

/-- The objects that stand for some descriptions were filled in, and nothing else was done to the
store. -/
structure Fills (f : CompiledFrame) (t : Restored) (store : Store) (ds : List Description)
    (store' : Store) : Prop where
  size : store'.objects.size = store.objects.size
  untouched : ∀ q, (∀ d ∈ ds, t.isCached d.id = false → t.get d.id ≠ some q) →
    store'.get q = store.get q
  filled : ∀ d ∈ ds, t.isCached d.id = false → ∀ q, t.get d.id = some q → store.Has q →
    ∃ b, filledBody f t d (store.body q) = .ok b ∧ store'.get q = { store.get q with body := b }

/-- No object that is to be filled in stands for two descriptions. -/
def Distinct (t : Restored) : Prop :=
  ∀ i j q, t.isCached i = false → t.isCached j = false → t.get i = some q → t.get j = some q → i = j

variable {store store₁ store' : Store}

namespace Fills

lemma start (f : CompiledFrame) (t : Restored) (store : Store) : Fills f t store [] store where
  size := rfl
  untouched := fun _ _ => rfl
  filled := by simp

/-- A shared box keeps what it has, and an object that was refused is not there. -/
lemma skip (h : Fills f t store ds store') (hd : t.isCached d.id = true ∨ t.get d.id = none) :
    Fills f t store (ds ++ [d]) store' where
  size := h.size
  untouched := fun q hq => h.untouched q fun e he => hq e (List.mem_append_left _ he)
  filled := by
    intro e he hcached q hq hhas
    rcases List.mem_append.1 he with he | he
    · exact h.filled e he hcached q hq hhas
    · obtain rfl := List.mem_singleton.1 he
      rcases hd with hd | hd
      · rw [hcached] at hd
        cases hd
      · rw [hq] at hd
        cases hd

/-- One more object is filled in. -/
lemma setBody (h : Fills f t store ds store₁) (ht : Distinct t)
    (hnew : d.id ∉ ds.map Description.id) (hcached : t.isCached d.id = false)
    (hq : t.get d.id = some q) {b : Body} (hb : filledBody f t d (store₁.body q) = .ok b) :
    Fills f t store (ds ++ [d]) (store₁.setBody q b) := by
  -- None of the objects that were filled in before is this one.
  have hother : ∀ e ∈ ds, t.isCached e.id = false → t.get e.id ≠ some q := by
    intro e he hecached heq
    exact hnew (ht _ _ q hcached hecached hq heq ▸ List.mem_map_of_mem he)
  have hget := h.untouched q hother
  refine ⟨(Store.size_modify _ _ _).trans h.size, fun r hr => ?_, fun e he hecached r hr hhas => ?_⟩
  · have hne : r ≠ q := fun hrq => hr d (by simp) hcached (hrq ▸ hq)
    rw [Store.setBody, Store.get_modify_of_ne _ _ hne]
    exact h.untouched r fun e he => hr e (List.mem_append_left _ he)
  · rcases List.mem_append.1 he with he | he
    · have hne : r ≠ q := fun hrq => hother e he hecached (hrq ▸ hr)
      rw [Store.setBody, Store.get_modify_of_ne _ _ hne]
      exact h.filled e he hecached r hr hhas
    · obtain rfl := List.mem_singleton.1 he
      obtain rfl : q = r := Option.some.inj (hq.symm.trans hr)
      rw [Store.body, hget] at hb
      refine ⟨b, hb, ?_⟩
      rw [Store.setBody, Store.get_modify_self _ _ (hhas.mono h.size.ge), hget]

/-- One more description is gone through. -/
lemma snoc (h : Fills f t store ds store₁) (ht : Distinct t)
    (hnew : d.id ∉ ds.map Description.id) (hd : fillOne f t store₁ d = .ok store') :
    Fills f t store (ds ++ [d]) store' := by
  unfold fillOne at hd
  split_ifs at hd with hcached
  · cases hd
    exact h.skip (.inl hcached)
  · cases hr : t.get d.id with
    | none =>
      rw [hr] at hd
      cases hd
      exact h.skip (.inr hr)
    | some r =>
      simp only [hr, bind_eq_ok, pure_eq_ok] at hd
      obtain ⟨b, hb, rfl⟩ := hd
      exact h.setBody ht hnew (by simpa using hcached) hr hb

end Fills

theorem fills_of_fill (ht : Distinct t) (hids : (ds.map Description.id).Nodup)
    (h : fill f t store ds = .ok store') : Fills f t store ds store' := by
  refine foldlM_induction (fun pre st => (pre.map Description.id).Nodup → Fills f t store pre st)
    (fun _ => .start f t store) ?_ h hids
  intro pre d st st' hpre hd hnodup
  rw [List.map_append, List.nodup_append] at hnodup
  refine (hpre hnodup.1).snoc ht (fun hmem => ?_) hd
  exact hnodup.2.2 d.id hmem d.id (by simp) rfl

/-! ### Pictures -/

/-- An object is as a description says: it has the class, and each of its references that compiled
code knows has a source and refers to what that gives. -/
structure Depicts (f : CompiledFrame) (t : Restored) (d : Description) (o : Object) : Prop where
  klass : o.klass = d.klass
  elements : ∀ name box, d.klass = .referenceArray name box →
    o.body.length? = some d.sources.length
  listed : d.klass.isInstance = true → ∀ field slot,
    (field, slot) ∈ visibleFields d.klass f.region.seesInjected → field.type.isReference = true →
    ∃ x, Refers f d slot x
  refers : ∀ i x, Refers f d i x → ∃ v, f.resolve t x = .ok v ∧ o.body.target? i = v.object?

/-- A blank object that is filled in is as its description says. -/
lemma Blank.depicts {o : Object} {b : Body} (ho : Blank d o)
    (hb : filledBody f t d o.body = .ok b) : Depicts f t d { o with body := b } where
  klass := ho.klass
  elements := fun name box hk => (target?_of_referenceArray hk hb).1
  listed := by
    intro hk field slot hmem ht
    obtain ⟨i, hi⟩ := List.getElem?_of_mem hmem
    rw [ho.slots hk] at hb
    obtain ⟨x, v, hx, -, -⟩ := target?_of_instance hk hb (by simp) hi ht
    exact ⟨x, .field hk hi ht hx⟩
  refers := by
    intro i x hx
    cases hx with
    | field hk hfield ht hx =>
      rw [ho.slots hk] at hb
      obtain ⟨y, v, hy, hv, htarget⟩ := target?_of_instance hk hb (by simp) hfield ht
      obtain rfl : y = x := Option.some.inj (hy.symm.trans hx)
      exact ⟨v, hv, htarget⟩
    | element hk hx => exact (target?_of_referenceArray hk hb).2 i x hx

/-- Where a source names a described object there is the object that stands for it, never null. -/
def Names (t : Restored) (ds : List Description) (x : Source) (o : Option Ref) : Prop :=
  ∀ d ∈ ds, x = .eliminated d.id → ∃ q, t.get d.id = some q ∧ o = some q

/-- The graph of the objects that stand for descriptions is the graph of the descriptions. -/
structure Pictures (s : Supply) (f : CompiledFrame) (ds : List Description) (t : Restored)
    (store store' : Store) : Prop where
  /-- One object stands for each description: the shared box of its value, or a new object. -/
  stands : ∀ d ∈ ds, ∃ q, t.get d.id = some q ∧ store'.Has q ∧
    (t.isCached d.id = true ∧ IsBoxOf s f t d q ∨
      t.isCached d.id = false ∧ store.objects.size ≤ q.index ∧ Depicts f t d (store'.get q))
  /-- A new object stands for no other description. -/
  distinct : ∀ d ∈ ds, t.isCached d.id = false → ∀ e ∈ ds, t.get e.id = t.get d.id → e = d
  /-- Every new object stands for a description. -/
  onto : ∀ q, store.objects.size ≤ q.index → store'.Has q →
    ∃ d ∈ ds, t.isCached d.id = false ∧ t.get d.id = some q
  /-- The references of new objects are to what stands for the described ones that they name. -/
  named : ∀ d ∈ ds, t.isCached d.id = false → ∀ q, t.get d.id = some q → ∀ i x, Refers f d i x →
    Names t ds x ((store'.body q).target? i)
  /-- What was there is untouched. -/
  kept : ∀ q, store.Has q → store'.get q = store.get q

/-- An object that is no shared box is new. -/
lemma Allotted.new (h : Allotted s f m ds p) {i : Nat} (hcached : p.table.isCached i = false)
    (hq : p.table.get i = some q) : m.store.objects.size ≤ q.index ∧ p.memory.store.Has q := by
  obtain ⟨d, hd, rfl, horigin⟩ := h.stands i q hq
  rcases horigin with hhit | ⟨-, hnew⟩
  · rw [(h.isCached_iff hd).2 ⟨q, hhit⟩] at hcached
    cases hcached
  · exact hnew

/-- What is noted as a shared box is one. -/
lemma Allotted.hit (h : Allotted s f m ds p) (hd : d ∈ ds) (hcached : p.table.isCached d.id = true)
    (hq : p.table.get d.id = some q) : lookup s f {} d = .ok (.hit q) := by
  obtain ⟨r, hhit⟩ := (h.isCached_iff hd).1 hcached
  exact (h.origin hd hq).resolve_right fun hnew => by simp [hhit] at hnew

lemma Allotted.distinct (h : Allotted s f m ds p)
    (hboxes : ∀ ty w q, s.boxes.lookup ty w = .hit q → m.store.Has q) : Distinct p.table :=
  fun i j q hi _ hiq hjq => h.unique hboxes i j q (h.new hi hiq).1 hiq hjq

variable {pending : Option Thrown} {mode : Mode} {o : Outcome}

/-- Objects that were allocated, none of them refused, and filled in have the graph of their
descriptions. -/
lemma pictures_of_fills (hboxes : ∀ ty w q, s.boxes.lookup ty w = .hit q → m.store.Has q)
    (hp : Allotted s f m ds p) (hstocked : Stocked s f m ds p)
    (hthere : ∀ d ∈ ds, (p.table.get d.id).isSome = true)
    (hfills : Fills f p.table p.memory.store ds store') :
    Pictures s f ds p.table m.store store' := by
  have hmono : ∀ q, p.memory.store.Has q → store'.Has q := fun q hq => hq.mono hfills.size.ge
  have hdepicts : ∀ d ∈ ds, p.table.isCached d.id = false → ∀ q, p.table.get d.id = some q →
      Depicts f p.table d (store'.get q) := by
    intro d hd hcached q hq
    obtain ⟨b, hb, hget⟩ := hfills.filled d hd hcached q hq (hp.new hcached hq).2
    rw [hget]
    exact (hstocked.blank d hd (hp.miss hd (by simp [hcached]) hq) q hq).depicts hb
  constructor
  case stands =>
    intro d hd
    obtain ⟨q, hq⟩ := Option.isSome_iff_exists.1 (hthere d hd)
    cases hcached : p.table.isCached d.id with
    | false =>
      obtain ⟨hnew, hhas⟩ := hp.new hcached hq
      exact ⟨q, hq, hmono q hhas, .inr ⟨rfl, hnew, hdepicts d hd hcached q hq⟩⟩
    | true =>
      have hbox := hp.hit hd hcached hq
      have hhas := (has_of_lookup hboxes hbox).mono hp.grows.size_le
      rw [lookup_congr s f {} p.table] at hbox
      exact ⟨q, hq, hmono q hhas, .inl ⟨rfl, isBoxOf_of_lookup hbox⟩⟩
  case distinct =>
    intro d hd hcached e he heq
    obtain ⟨q, hq⟩ := Option.isSome_iff_exists.1 (hthere d hd)
    have hid := hp.unique hboxes e.id d.id q (hp.new hcached hq).1 (heq.trans hq) hq
    exact List.inj_on_of_nodup_map hp.ids he hd hid
  case onto =>
    intro q hle hhas
    obtain ⟨d, hd, hq⟩ := hstocked.onto q hle (hhas.mono hfills.size.le)
    refine ⟨d, hd, ?_, hq⟩
    rw [← Bool.not_eq_true]
    intro hcached
    exact absurd (has_of_lookup hboxes (hp.hit hd hcached hq)) (Nat.not_lt.2 hle)
  case named =>
    rintro d hd hcached q hq i x hx e he rfl
    obtain ⟨v, hv, htarget⟩ := (hdepicts d hd hcached q hq).refers i _ hx
    obtain ⟨r, hr⟩ := Option.isSome_iff_exists.1 (hthere e he)
    cases hv
    exact ⟨r, hr, htarget.trans hr⟩
  case kept =>
    intro q hq
    rw [hfills.untouched q fun d hd hcached hdq => ?_, hstocked.kept q hq]
    exact absurd hq (Nat.not_lt.2 (hp.new hcached hdq).1)

lemma pictures_of_objects (hboxes : ∀ ty w q, s.boxes.lookup ty w = .hit q → m.store.Has q)
    (h : objects s m pending mode f ds = .ok o) (hf : o.failed = false) :
    Pictures s f ds o.table m.store o.memory.store := by
  unfold objects at h
  split_ifs at h with hds
  · rw [List.isEmpty_iff] at hds
    subst hds
    cases h
    exact ⟨by simp, by simp, fun q hle hhas => absurd hhas (Nat.not_lt.2 hle), by simp,
      fun _ _ => rfl⟩
  · simp only [allocate, bind_eq_ok, pure_eq_ok] at h
    obtain ⟨p, hp, store, hstore, rfl⟩ := h
    have hallotted := allotted_of_foldlM hp
    exact pictures_of_fills hboxes hallotted (stocked_of_foldlM hp)
      ((foldlM_allocateOne_spec hp).2 hf).2.1
      (fills_of_fill (hallotted.distinct hboxes) hallotted.ids hstore)

/-! ### Activations -/

/-- The values and monitors of a packed activation are what stands for the described objects that
the scope names. -/
structure Shows (t : Restored) (ds : List Description) (x : Scope) (y : Packed) : Prop where
  locals : List.Forall₂ (fun x w => Names t ds x w.object?) x.locals y.locals
  expressions : List.Forall₂ (fun x w => Names t ds x w.object?) x.expressions y.expressions
  monitors : List.Forall₂ (fun h o => Names t ds h.owner o) x.monitors y.monitors

lemma names_of_resolve (hthere : ∀ d ∈ ds, (t.get d.id).isSome = true) {w : Word}
    (h : f.resolve t x = .ok w) : Names t ds x w.object? := by
  rintro d hd rfl
  cases h
  obtain ⟨q, hq⟩ := Option.isSome_iff_exists.1 (hthere d hd)
  exact ⟨q, hq, hq⟩

lemma names_of_resolveAll (hthere : ∀ d ∈ ds, (t.get d.id).isSome = true) {xs : List Source}
    {ws : List Word} (h : f.resolveAll t xs = .ok ws) :
    List.Forall₂ (fun x w => Names t ds x w.object?) xs ws :=
  (mapM_eq_ok.1 h).imp fun _ _ => names_of_resolve hthere

lemma names_of_guard (hthere : ∀ d ∈ ds, (t.get d.id).isSome = true) {h : HeldMonitor} {g : Guard}
    (hg : f.guard t h = .ok g) : Names t ds h.owner (Packed.lockOf g) := by
  intro d hd hid
  obtain ⟨q, hq⟩ := Option.isSome_iff_exists.1 (hthere d hd)
  rw [CompiledFrame.guard, hid] at hg
  cases hg
  exact ⟨q, hq, by simp [Packed.lockOf, hq]⟩

theorem shows_of_ofScope (hthere : ∀ d ∈ ds, (t.get d.id).isSome = true) {x : Scope} {y : Packed}
    (h : Packed.ofScope f t x = .ok y) : Shows t ds x y := by
  have hof := Packed.ofScope_spec h
  refine ⟨names_of_resolveAll hthere hof.locals, names_of_resolveAll hthere hof.expressions, ?_⟩
  obtain ⟨gs, hgs, hmonitors⟩ := hof.monitors
  rw [hmonitors, List.forall₂_map_right_iff]
  exact (mapM_eq_ok.1 hgs).imp fun _ _ => names_of_guard hthere

/-- Restoring the objects of a record, of which none is refused, makes the graph that the record
describes. Every description gets one object, and wherever a reference of a new object, a value of
an activation or the owner of a monitor names a description, there is that same object. Descriptions
in order, that is with distinct ids and sources that can be used, are always restored. The shared
boxes have to be there. -/
theorem graph_of_objects {r : DebugRecord}
    (hboxes : ∀ ty w q, s.boxes.lookup ty w = .hit q → m.store.Has q) (pending : Option Thrown)
    (mode : Mode) :
    (InOrder s f r.objects → ∃ o, objects s m pending mode f r.objects = .ok o) ∧
    ∀ o, objects s m pending mode f r.objects = .ok o → o.failed = false →
      Pictures s f r.objects o.table m.store o.memory.store ∧
      ((∀ x ∈ r.scopes, x.Readable f) →
        ∃ ys, r.scopes.mapM (Packed.ofScope f o.table) = .ok ys) ∧
      ∀ ys, r.scopes.mapM (Packed.ofScope f o.table) = .ok ys →
        List.Forall₂ (Shows o.table r.objects) r.scopes ys := by
  refine ⟨fun hds => exists_objects hds m pending mode, fun o ho hf => ?_⟩
  have hthere := (objects_spec ho hf).there
  refine ⟨pictures_of_objects hboxes ho hf, fun hscopes => ?_, fun ys hys => ?_⟩
  · obtain ⟨ys, hys, -⟩ := Packed.exists_ofScopes hscopes o.table
    exact ⟨ys, hys⟩
  · exact (mapM_eq_ok.1 hys).imp fun _ _ => shows_of_ofScope hthere

/-- A shared box that is found is in the cache of its type. -/
lemma mem_of_boxes_lookup {c : BoxCaches} {ty : BasicType} {w : Int64}
    (h : c.lookup ty w = .hit q) :
    ∃ low boxes, c.caches.get? ty = some (.ready low boxes) ∧ q ∈ boxes := by
  unfold BoxCaches.lookup at h
  cases hc : c.caches.get? ty with
  | none =>
    rw [hc] at h
    cases h
  | some cache =>
    rw [hc] at h
    cases cache with
    | failed => cases h
    | ready low boxes =>
      refine ⟨low, boxes, rfl, ?_⟩
      simp only at h
      split_ifs at h
      cases hq : boxes[(w.toInt - low).toNat]? with
      | none =>
        rw [hq] at h
        cases h
      | some r =>
        rw [hq] at h
        cases h
        exact Array.mem_of_getElem? hq

namespace Cyclic

/-- A list node that also refers to another object. -/
def node : Klass :=
  .base "Node" [⟨"value", .int, false, false⟩, ⟨"next", .object, false, false⟩,
    ⟨"other", .object, false, false⟩] none

def integer : Klass := .base "Integer" [⟨"value", .int, false, false⟩] (some .int)

def method : Method where
  ref := 0
  id := 1
  holder := "A"
  name := "m"
  parameters := 0
  locals := 2
  maxStack := 2
  parameters_le_locals := by decide

/-- Two nodes that refer to each other, the first also to itself, and the second to an array that
comes later. The array holds the first node and a shared box. -/
def record : DebugRecord where
  offset := 8
  scopes := [
    { method, bci := 0, locals := [.eliminated 2, .int 7], expressions := [.eliminated 4]
      monitors := [⟨.eliminated 1, true⟩] },
    { method, bci := 0, locals := [.eliminated 1], expressions := [.eliminated 3] }]
  objects := [
    { id := 1, klass := node, sources := [.int 5, .eliminated 2, .eliminated 1] },
    { id := 2, klass := node, sources := [.int 6, .eliminated 1, .eliminated 3] },
    { id := 3, klass := .referenceArray "[Node" none
      sources := [.eliminated 1, .eliminated 4, .reference none] },
    { id := 4, klass := integer, sources := [.int 0], autoBox := true }]

def compiled : CompiledFrame where
  region :=
    { ref := 0, compileId := 1, method, start := 0x1000, size := 0x40, handlerOffset := 0x30
      debug := ⟨[record]⟩ }
  slots := #[]

/-- The box of zero is shared. -/
def supply : Supply where
  config := {}
  boxes := ⟨⟨[(.int, .ready 0 #[⟨0⟩])]⟩⟩

def memory : Memory where
  heap := { allocations := 1 }
  store := ⟨#[{ serial := 1, klass := integer, body := .fields #[some (.raw 0)] }]⟩

lemma has_of_boxes_lookup {ty : BasicType} {w : Int64}
    (h : supply.boxes.lookup ty w = .hit q) : memory.store.Has q := by
  obtain ⟨low, boxes, hcache, hq⟩ := mem_of_boxes_lookup h
  cases ty with
  | int =>
    cases hcache
    obtain rfl : q = ⟨0⟩ := by simpa using hq
    exact Nat.zero_lt_one
  | _ => cases hcache

end Cyclic

/-- Two nodes in a cycle, an array and a shared box are restored, and two activations name them. -/
theorem graph_of_objects_cyclic : ∃ o ys,
    (∀ ty w q, Cyclic.supply.boxes.lookup ty w = .hit q → Cyclic.memory.store.Has q) ∧
    objects Cyclic.supply Cyclic.memory none .plain Cyclic.compiled Cyclic.record.objects = .ok o ∧
    o.failed = false ∧ o.table.isCached 4 = true ∧
    (o.memory.store.body ⟨1⟩).target? 1 = some ⟨2⟩ ∧
    Cyclic.record.scopes.mapM (Packed.ofScope Cyclic.compiled o.table) = .ok ys ∧
    Pictures Cyclic.supply Cyclic.compiled Cyclic.record.objects o.table Cyclic.memory.store
      o.memory.store ∧
    List.Forall₂ (Shows o.table Cyclic.record.objects) Cyclic.record.scopes ys := by
  have hboxes : ∀ ty w q, Cyclic.supply.boxes.lookup ty w = .hit q → Cyclic.memory.store.Has q :=
    fun _ _ _ => Cyclic.has_of_boxes_lookup
  obtain ⟨-, hgraph⟩ := graph_of_objects (f := Cyclic.compiled) (r := Cyclic.record) hboxes none
    .plain
  obtain ⟨hpictures, -, hshows⟩ := hgraph _ rfl rfl
  exact ⟨_, _, hboxes, rfl, rfl, rfl, rfl, rfl, hpictures, hshows _ rfl⟩

end Restore
end Bailout
