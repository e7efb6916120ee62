import Bailout.Proofs.Restore.Poorer
import Bailout.Proofs.Unwind.Abandon
import Bailout.Proofs.Unwind.LeftOver

/-!
# Planning with too little memory

A frame for which a plan came about while nothing was refused, planned for again with any heap and
with box caches that may have failed. Restoring always comes to something. A plan comes about too,
except that an exception which is to be thrown again must not be an object that was refused, and
that the monitors which are given up have to be held.
-/

namespace Bailout

/-! ### What success says about a frame -/

namespace CompiledFrame

variable {f : CompiledFrame} {t : Restored} {x : Source} {s : Scope} {p : Packed}

lemma accepts_of_interpret {rd : Reading} {w v : Word} {pl : Place}
    (h : rd.interpret pl w = .ok v) : rd.Accepts w := by
  cases rd with
  | reference =>
    cases w with
    | raw b =>
      simp only [Reading.interpret] at h
      split_ifs at h with hb
      · exact hb
      · simp at h
    | ref o => trivial
  | _ => trivial

/-- What was read can be read. -/
lemma supplies_of_resolve {w : Word} (h : f.resolve t x = .ok w) : f.Supplies x := by
  cases x with
  | located l =>
    simp only [resolve, read] at h
    split at h
    next hinvalid => exact .inl hinvalid
    next hr =>
      cases hw : f.word? l.place with
      | none =>
        rw [hw] at h
        simp at h
      | some v =>
        rw [hw] at h
        exact .inr ⟨v, hw, accepts_of_interpret h⟩
  | _ => trivial

lemma supplies_of_resolveAll {xs : List Source} {ws : List Word}
    (h : f.resolveAll t xs = .ok ws) : ∀ x ∈ xs, f.Supplies x := by
  intro x hx
  obtain ⟨w, -, hw⟩ := exists_mem_of_forall₂ (mapM_eq_ok.1 h).flip hx
  exact supplies_of_resolve hw

lemma supplies_of_guard {h : HeldMonitor} {g : Guard} (hg : f.guard t h = .ok g) :
    f.Supplies h.owner := by
  unfold guard at hg
  split at hg
  next id hid =>
    rw [hid]
    trivial
  next =>
    obtain ⟨w, hw, -⟩ := bind_eq_ok.1 hg
    exact supplies_of_resolve hw

/-- An activation that was packed can be read. -/
lemma readable_of_packed (h : Packed.Of f t s p) : s.Readable f where
  locals := supplies_of_resolveAll h.locals
  expressions := supplies_of_resolveAll h.expressions
  monitors := by
    obtain ⟨gs, hgs, -⟩ := h.monitors
    intro e he
    obtain ⟨g, -, hg⟩ := exists_mem_of_forall₂ (mapM_eq_ok.1 hgs).flip he
    exact supplies_of_guard hg

end CompiledFrame

namespace Unwind

variable {s s' : Restore.Supply} {m m' m₁ m₂ : Memory} {t u v w : Thread} {mode : Mode}
  {frame caller : Frame} {f : CompiledFrame} {r : DebugRecord} {got : Recovery}
  {thrown : Option Thrown} {l : Layout} {ps : List Packed}

/-- A frame that was planned for without a refusal can be planned for. -/
theorem Fetched.placed (h : Fetched s m t mode l m' u frame f r got thrown v w)
    (hf : got.failed = false) : ∃ caller, Placed t frame caller f r := by
  obtain ⟨caller, ps, ps', sizes, saved, htarget, hps, habandon, hsizes, hlayout⟩ := h.packed
  have hpacks : Packs f got.table r.scopes ps := Packed.of_ofScopes hps
  simp only [Unwind.abandon, hf, Bool.false_eq_true, if_false, pure_eq_ok, Prod.mk.injEq]
    at habandon
  obtain ⟨-, rfl, rfl⟩ := habandon
  have hthread := (recover_spec h.recover).1
  refine ⟨caller, htarget, h.record, h.scopes, fun x hx => ?_, ?_, ?_⟩
  · obtain ⟨p, -, hp⟩ := exists_mem_of_forall₂ hpacks.flip hx
    exact CompiledFrame.readable_of_packed hp
  · have hplan := h.plan
    rw [hthread] at hplan
    exact hplan
  · obtain ⟨-, rfl⟩ := Packed.sizesFrom_eq_ok.1 hsizes
    have hroom := (layout_eq_ok.1 hlayout).1
    rwa [sum_map_wordBytes, Packed.sum_wordsFrom_eq hpacks h.scopes,
      extraWords_of_recover h.recover, ← Nat.mul_add, ← Nat.add_assoc,
      Packed.method_getLastD (hpacks.imp fun _ _ h => h.method) h.scopes] at hroom

/-! ### Restoring with less -/

/-- Recovery of a frame that was not restored early, taken apart. -/
lemma exists_relock_of_recover {id : Nat} (hl : s.config.eliminateLocks = true)
    (ht : t.restored.get? id = none) (h : recover s m t mode id f r = .ok got) :
    ∃ o x, Restore.objectsIfEnabled s m t.pending mode f r.objects = .ok o ∧
      Restore.relockAll f o.table mode o.failed (o.memory.store, { t with pending := o.pending })
        r.scopes.reverse = .ok x ∧ got.table = o.table ∧ got.failed = o.failed := by
  simp only [recover, ht, hl, if_true, bind_eq_ok, pure_eq_ok] at h
  obtain ⟨o, ho, x, hx, rfl⟩ := h
  exact ⟨o, x, ho, hx, rfl, rfl⟩

/-- Owners whose monitors were entered admitted that. -/
lemma admits_of_relockAll {o : Restore.Outcome} {pending : Option Thrown}
    {x : Bool × Store × Thread} (hmode : mode ≠ .inspect) (hk : Restore.Known s f r m.store)
    (ho : Restore.Restoring s m pending mode f r.objects o)
    (h : Restore.relockAll f o.table mode o.failed (o.memory.store, t) r.scopes.reverse = .ok x) :
    Restore.Admits t.id m.store (f.owners o.table r) := by
  obtain ⟨gss, hgss, howners, hmissing⟩ := Restore.exists_entered_of_relockAll h
  rw [Restore.relockAll_eq (.of_mode (.inl hmode) _) hgss hmissing,
    CompiledFrame.owners_of_eliminatedOwners howners, bind_eq_ok] at h
  obtain ⟨store, hstore, -⟩ := h
  have hadmits := Restore.admits_of_enterAll hstore fun q hq => has_of_mem_owners hk ho hq
  intro q hq
  rw [← ho.grows.monitor]
  exact hadmits q hq

/-! ### Throwing with less -/

/-- The exception that is to be thrown again is no eliminated object, or one that was restored. -/
def Throwable (table : Restored) (r : DebugRecord) : Prop :=
  r.rethrows = true → ∀ id, (r.scopes.headD default).expressions.getLast? = some (.eliminated id) →
    (table.get id).isSome = true

lemma getLast?_of_forall₂ {α β : Type} {R : α → β → Prop} {as : List α} {bs : List β}
    (h : List.Forall₂ R as bs) :
    (as.getLast? = none ∧ bs.getLast? = none) ∨
      ∃ a b, as.getLast? = some a ∧ bs.getLast? = some b ∧ R a b := by
  induction h with
  | nil => exact .inl ⟨rfl, rfl⟩
  | @cons a b as bs hab _ ih =>
    right
    rw [List.getLast?_cons, List.getLast?_cons]
    rcases ih with ⟨ha, hb⟩ | ⟨a', b', ha, hb, hr⟩
    · exact ⟨a, b, by rw [ha]; rfl, by rw [hb]; rfl, hab⟩
    · exact ⟨a', b', by rw [ha]; rfl, by rw [hb]; rfl, hr⟩

/-- Something is thrown again if the last expression of the activation refers to an object. -/
lemma exists_rethrown_iff {table : Restored} {x : Scope} (hr : r.rethrows = true)
    (hx : ∀ e ∈ x.expressions, f.Supplies e) :
    (∃ thrown, rethrown f table r x = .ok thrown) ↔
      ∃ e o, x.expressions.getLast? = some e ∧ f.resolve table e = .ok (.ref (some o)) := by
  obtain ⟨ws, hws⟩ := CompiledFrame.exists_resolveAll hx table
  rw [rethrown, if_pos hr, hws, ok_bind]
  rcases getLast?_of_forall₂ (mapM_eq_ok.1 hws) with ⟨he, hw⟩ | ⟨e, w, he, hw, hresolve⟩
  · simp [he, hw]
  · rw [hw, he]
    constructor
    · rintro ⟨thrown, h⟩
      cases w with
      | raw b => simp [Word.object?] at h
      | ref o =>
        cases o with
        | none => simp [Word.object?] at h
        | some o => exact ⟨e, o, rfl, hresolve⟩
    · rintro ⟨e', o, he', ho⟩
      obtain rfl := Option.some.inj he'
      obtain rfl := Except.ok.inj (hresolve.symm.trans ho)
      exact ⟨_, rfl⟩

/-- What was thrown again with some objects can be thrown again with others, unless it is itself an
object that was refused. -/
theorem exists_rethrown_iff_throwable {table table' : Restored}
    (hx : (r.scopes.headD default).Readable f)
    (h : rethrown f table r (r.scopes.headD default) = .ok thrown) :
    (∃ thrown', rethrown f table' r (r.scopes.headD default) = .ok thrown') ↔
      Throwable table' r := by
  cases hr : r.rethrows with
  | false =>
    have hnone : rethrown f table' r (r.scopes.headD default) = .ok none := by
      rw [rethrown, hr]
      rfl
    exact iff_of_true ⟨none, hnone⟩ fun h => by
      rw [hr] at h
      cases h
  | true =>
    obtain ⟨e, o, he, ho⟩ := (exists_rethrown_iff hr hx.expressions).1 ⟨thrown, h⟩
    rw [exists_rethrown_iff hr hx.expressions, Throwable, he]
    cases e with
    | eliminated id =>
      simp [hr, CompiledFrame.resolve, pure, Except.pure, Option.isSome_iff_exists]
    | _ =>
      simp only [hr, Option.some.injEq, reduceCtorEq, false_implies, implies_true, iff_true]
      exact ⟨_, o, rfl, ho⟩

/-! ### Planning with less -/

/-- A plan for which nothing is refused comes about, and is carried out. -/
lemma exists_fetch_of_granted (hmode : mode ≠ .inspect) (hp : Placed t frame caller f r)
    (hnote : t.framesToPop = 0)
    (hgot : recover s m t.enterHandler mode frame.id f r = .ok got) (hf : got.failed = false)
    (hthrown : rethrown f got.table r (r.scopes.headD default) = .ok thrown) :
    ∃ l m' u, fetch s m t mode = .ok (l, m', u) ∧ l.mode ≠ .inspect := by
  obtain ⟨ps, hpacked, hpacks⟩ := Packed.exists_ofScopes hp.readable got.table
  have hthread := (recover_spec hgot).1
  have habandon : abandon got.failed got.memory.store got.thread ps =
      .ok (got.memory.store, got.thread, ps) := by
    rw [abandon, hf]
    rfl
  have hplan : got.thread.plan = none := by
    rw [hthread]
    exact hp.plan
  have hpop : got.thread.framesToPop = 0 := by
    rw [hthread]
    exact hnote
  obtain ⟨sizes, hsizes, hlayout⟩ := hp.exists_layout (hpacks.imp fun _ _ h => h.within)
    (savedResult t.enterHandler mode f r)
  obtain ⟨w, mode', hraise, hmode'⟩ : ∃ w mode', raise got.thread mode thrown = .ok (w, mode') ∧
      mode' ≠ .inspect := by
    unfold raise
    cases thrown.isSome <;> simp [hpop, hmode, pure, Except.pure]
  obtain ⟨l, hl, rfl⟩ := hlayout mode'
  rw [← extraWords_of_recover hgot] at hsizes
  exact ⟨l, _, _, hp.fetch_eq hgot hthrown hpacked habandon hplan hsizes hraise hl, hmode'⟩

/-- If objects are refused, planning comes to something only if something can be thrown and the
monitors that compiled code holds are held. -/
lemma held_of_fetch (h : Fetched s m t mode l m' u frame f r got thrown v w)
    (hf : got.failed = true) {o : Restore.Outcome}
    (hrecovers : Recovers m t.enterHandler mode f r o got) (q : Ref) :
    (f.kept got.table r).count q ≤ (m.store.monitor q).holdCount t.id := by
  have hleft := h.released hf q
  have hid : got.thread.id = t.id := by
    rw [hrecovers.thread]
    rfl
  have hholds := hrecovers.holdCount q
  rw [hid, hrecovers.table] at hleft
  rw [hrecovers.table]
  simp only [Thread.enterHandler] at hholds
  omega

/-- If objects are refused, a plan comes about exactly if what is to be thrown again can be read and
the monitors that compiled code holds are held. -/
theorem exists_fetch_iff_of_refused {o : Restore.Outcome} (hl : s.config.eliminateLocks = true)
    (hmode : mode ≠ .inspect) (hp : Placed t frame caller f r) (hk : Restore.Known s f r m.store)
    (ht : t.restored.get? frame.id = none)
    (ho : Restore.objectsIfEnabled s m t.pending mode f r.objects = .ok o)
    (hadmits : Restore.Admits t.id m.store (f.owners o.table r))
    (hgot : recover s m t.enterHandler mode frame.id f r = .ok got)
    (hrecovers : Recovers m t.enterHandler mode f r o got) (hf : got.failed = true) :
    (∃ l m' u, fetch s m t mode = .ok (l, m', u) ∧ l.mode ≠ .inspect) ↔
      (∃ thrown, rethrown f got.table r (r.scopes.headD default) = .ok thrown) ∧
        ∀ q, (f.kept got.table r).count q ≤ (m.store.monitor q).holdCount t.id := by
  constructor
  · rintro ⟨l, m', u, hfetch, -⟩
    obtain ⟨got', thrown, v, w, hfetched⟩ := fetch_spec_of_target hp.target hp.record hfetch
    obtain rfl := Except.ok.inj (hgot.symm.trans hfetched.recover)
    exact ⟨⟨thrown, hfetched.rethrown⟩, held_of_fetch hfetched hf hrecovers⟩
  · rintro ⟨⟨thrown, hthrown⟩, hheld⟩
    rw [hrecovers.table] at hthrown hheld
    obtain ⟨l, m', u, hfetch, habandons⟩ := fetch_abandons hl hmode hp hk ht ho
      (hrecovers.failed.symm.trans hf) hthrown hadmits hheld
    exact ⟨l, m', u, hfetch, habandons.mode_ne_inspect⟩

/-- What was restored once from a frame is restored again with less, as far as it is not refused. -/
lemma exists_recover_of_poorer {id : Nat} (hs : s.restoresObjects = true)
    (hl : s.config.eliminateLocks = true) (hpoor : Restore.Poorer s s')
    (hstore : m'.store = m.store) (hmode : mode ≠ .inspect) (hr : ∀ x ∈ r.scopes, x.Readable f)
    (hk : Restore.Known s f r m.store) (ht : t.restored.get? id = none)
    (h : recover s m t mode id f r = .ok got) (hf : got.failed = false) :
    ∃ o' got', recover s' m' t mode id f r = .ok got' ∧ Recovers m' t mode f r o' got' ∧
      Restore.objectsIfEnabled s' m' t.pending mode f r.objects = .ok o' ∧
      Restore.Admits t.id m'.store (f.owners o'.table r) ∧
      (o'.failed = false → ∀ i, (got.table.get i).isSome = true →
        (o'.table.get i).isSome = true) := by
  obtain ⟨o, x, ho, hrelock, htable, hfailed⟩ := exists_relock_of_recover hl ht h
  rw [hf] at hfailed
  have hfull := Restore.restoring_of_objectsIfEnabled ho
  have horder := Restore.inOrder_of_objects hs ho hfailed.symm
  obtain ⟨o', ho'⟩ :=
    Restore.exists_objectsIfEnabled (hpoor.inOrder horder) m' t.pending mode
  have hless := Restore.restoring_of_objectsIfEnabled ho'
  have hthere := (Restore.objectsIfEnabled_spec hs ho hfailed.symm).there
  have hreduced : Restore.Reduced s s' m m' f r o o' :=
    ⟨hpoor, hstore, hk, horder.ids, hthere, ⟨_, _, hfull⟩, ⟨_, _, hless⟩⟩
  have hadmits := hreduced.admits (admits_of_relockAll hmode hk hfull hrelock)
  have hkept : o'.failed = false → ∀ i, (o.table.get i).isSome = true →
      (o'.table.get i).isSome = true := by
    intro hf' i hi
    obtain ⟨q, hq⟩ := Option.isSome_iff_exists.1 hi
    obtain ⟨d, hd, rfl, -⟩ := hfull.stands i q hq
    exact (Restore.objectsIfEnabled_spec (hpoor.restoresObjects.trans hs) ho' hf').there d hd
  have hcovers : o'.failed = false → CompiledFrame.Covers o'.table r := by
    intro hf' x hx e he helim i hi
    rw [← hfailed] at hrelock
    exact hkept hf' i (Restore.covers_of_relockAll hrelock x hx e he helim i hi)
  have hk' : Restore.Known s' f r m'.store := by
    rw [hstore]
    exact hpoor.known hk
  obtain ⟨got', hgot', hrecovers⟩ := exists_recover_of_objects (s := s')
    (by rw [hpoor.config]; exact hl) hmode hr hk' ht ho' hcovers hadmits
  exact ⟨o', got', hgot', hrecovers, ho', hadmits, fun hf' i hi => hkept hf' i (htable ▸ hi)⟩

/-- A frame that was planned for while nothing was refused is planned for with any heap and with box
caches of which some have failed, and in no case is restoring what stops it. If something is refused
then a plan comes about exactly if the exception that is to be thrown again was not refused itself,
and the monitors that compiled code holds are held. -/
theorem fetch_recoverable_iff (hs : s.restoresObjects = true)
    (hl : s.config.eliminateLocks = true) (hpoor : Restore.Poorer s s')
    (hstore : m'.store = m.store) (hmode : mode ≠ .inspect) (hnote : t.framesToPop = 0)
    (htarget : target t = .ok (frame, caller)) (hrecord : frame.record = .ok (f, r))
    (hk : Restore.Known s f r m.store) {p : Plan} (hfetch : fetch s m t mode = .ok (l, m₁, u))
    (hp : u.plan = some p) (hgranted : p.failed = false) :
    ∃ got, recover s' m' t.enterHandler mode frame.id f r = .ok got ∧
      ((∃ l' m₂ u', fetch s' m' t mode = .ok (l', m₂, u') ∧ l'.mode ≠ .inspect) ↔
        (got.failed = true → Throwable got.table r ∧
          ∀ q, (f.kept got.table r).count q ≤ (m.store.monitor q).holdCount t.id)) := by
  obtain ⟨got, thrown, v, w, hfetched⟩ := fetch_spec_of_target htarget hrecord hfetch
  have hgot : got.failed = false := (hfetched.failed_of_plan hp).symm.trans hgranted
  obtain ⟨caller', hplaced⟩ := hfetched.placed hgot
  have hthrowable : ∀ table, (∃ thrown', rethrown f table r (r.scopes.headD default) =
      .ok thrown') ↔ Throwable table r :=
    fun table => exists_rethrown_iff_throwable hplaced.readable_headD hfetched.rethrown
  cases ht : t.restored.get? frame.id with
  | some table =>
    -- What was restored early is there whatever the heap has left.
    obtain rfl := Except.ok.inj (hfetched.recover.symm.trans (recover_of_restored ht))
    have hgot' : recover s' m' t.enterHandler mode frame.id f r = _ := recover_of_restored ht
    exact ⟨_, hgot', iff_of_true
      (exists_fetch_of_granted hmode hplaced hnote hgot' rfl hfetched.rethrown) nofun⟩
  | none =>
    obtain ⟨o, got', hgot', hrecovers, ho, hadmits, hkept⟩ := exists_recover_of_poorer
      (t := t.enterHandler) hs hl hpoor hstore hmode hplaced.readable hk ht hfetched.recover hgot
    refine ⟨got', hgot', ?_⟩
    cases hf : got'.failed with
    | false =>
      have hthrow : Throwable got'.table r := by
        intro hr i hi
        rw [hrecovers.table]
        exact hkept (hrecovers.failed.symm.trans hf) i
          ((hthrowable got.table).1 ⟨thrown, hfetched.rethrown⟩ hr i hi)
      obtain ⟨thrown', hthrown'⟩ := (hthrowable got'.table).2 hthrow
      exact iff_of_true (exists_fetch_of_granted hmode hplaced hnote hgot' hf hthrown') nofun
    | true =>
      have hl' : s'.config.eliminateLocks = true := by
        rw [hpoor.config]
        exact hl
      rw [exists_fetch_iff_of_refused hl' hmode hplaced (hstore ▸ hpoor.known hk) ht ho hadmits
        hgot' hrecovers hf, hthrowable, hstore]
      exact ⟨fun h _ => h, fun h => h rfl⟩

/-- The same store, and a heap that refuses nothing. -/
def Refused.ample : Memory := { store := Refused.memory.store }

/-- With a heap that hands out nothing more, the frame is planned for all the same. -/
theorem fetch_recoverable_refused : ∃ l m₁ u p,
    fetch Inlined.supply Refused.ample Refused.thread .plain = .ok (l, m₁, u) ∧ u.plan = some p ∧
    p.failed = false ∧ Refused.thread.framesToPop = 0 ∧
    Restore.Known Inlined.supply Refused.compiled Refused.record Refused.ample.store ∧
    ∃ l' m₂ u', fetch Inlined.supply Refused.memory Refused.thread .plain = .ok (l', m₂, u') ∧
      l'.mode ≠ .inspect := by
  obtain ⟨l, m₁, u, p, hfetch, hp, hgranted⟩ : ∃ l m₁ u p,
      fetch Inlined.supply Refused.ample Refused.thread .plain = .ok (l, m₁, u) ∧
        u.plan = some p ∧ p.failed = false := ⟨_, _, _, _, rfl, rfl, rfl⟩
  refine ⟨l, m₁, u, p, hfetch, hp, hgranted, rfl, Refused.known, ?_⟩
  have hpoor : Restore.Poorer Inlined.supply Inlined.supply := ⟨rfl, fun _ => .inl rfl⟩
  have hstore : Refused.memory.store = Refused.ample.store := rfl
  obtain ⟨got, hgot, hiff⟩ := fetch_recoverable_iff (t := Refused.thread) rfl rfl hpoor hstore
    (by decide) rfl Refused.placed.target Refused.placed.record Refused.known hfetch hp hgranted
  obtain ⟨got', hgot', hkept⟩ : ∃ got',
      recover Inlined.supply Refused.memory Refused.thread.enterHandler .plain 2 Refused.compiled
        Refused.record = .ok got' ∧
      Refused.compiled.kept got'.table Refused.record = [⟨0⟩, ⟨0⟩] := ⟨_, rfl, rfl⟩
  obtain rfl : got = got' := Except.ok.inj (hgot.symm.trans hgot')
  refine hiff.2 fun _ => ⟨nofun, fun q => ?_⟩
  rw [hkept]
  exact Refused.held q

namespace Rethrown

open Inlined (outer)

/-- The exception that is to be thrown again was eliminated. -/
def record : DebugRecord where
  offset := 8
  scopes := [{ method := outer, bci := 0, expressions := [.eliminated 7] }]
  objects := [{ id := 7, klass := .base "K" [] none, sources := [] }]
  rethrows := true

def compiled : CompiledFrame where
  region := { Inlined.region with debug := ⟨[record]⟩ }
  slots := #[]

def thread : Thread where
  id := 1
  name := "main"
  stack := [⟨2, Thread.stackBase - 8, 4, 0x1008, .compiled compiled⟩, Repeated.entry]
  lastFrameId := 2

end Rethrown

/-- With memory for the exception a plan comes about, and without it the runtime stops. -/
theorem fetch_fatal_rethrown : ∃ l m₁ u p,
    fetch Inlined.supply {} Rethrown.thread .plain = .ok (l, m₁, u) ∧ u.plan = some p ∧
    p.failed = false ∧ Rethrown.thread.framesToPop = 0 ∧ l.mode = .exception ∧
    fetch Inlined.supply Repeated.exhausted Rethrown.thread .plain = fatal .nullThrown :=
  ⟨_, _, _, _, rfl, rfl, rfl, rfl, rfl, rfl⟩

end Unwind
end Bailout
