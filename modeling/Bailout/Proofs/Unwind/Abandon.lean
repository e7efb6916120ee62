import Bailout.Proofs.Restore.Orderly
import Bailout.Proofs.Unwind.Release
import Bailout.Proofs.Unwind.Replace

/-!
# Plans that are given up

When an object is refused, planning still comes to something. The activations give back every
monitor that they hold, those that were entered for them and those that compiled code held, and an
out-of-memory error takes their place.
-/

namespace Bailout

variable {f : CompiledFrame} {table : Restored} {parameters locals extra : Nat} {isTop : Bool}

/-! ### Room for activations -/

namespace Packed

/-- A packed activation takes no more room than its scope. It may have given up its monitors. -/
structure Within (s : Scope) (p : Packed) : Prop where
  method : p.method = s.method
  bci : p.bci = s.bci
  expressions : p.expressions.length = s.expressions.length
  monitors : p.monitors.length ≤ s.monitors.length

lemma Of.within {s : Scope} {p : Packed} (hp : Of f table s p) : Within s p :=
  ⟨hp.method, hp.bci, hp.length_expressions, Nat.le_of_eq hp.length_monitors⟩

lemma Of.within_withoutMonitors {s : Scope} {p : Packed} (hp : Of f table s p) :
    Within s p.withoutMonitors :=
  ⟨hp.method, hp.bci, hp.length_expressions, Nat.zero_le _⟩

lemma Within.words_le {s : Scope} {p : Packed} (hp : Within s p) :
    p.words parameters locals isTop extra ≤ extra + s.words parameters locals isTop := by
  have hmonitors : p.monitors.length * Activation.monitorWords ≤
      s.monitors.length * Activation.monitorWords := Nat.mul_le_mul_right _ hp.monitors
  rw [words, stackWords, Scope.words, hp.method, hp.expressions]
  omega

/-- A chain of activations takes no more room than their scopes and the words that are kept
besides. -/
lemma sum_wordsFrom_le {ss : List Scope} {ps : List Packed} (hps : List.Forall₂ Within ss ps) :
    (wordsFrom parameters locals isTop extra ps).sum ≤
      extra + (Scope.wordsFrom parameters locals isTop ss).sum := by
  induction hps generalizing parameters locals isTop extra with
  | nil => exact Nat.zero_le _
  | @cons s p ss ps hp _ ih =>
    have hhere : p.words parameters locals isTop extra ≤ _ := hp.words_le
    have hrest : (wordsFrom s.method.parameters s.method.locals false 0 ps).sum ≤ _ := ih
    rw [wordsFrom, Scope.wordsFrom, List.sum_cons, List.sum_cons, hp.method]
    omega

end Packed

/-! ### Frames that can be planned for -/

namespace Unwind

variable {s : Restore.Supply} {m m' : Memory} {t u : Thread} {mode : Mode} {frame caller : Frame}
  {r : DebugRecord} {got : Recovery} {thrown : Option Thrown} {l : Layout} {ps : List Packed}
  {id : Nat}

/-- The newest compiled frame of a thread and its caller. The activations of the record can be read,
the thread has no plan, and the bytes of all activations can be counted. -/
structure Placed (t : Thread) (frame caller : Frame) (f : CompiledFrame) (r : DebugRecord) :
    Prop where
  target : target t = .ok (frame, caller)
  record : frame.record = .ok (f, r)
  scopes : r.scopes ≠ []
  readable : ∀ x ∈ r.scopes, x.Readable f
  plan : t.plan = none
  room : wordBytes * (callerExtension caller (r.scopes.getLastD default).method + extraWords t +
    (Scope.wordsFrom 0 0 true r.scopes).sum) < wordLimit

lemma Placed.readable_headD (hp : Placed t frame caller f r) :
    (r.scopes.headD default).Readable f := by
  obtain ⟨x, xs, hxs⟩ := List.exists_cons_of_ne_nil hp.scopes
  rw [hxs]
  exact hp.readable x (by simp [hxs])

/-- Activations that may have given up their monitors are laid out. -/
lemma Placed.exists_layout (hp : Placed t frame caller f r)
    (hps : List.Forall₂ Packed.Within r.scopes ps) (saved : Option Ref) :
    ∃ sizes, Packed.sizes (extraWords t) ps = .ok sizes ∧ ∀ mode, ∃ l,
      layout caller frame f saved mode (ps.headD default) (ps.getLastD default).method sizes =
        .ok l ∧ l.mode = mode := by
  have hsum : (Packed.wordsFrom 0 0 true (extraWords t) ps).sum ≤ _ := Packed.sum_wordsFrom_le hps
  have hroom : wordBytes * callerExtension caller (r.scopes.getLastD default).method +
      wordBytes * (Packed.wordsFrom 0 0 true (extraWords t) ps).sum < wordLimit := by
    refine Nat.lt_of_le_of_lt ?_ hp.room
    rw [← Nat.mul_add, Nat.add_assoc]
    exact Nat.mul_le_mul_left _ (Nat.add_le_add_left hsum _)
  refine ⟨_, Packed.sizesFrom_of_sum_lt (Nat.lt_of_le_of_lt (Nat.le_add_left _ _) hroom),
    fun mode => ⟨_, layout_eq_ok.2 ⟨?_, rfl⟩, rfl⟩⟩
  rwa [Packed.method_getLastD (hps.imp fun _ _ h => h.method) hp.scopes, sum_map_wordBytes]

/-! ### Recovery that may be refused -/

/-- What recovery leaves if the frame was not restored early. -/
structure Recovers (m : Memory) (t : Thread) (mode : Mode) (f : CompiledFrame) (r : DebugRecord)
    (o : Restore.Outcome) (got : Recovery) : Prop where
  table : got.table = o.table
  failed : got.failed = o.failed
  thread : got.thread = { t with pending := Restore.pendingAfter mode o.failed t.pending }
  holdCount : ∀ q, (got.memory.store.monitor q).holdCount t.id =
    (m.store.monitor q).holdCount t.id + (f.owners o.table r).count q

lemma has_of_mem_owners {o : Restore.Outcome} {pending : Option Thrown}
    (hk : Restore.Known s f r m.store) (ho : Restore.Restoring s m pending mode f r.objects o)
    {q : Ref} (hq : q ∈ f.owners o.table r) : o.memory.store.Has q := by
  rcases CompiledFrame.mem_owners hq with hq | ⟨i, hi⟩
  · exact (hk.owners q hq).mono ho.grows.size_le
  · obtain ⟨d, -, -, hhit | ⟨-, -, hhas⟩⟩ := ho.stands i q hi
    · exact (Restore.has_of_lookup hk.boxes hhit).mono ho.grows.size_le
    · exact hhas

/-- Objects may be refused. Then the monitors of all owners that are there are entered. -/
theorem exists_recover_of_objects {o : Restore.Outcome} (hl : s.config.eliminateLocks = true)
    (hmode : mode ≠ .inspect) (hr : ∀ x ∈ r.scopes, x.Readable f)
    (hk : Restore.Known s f r m.store) (ht : t.restored.get? id = none)
    (ho : Restore.objectsIfEnabled s m t.pending mode f r.objects = .ok o)
    (hcovers : o.failed = false → CompiledFrame.Covers o.table r)
    (hadmits : Restore.Admits t.id m.store (f.owners o.table r)) :
    ∃ got, recover s m t mode id f r = .ok got ∧ Recovers m t mode f r o got := by
  have hrestoring := Restore.restoring_of_objectsIfEnabled ho
  obtain ⟨gss, hgss⟩ := exists_mapM_eq_ok fun x hx =>
    CompiledFrame.exists_guards (hr x (List.mem_reverse.1 hx)) o.table
  have howners : gss.flatten.filterMap Guard.entered? = f.owners o.table r :=
    CompiledFrame.owners_of_eliminatedOwners (by rw [CompiledFrame.eliminatedOwners, hgss]; rfl)
  replace hgss := mapM_eq_ok.1 hgss
  obtain ⟨store, hstore⟩ : ∃ store, Restore.enterAll t.id o.memory.store (f.owners o.table r) =
      .ok store := by
    refine Restore.exists_enterAll fun q hq => ?_
    rw [hrestoring.grows.monitor]
    exact hadmits q hq
  have hmissing : ∀ g ∈ gss.flatten, g.missing = true →
      g.owner = none ∧ (g.eliminated = true → o.failed = true) := by
    intro g hg hm
    obtain ⟨x, hx, e, he, hguard⟩ := Restore.mem_guards hgss hg
    obtain ⟨helim, howner⟩ := CompiledFrame.guard_spec hguard
    obtain ⟨hnone, i, hi, hget⟩ := howner hm
    refine ⟨hnone, fun hgelim => ?_⟩
    by_contra hfailed
    have hsome := hcovers (by simpa using hfailed) x (List.mem_reverse.1 hx) e he
      (helim ▸ hgelim) i hi
    rw [hget] at hsome
    cases hsome
  have hrelock := Restore.relockAll_eq (t := { t with pending := o.pending })
    (.of_mode (.inl hmode) _) hgss hmissing o.memory.store
  rw [howners] at hrelock
  refine ⟨_, by
    rw [recover, ht]
    simp only [ho, ok_bind, hl, if_true, hrelock, hstore]
    rfl, rfl, rfl, ?_, fun q => ?_⟩
  · rw [hrestoring.pending]
  · have henters := Restore.enterAll_spec hstore
    rw [← hrestoring.grows.monitor]
    exact henters.holdCount_of_has (fun _ => has_of_mem_owners hk hrestoring) q

/-! ### Giving up -/

/-- What is left of a plan whose activations are not going to run. -/
structure Abandons (m : Memory) (t : Thread) (mode : Mode) (f : CompiledFrame) (r : DebugRecord)
    (table : Restored) (l : Layout) (m' : Memory) (u : Thread) : Prop where
  framesToPop : u.framesToPop = r.scopes.length
  frames : ∃ p, u.plan = some p ∧ p.frames.length = r.scopes.length ∧
    ∀ x ∈ p.frames, x.monitors = []
  holdCount : ∀ q, (m'.store.monitor q).holdCount t.id + (f.kept table r).count q =
    (m.store.monitor q).holdCount t.id
  trapped : mode = .uncommonTrap → r.rethrows = false →
    l.mode = .uncommonTrap ∧ u.pending = some .outOfMemory ∧ u.exception = t.exception
  raised : mode ≠ .uncommonTrap ∨ r.rethrows = true →
    l.mode = .exception ∧ u.pending = none ∧ u.exception = some .outOfMemory

/-- A plan that is given up is carried out. -/
lemma Abandons.mode_ne_inspect (h : Abandons m t mode f r table l m' u) : l.mode ≠ .inspect := by
  by_cases hc : mode = .uncommonTrap ∧ r.rethrows = false
  · rw [(h.trapped hc.1 hc.2).1]
    decide
  · rw [not_and_or, Bool.not_eq_false] at hc
    rw [(h.raised hc).1]
    decide

lemma isSome_of_rethrown {x : Scope} (h : rethrown f table r x = .ok thrown) :
    thrown.isSome = r.rethrows := by
  unfold rethrown at h
  split_ifs at h with hr
  · simp only [bind_eq_ok] at h
    obtain ⟨es, -, h⟩ := h
    split at h
    · cases h
    · split at h
      · cases h
        exact hr.symm
      · cases h
  · cases h
    simpa using hr

/-- While activations are to be given up, the pending exception is thrown in every mode but one. -/
lemma raise_of_pending {v : Thread} {e : Thrown} (hpop : 0 < v.framesToPop)
    (he : v.pending = some e) : raise v mode thrown =
      .ok (if mode = .uncommonTrap ∧ thrown.isSome = false then (v, mode)
        else ({ v with pending := none, exception := some e }, .exception)) := by
  cases hthrown : thrown.isSome with
  | true => simp [raise, hthrown, hpop, he, guarantee, ok_bind, pure, Except.pure]
  | false =>
    by_cases hmode : mode = .uncommonTrap
    · simp [raise, hthrown, hmode, pure, Except.pure]
    · simp [raise, hthrown, hpop, hmode, he, guarantee, ok_bind, pure, Except.pure]

lemma forall₂_map_withoutMonitors {ss : List Scope} (hps : Packs f table ss ps) :
    List.Forall₂ Packed.Within ss (ps.map Packed.withoutMonitors) := by
  rw [List.forall₂_map_right_iff]
  exact hps.imp fun _ _ h => h.within_withoutMonitors

/-- A plan that is given up leaves the monitors of all owners, whether they were entered or not. -/
lemma Fetched.released {v w : Thread} (h : Fetched s m t mode l m' u frame f r got thrown v w)
    (hf : got.failed = true) (q : Ref) : (m'.store.monitor q).holdCount got.thread.id +
        ((f.owners got.table r).count q + (f.kept got.table r).count q) =
      (got.memory.store.monitor q).holdCount got.thread.id := by
  obtain ⟨-, ps, ps', -, -, -, hps, habandon, -⟩ := h.packed
  simp only [Unwind.abandon, hf, if_true, bind_eq_ok, pure_eq_ok, Prod.mk.injEq] at habandon
  obtain ⟨store, hrelease, rfl, -, -⟩ := habandon
  rw [release_eq] at hrelease
  rw [← CompiledFrame.count_heldBy (Packed.of_ofScopes hps)]
  exact foldlM_leave_spec hrelease q

/-- A plan comes about from its steps. -/
lemma Placed.fetch_eq {store : Store} {v w : Thread} {mode' : Mode} {ps' : List Packed}
    {sizes : List Nat} (hp : Placed t frame caller f r)
    (hgot : recover s m t.enterHandler mode frame.id f r = .ok got)
    (hthrown : rethrown f got.table r (r.scopes.headD default) = .ok thrown)
    (hpacked : r.scopes.mapM (Packed.ofScope f got.table) = .ok ps)
    (habandon : abandon got.failed got.memory.store got.thread ps = .ok (store, v, ps'))
    (hplan : v.plan = none) (hsizes : Packed.sizes (extraWords v) ps' = .ok sizes)
    (hraise : raise v mode thrown = .ok (w, mode'))
    (hlayout : layout caller frame f (savedResult t.enterHandler mode f r) mode'
      (ps'.headD default) (ps'.getLastD default).method sizes = .ok l) :
    fetch s m t mode = .ok (l, { got.memory with store },
      { w with plan := some { planFor w frame ps' l with failed := got.failed } }) :=
  fetch_of_steps hp.target hp.record hp.scopes hgot hthrown hpacked habandon hplan hsizes hraise
    hlayout

/-- When objects were refused, what is packed of a frame is given up once its monitors are left. -/
lemma fetch_of_refused {e : Thrown} {store : Store} (hp : Placed t frame caller f r)
    (hgot : recover s m t.enterHandler mode frame.id f r = .ok got) (hfailed : got.failed = true)
    (hthread : got.thread = { t.enterHandler with pending := some e })
    (hthrown : rethrown f got.table r (r.scopes.headD default) = .ok thrown)
    (hpacked : r.scopes.mapM (Packed.ofScope f got.table) = .ok ps)
    (hrelease : release t.id got.memory.store ps = .ok store) :
    ∃ l u p, fetch s m t mode = .ok (l, { got.memory with store }, u) ∧
      u.framesToPop = ps.length ∧ u.plan = some p ∧ p.frames = ps.map Packed.withoutMonitors ∧
      if mode = .uncommonTrap ∧ thrown.isSome = false
        then l.mode = mode ∧ u.pending = some e ∧ u.exception = t.exception
        else l.mode = .exception ∧ u.pending = none ∧ u.exception = some e := by
  have hpacks : Packs f got.table r.scopes ps := Packed.of_ofScopes hpacked
  -- The thread as the exceptions are put in place.
  set v : Thread := { t.enterHandler with pending := some e, framesToPop := ps.length } with hv
  have habandon : abandon got.failed got.memory.store got.thread ps =
      .ok (store, v, ps.map Packed.withoutMonitors) := by
    have hrelease' : release t.enterHandler.id got.memory.store ps = .ok store := hrelease
    rw [abandon, if_pos hfailed, hthread, hrelease']
    rfl
  have hpop : 0 < v.framesToPop := by
    rw [hv, ← hpacks.length_eq]
    exact List.length_pos_iff.2 hp.scopes
  have hraise : raise v mode thrown = _ := raise_of_pending (e := e) hpop rfl
  obtain ⟨sizes, hsizes, hlayout⟩ := hp.exists_layout (forall₂_map_withoutMonitors hpacks)
    (savedResult t.enterHandler mode f r)
  by_cases hc : mode = .uncommonTrap ∧ thrown.isSome = false
  · rw [if_pos hc] at hraise
    obtain ⟨l, hl, hmode⟩ := hlayout mode
    refine ⟨l, _, _, hp.fetch_eq hgot hthrown hpacked habandon hp.plan hsizes hraise hl, rfl, rfl,
      rfl, ?_⟩
    rw [if_pos hc]
    exact ⟨hmode, rfl, rfl⟩
  · rw [if_neg hc] at hraise
    obtain ⟨l, hl, hmode⟩ := hlayout .exception
    refine ⟨l, _, _, hp.fetch_eq hgot hthrown hpacked habandon hp.plan hsizes hraise hl, rfl, rfl,
      rfl, ?_⟩
    rw [if_neg hc]
    exact ⟨hmode, rfl, rfl⟩

/-- If objects are refused, and the thread holds the monitors that compiled code holds, then
planning comes to something and the activations are given up. -/
theorem fetch_abandons {o : Restore.Outcome} (hl : s.config.eliminateLocks = true)
    (hmode : mode ≠ .inspect) (hp : Placed t frame caller f r)
    (hk : Restore.Known s f r m.store) (ht : t.restored.get? frame.id = none)
    (ho : Restore.objectsIfEnabled s m t.pending mode f r.objects = .ok o) (hf : o.failed = true)
    (hthrown : rethrown f o.table r (r.scopes.headD default) = .ok thrown)
    (hadmits : Restore.Admits t.id m.store (f.owners o.table r))
    (hheld : ∀ q, (f.kept o.table r).count q ≤ (m.store.monitor q).holdCount t.id) :
    ∃ l m' u, fetch s m t mode = .ok (l, m', u) ∧ Abandons m t mode f r o.table l m' u := by
  obtain ⟨got, hgot, hrecovers⟩ := exists_recover_of_objects (t := t.enterHandler)
    hl hmode hp.readable hk ht ho (fun h => by rw [hf] at h; cases h) hadmits
  have hthread : got.thread = { t.enterHandler with pending := some .outOfMemory } := by
    rw [hrecovers.thread, hf, Restore.pendingAfter, if_pos rfl, if_neg hmode]
  rw [← hrecovers.table] at hthrown
  obtain ⟨ps, hpacked, hpacks⟩ := Packed.exists_ofScopes hp.readable got.table
  have hcount : ∀ q, (heldBy ps).count q + (m.store.monitor q).holdCount t.id =
      (got.memory.store.monitor q).holdCount t.id + (f.kept o.table r).count q := by
    intro q
    have hholds := hrecovers.holdCount q
    rw [CompiledFrame.count_heldBy hpacks, hrecovers.table]
    simp only [Thread.enterHandler] at hholds
    omega
  obtain ⟨store, hstore⟩ := exists_foldlM_leave_iff.2 fun q => by
    have := hheld q
    have := hcount q
    show (heldBy ps).count q ≤ (got.memory.store.monitor q).holdCount t.id
    omega
  have hrelease := (release_eq t.id got.memory.store ps).trans hstore
  obtain ⟨l, u, p, hfetch, hpop, hplan, hframes, hraised⟩ := fetch_of_refused hp hgot
    (hrecovers.failed.trans hf) hthread hthrown hpacked hrelease
  have hlength := hpacks.length_eq
  refine ⟨l, _, u, hfetch, hpop.trans hlength.symm, ⟨p, hplan, ?_, ?_⟩, fun q => ?_, ?_, ?_⟩
  · rw [hframes, List.length_map, hlength]
  · intro x hx
    rw [hframes] at hx
    obtain ⟨y, -, rfl⟩ := List.mem_map.1 hx
    rfl
  · have hspec := foldlM_leave_spec hstore q
    have := hcount q
    show (store.monitor q).holdCount t.id + _ = _
    omega
  · intro hm hrethrows
    rw [if_pos ⟨hm, (isSome_of_rethrown hthrown).trans hrethrows⟩] at hraised
    rw [← hm]
    exact hraised
  · intro hm
    rw [if_neg] at hraised
    · exact hraised
    · rintro ⟨htrap, hnone⟩
      rw [isSome_of_rethrown hthrown] at hnone
      rcases hm with hm | hm
      · exact hm htrap
      · rw [hnone] at hm
        cases hm

/-- Whatever the heap and the box caches refuse of a frame that is in order and throws nothing
again: if anything is refused, planning comes to something and the activations are given up. The
thread holds the monitors that compiled code holds, and nobody else holds one of the others. -/
theorem exists_fetch_refused (hl : s.config.eliminateLocks = true) (hmode : mode ≠ .inspect)
    (hp : Placed t frame caller f r) (hrethrows : r.rethrows = false)
    (hk : Restore.Known s f r m.store) (ht : t.restored.get? frame.id = none)
    (hd : Restore.InOrder s f r.objects) :
    ∃ o, Restore.objectsIfEnabled s m t.pending mode f r.objects = .ok o ∧ (o.failed = true →
      Restore.Admits t.id m.store (f.owners o.table r) →
      (∀ q, (f.kept o.table r).count q ≤ (m.store.monitor q).holdCount t.id) →
      ∃ l m' u, fetch s m t mode = .ok (l, m', u) ∧ Abandons m t mode f r o.table l m' u) := by
  obtain ⟨o, ho⟩ := Restore.exists_objectsIfEnabled hd m t.pending mode
  refine ⟨o, ho, fun hf hadmits hheld => ?_⟩
  have hthrown : rethrown f o.table r (r.scopes.headD default) = .ok none := by
    rw [rethrown, hrethrows]
    rfl
  exact fetch_abandons hl hmode hp hk ht ho hf hthrown hadmits hheld

namespace Refused

open Inlined (inner outer supply)

/-- The activation that was inlined. It holds the monitor of one object twice, of which entering it
was left out once, and those of an eliminated object and of null. -/
def callee : Scope where
  method := inner
  bci := 0
  locals := [.eliminated 7]
  monitors := [⟨.located ⟨.stack 0, .reference⟩, true⟩, ⟨.located ⟨.stack 0, .reference⟩, false⟩,
    ⟨.eliminated 7, true⟩, ⟨.reference none, true⟩]

/-- The activation that was compiled holds the monitor of the same object. -/
def called : Scope where
  method := outer
  bci := 0
  monitors := [⟨.located ⟨.stack 0, .reference⟩, false⟩]

def record : DebugRecord where
  offset := 8
  scopes := [callee, called]
  objects := [{ id := 7, klass := .base "K" [] none, sources := [] }]

def compiled : CompiledFrame where
  region := { Inlined.region with debug := ⟨[record]⟩ }
  slots := #[.ref (some ⟨0⟩), .zero, .zero, .zero]

def top : Frame := ⟨2, Thread.stackBase - 10, 6, 0x1008, .compiled compiled⟩

def entry : Frame := ⟨1, Thread.stackBase - 4, 4, 0x40, .entry⟩

def thread : Thread where
  id := 1
  name := "main"
  stack := [top, entry]
  lastFrameId := 2

/-- The thread holds the monitor of the one object twice, and the heap hands out no other. -/
def memory : Memory where
  heap := { limit := 1, used := 16, allocations := 1 }
  store := ⟨#[{ serial := 1, klass := .base "K" [] none, body := .fields #[]
                monitor := ⟨some 1, 1⟩ }]⟩

lemma placed : Placed thread top entry compiled record where
  target := rfl
  record := rfl
  scopes := List.cons_ne_nil _ _
  readable := by
    have hobject : compiled.Supplies (.located ⟨.stack 0, .reference⟩) := .inr ⟨_, rfl, trivial⟩
    have hnull : compiled.Supplies (.reference none) := trivial
    have heliminated : compiled.Supplies (.eliminated 7) := trivial
    simp only [record, List.forall_mem_cons]
    refine ⟨⟨?_, ?_, ?_⟩, ⟨?_, ?_, ?_⟩, List.forall_mem_nil _⟩ <;>
      simp [callee, called, hobject, hnull, heliminated]
  plan := rfl
  room := by decide

lemma known : Restore.Known supply compiled record memory.store where
  boxes := nofun
  owners := by
    show ∀ q ∈ [(⟨0⟩ : Ref)], memory.store.Has q
    simp [Store.Has, memory]

lemma inOrder : Restore.InOrder supply compiled record.objects where
  ids := by decide
  each := by
    simp only [record, List.forall_mem_singleton]
    refine ⟨⟨_, rfl⟩, fun _ => ?_, fun _ t b => ?_⟩
    · exact Restore.exists_newObject (m := {}) rfl
    · exact Restore.entails_filledBody (t := {}) (.fields #[]) b ⟨_, rfl⟩

lemma held (q : Ref) : [(⟨0⟩ : Ref), ⟨0⟩].count q ≤ (memory.store.monitor q).holdCount 1 := by
  by_cases hq : q = ⟨0⟩
  · subst hq
    decide
  · rw [List.count_eq_zero_of_not_mem (by simp [hq])]
    exact Nat.zero_le _

end Refused

/-- The activations of a frame are given up, and its thread holds nothing any more. -/
theorem exists_fetch_refused_inlined :
    Placed Refused.thread Refused.top Refused.entry Refused.compiled Refused.record ∧
    Restore.Known Inlined.supply Refused.compiled Refused.record Refused.memory.store ∧
    Restore.InOrder Inlined.supply Refused.compiled Refused.record.objects ∧
    ∃ o, Restore.objectsIfEnabled Inlined.supply Refused.memory none .plain Refused.compiled
        Refused.record.objects = .ok o ∧ o.failed = true ∧
      ∃ l m' u, fetch Inlined.supply Refused.memory Refused.thread .plain = .ok (l, m', u) ∧
        Abandons Refused.memory Refused.thread .plain Refused.compiled Refused.record o.table l m'
          u ∧
        (m'.store.monitor ⟨0⟩).holdCount 1 = 0 := by
  obtain ⟨o, ho, h⟩ := exists_fetch_refused (t := Refused.thread) rfl
    (show Mode.plain ≠ .inspect by decide) Refused.placed rfl Refused.known rfl Refused.inOrder
  obtain ⟨o', ho', hfailed, howners, hkept⟩ : ∃ o',
      Restore.objectsIfEnabled Inlined.supply Refused.memory none .plain Refused.compiled
          Refused.record.objects = .ok o' ∧ o'.failed = true ∧
        Refused.compiled.owners o'.table Refused.record = [⟨0⟩] ∧
        Refused.compiled.kept o'.table Refused.record = [⟨0⟩, ⟨0⟩] := ⟨_, rfl, rfl, rfl, rfl⟩
  obtain rfl : o = o' := Except.ok.inj (ho.symm.trans ho')
  obtain ⟨l, m', u, hfetch, habandons⟩ := h hfailed
    (by rw [howners]; simp only [Restore.Admits, List.forall_mem_singleton]; decide)
    (by rw [hkept]; exact Refused.held)
  refine ⟨Refused.placed, Refused.known, Refused.inOrder, o, ho, hfailed, l, m', u, hfetch,
    habandons, ?_⟩
  have hcount := habandons.holdCount ⟨0⟩
  rw [hkept] at hcount
  exact Nat.add_right_cancel (m := 2) hcount

end Unwind
end Bailout
