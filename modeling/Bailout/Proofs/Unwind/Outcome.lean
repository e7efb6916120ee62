import Bailout.Proofs.Restore.Restoration
import Bailout.Proofs.Unwind.Lay
import Bailout.Unwind.Fetch

/-!
# What planning and unpacking come to

A plan that came about, taken apart into the steps that it came about from, and a plan that was
carried out; and what each step leaves of the thread. Nothing is asked of the frame or of the
thread.
-/

namespace Bailout

namespace Restore

variable {f : CompiledFrame} {table : Restored} {mode : Mode} {failed : Bool} {t u : Thread}
  {store store' : Store} {b : Bool}

/-- Threads that differ only in how many relocks were put off. -/
def SameButDeferred (t u : Thread) : Prop := u = { t with deferredRelocks := u.deferredRelocks }

lemma SameButDeferred.trans {t u v : Thread} (h : SameButDeferred t u) (h' : SameButDeferred u v) :
    SameButDeferred t v := by
  rw [SameButDeferred] at *
  rw [h', h]

lemma SameButDeferred.restored {t u : Thread} (h : SameButDeferred t u) :
    u.restored = t.restored := by
  rw [SameButDeferred] at h
  rw [h]

lemma sameButDeferred_relockOne {g : Guard} {st st' : Store × Thread}
    (h : relockOne mode failed st g = .ok st') : SameButDeferred st.2 st'.2 := by
  unfold relockOne at h
  split_ifs at h
  · simp only [bind_eq_ok, pure_eq_ok] at h
    obtain ⟨_, -, rfl⟩ := h
    rfl
  · cases ho : g.owner with
    | none =>
      rw [ho] at h
      cases h
      rfl
    | some r =>
      simp only [ho, enterFor] at h
      split_ifs at h
      · cases h
        rfl
      · simp only [bind_eq_ok, pure_eq_ok] at h
        obtain ⟨_, -, rfl⟩ := h
        rfl
  · cases h
    rfl

lemma sameButDeferred_relock {gs : List Guard} {st st' : Store × Thread}
    (h : gs.foldlM (relockOne mode failed) st = .ok st') : SameButDeferred st.2 st'.2 := by
  induction gs generalizing st with
  | nil =>
    cases h
    rfl
  | cons g gs ih =>
    rw [List.foldlM_cons, bind_eq_ok] at h
    obtain ⟨st₁, hg, h⟩ := h
    exact (sameButDeferred_relockOne hg).trans (ih h)

/-- Relocking may put relocks off, and changes nothing else about the thread. -/
lemma sameButDeferred_relockAll {ss : List Scope} {st : Store × Thread} {x : Bool × Store × Thread}
    (h : relockAll f table mode failed st ss = .ok x) : SameButDeferred st.2 x.2.2 := by
  induction ss generalizing st x with
  | nil =>
    cases h
    rfl
  | cons s ss ih =>
    simp only [relockAll, relock, bind_eq_ok, pure_eq_ok] at h
    obtain ⟨gs, -, _, ⟨st₁, hfold, rfl⟩, x₁, hrest, rfl⟩ := h
    have hlater : SameButDeferred st₁.2 x₁.2.2 := ih hrest
    exact (sameButDeferred_relock hfold).trans hlater

end Restore

namespace Unwind

variable {s : Restore.Supply} {m m' : Memory} {t u v w : Thread} {mode mode' : Mode} {frame : Frame}
  {f : CompiledFrame} {r : DebugRecord} {table : Restored} {l : Layout} {got : Recovery}
  {thrown : Option Thrown} {id : Nat}

/-! ### Layouts -/

/-- Activations with known sizes are laid out if all bytes together are a machine word. -/
lemma layout_eq_ok {caller : Frame} {saved : Option Ref} {x : Packed} {y : Method}
    {sizes : List Nat} : layout caller frame f saved mode x y sizes = .ok l ↔
      wordBytes * callerExtension caller y + sizes.sum < wordLimit ∧
      { replaced := frame.words * wordBytes
        callerAdjustment := wordBytes * callerExtension caller y
        callerParameters := keptParameters caller y
        sizes := sizes.reverse
        pcs := caller.pc :: List.replicate sizes.length interpreterEntry
        registers := f.registers
        returnType := awaited x
        mode := mode
        total := wordBytes * callerExtension caller y + sizes.sum
        savedResult := saved : Layout } = l := by
  simp only [layout, bind_eq_ok, pure_eq_ok, checkedMul_eq_ok, foldrM_checkedAdd_eq_ok,
    checkedAdd_eq_ok, Nat.mul_comm _ wordBytes]
  constructor
  · rintro ⟨_, ⟨-, rfl⟩, _, ⟨-, rfl⟩, _, ⟨hlt, rfl⟩, rfl⟩
    exact ⟨hlt, rfl⟩
  · rintro ⟨hlt, rfl⟩
    exact ⟨_, ⟨Nat.lt_of_le_of_lt (Nat.le_add_right _ _) hlt, rfl⟩, _,
      ⟨Nat.lt_of_le_of_lt (Nat.le_add_left _ _) hlt, rfl⟩, _, ⟨hlt, rfl⟩, rfl⟩

/-! ### The steps of a plan -/

/-- The steps that a plan came about from: what was restored for the frame that is replaced, what
the innermost activation throws again, and the thread before and after the exceptions were put in
place. -/
structure Fetched (s : Restore.Supply) (m : Memory) (t : Thread) (mode : Mode) (l : Layout)
    (m' : Memory) (u : Thread) (frame : Frame) (f : CompiledFrame) (r : DebugRecord)
    (got : Recovery) (thrown : Option Thrown) (v w : Thread) : Prop where
  target : ∃ caller, Unwind.target t = .ok (frame, caller)
  record : frame.record = .ok (f, r)
  scopes : r.scopes ≠ []
  recover : Unwind.recover s m t.enterHandler mode frame.id f r = .ok got
  rethrown : Unwind.rethrown f got.table r (r.scopes.headD default) = .ok thrown
  packed : ∃ caller ps ps' sizes saved, Unwind.target t = .ok (frame, caller) ∧
    r.scopes.mapM (Packed.ofScope f got.table) = .ok ps ∧
    Unwind.abandon got.failed got.memory.store got.thread ps = .ok (m'.store, v, ps') ∧
    Packed.sizes (extraWords v) ps' = .ok sizes ∧
    layout caller frame f saved l.mode (ps'.headD default) (ps'.getLastD default).method sizes =
      .ok l
  plan : v.plan = none
  raise : Unwind.raise v mode thrown = .ok (w, l.mode)
  heap : m'.heap = got.memory.heap
  thread : ∃ p, u = { w with plan := some p } ∧ p.failed = got.failed ∧ p.deoptee = frame.id

theorem fetch_spec (h : fetch s m t mode = .ok (l, m', u)) :
    ∃ frame f r got thrown v w, Fetched s m t mode l m' u frame f r got thrown v w := by
  simp only [fetch, bind_eq_ok, CompiledFrame.scopes, guarantee_eq_ok, pure_eq_ok] at h
  obtain ⟨⟨frame, caller⟩, htarget, ⟨f, r⟩, hrecord, _, ⟨_, hne, rfl⟩, got, hgot, h⟩ := h
  obtain ⟨thrown, hthrown, ps, hps, ⟨store, v, ps'⟩, habandon, _, hplan, h⟩ := h
  obtain ⟨sizes, hsizes, ⟨w, mode'⟩, hraise, l', hlayout, h⟩ := h
  cases h
  obtain rfl : l.mode = mode' := by
    rw [← (layout_eq_ok.1 hlayout).2]
  exact ⟨frame, f, r, got, thrown, v, w, ⟨caller, htarget⟩, hrecord, by simpa using hne, hgot,
    hthrown, ⟨caller, ps, ps', sizes, _, htarget, hps, habandon, hsizes, hlayout⟩,
    by simpa using hplan, hraise, rfl, ⟨_, rfl, rfl, rfl⟩⟩

/-- The frame that was planned for is the one that there is. -/
theorem fetch_spec_of_target {frame caller : Frame} {f : CompiledFrame} {r : DebugRecord}
    (htarget : target t = .ok (frame, caller)) (hrecord : frame.record = .ok (f, r))
    (h : fetch s m t mode = .ok (l, m', u)) :
    ∃ got thrown v w, Fetched s m t mode l m' u frame f r got thrown v w := by
  obtain ⟨frame', f', r', got, thrown, v, w, hfetched⟩ := fetch_spec h
  obtain ⟨caller', htarget'⟩ := hfetched.target
  obtain ⟨rfl, -⟩ : frame = frame' ∧ caller = caller' := by
    simpa using htarget.symm.trans htarget'
  obtain ⟨rfl, rfl⟩ : f = f' ∧ r = r' := by
    simpa using hrecord.symm.trans hfetched.record
  exact ⟨got, thrown, v, w, hfetched⟩

/-- A plan says whether an object was refused. -/
lemma Fetched.failed_of_plan {p : Plan} (h : Fetched s m t mode l m' u frame f r got thrown v w)
    (hp : u.plan = some p) : p.failed = got.failed := by
  obtain ⟨p', hu, hfailed, -⟩ := h.thread
  obtain rfl : p' = p := by
    rw [hu] at hp
    exact Option.some.inj hp
  exact hfailed

lemma Fetched.abandon (h : Fetched s m t mode l m' u frame f r got thrown v w) :
    ∃ ps ps', ps.length = r.scopes.length ∧
      Unwind.abandon got.failed got.memory.store got.thread ps = .ok (m'.store, v, ps') := by
  obtain ⟨caller, ps, ps', sizes, saved, -, hps, habandon, -⟩ := h.packed
  exact ⟨ps, ps', (mapM_eq_ok.1 hps).length_eq.symm, habandon⟩

/-! ### What the steps leave -/

/-- The exception that was pending still is unless an object was refused. -/
lemma pending_of_objectsIfEnabled {pending : Option Thrown} {ds : List Description}
    {o : Restore.Outcome} (h : Restore.objectsIfEnabled s m pending mode f ds = .ok o)
    (hf : o.failed = false) : o.pending = pending := by
  unfold Restore.objectsIfEnabled at h
  split_ifs at h
  · exact (Restore.objects_spec h hf).pending
  · cases h
    rfl

/-- Recovery concerns what was restored early, the pending exception and relocks that are put off,
and the exception stays pending unless an object was refused. -/
theorem recover_spec (h : recover s m t mode id f r = .ok got) :
    got.thread = { t with
      restored := got.thread.restored, pending := got.thread.pending
      deferredRelocks := got.thread.deferredRelocks } ∧
      (got.failed = false → got.thread.pending = t.pending) := by
  unfold recover at h
  cases hr : t.restored.get? id with
  | some table =>
    rw [hr] at h
    cases h
    exact ⟨rfl, fun _ => rfl⟩
  | none =>
    simp only [hr, bind_eq_ok] at h
    obtain ⟨o, ho, h⟩ := h
    split_ifs at h
    · simp only [bind_eq_ok, pure_eq_ok] at h
      obtain ⟨⟨b, store, u⟩, hrelock, rfl⟩ := h
      have hu := Restore.sameButDeferred_relockAll hrelock
      rw [Restore.SameButDeferred] at hu
      refine ⟨?_, fun hf => ?_⟩
      · rw [hu]
      · rw [hu]
        exact pending_of_objectsIfEnabled ho hf
    · cases h
      exact ⟨rfl, pending_of_objectsIfEnabled ho⟩

lemma extraWords_of_recover (h : recover s m t.enterHandler mode id f r = .ok got) :
    extraWords got.thread = extraWords t := by
  rw [(recover_spec h).1]
  rfl

lemma recover_of_restored (ht : t.restored.get? id = some table) :
    recover s m t mode id f r =
      .ok ⟨m, { t with restored := t.restored.erase id }, table, false⟩ := by
  rw [recover, ht]
  rfl

/-- What was not restored early is restored now, once. -/
theorem restores_of_recover (hs : s.restoresObjects = true) (hl : s.config.eliminateLocks = true)
    (hk : Restore.Known s f r m.store) (hwait : t.waitingOn = none)
    (ht : t.restored.get? id = none) (h : recover s m t mode id f r = .ok got)
    (hf : got.failed = false) :
    got.thread = t ∧ Restore.Restores s t.id f r got.table m got.memory := by
  simp only [recover, ht, bind_eq_ok] at h
  obtain ⟨o, ho, h⟩ := h
  rw [if_pos hl, bind_eq_ok] at h
  obtain ⟨⟨b, store, u⟩, hrelock, h⟩ := h
  cases h
  have hthread : { t with pending := o.pending } = t := by
    rw [pending_of_objectsIfEnabled ho hf]
  rw [hthread] at hrelock
  exact Restore.restores_of_relockAll (o := o) hs hk (.inr hwait) ho hf hrelock

/-- Exceptions are put in place, and nothing else changes. -/
lemma raise_spec (h : raise t mode thrown = .ok (u, mode')) :
    u = { t with pending := u.pending, exception := u.exception } := by
  simp only [raise] at h
  split_ifs at h
  · simp only [bind_eq_ok, pure_eq_ok] at h
    obtain ⟨_, -, h⟩ := h
    cases h
    rfl
  · cases h
    rfl
  · simp only [bind_eq_ok, pure_eq_ok] at h
    obtain ⟨_, -, h⟩ := h
    cases h
    rfl
  · cases h
    rfl

/-- If no object was refused, planning changes the thread only in what recovery does, the exceptions
and the plan. -/
theorem Fetched.thread_eq (h : Fetched s m t mode l m' u frame f r got thrown v w)
    (hf : got.failed = false) : m' = got.memory ∧ v = got.thread ∧
      u = { got.thread with
        pending := u.pending, exception := u.exception, plan := u.plan } := by
  obtain ⟨ps, ps', -, habandon⟩ := h.abandon
  simp only [Unwind.abandon, hf, Bool.false_eq_true, if_false, pure_eq_ok, Prod.mk.injEq]
    at habandon
  obtain ⟨hstore, rfl, -⟩ := habandon
  obtain ⟨p, hu, -, -⟩ := h.thread
  have hw := raise_spec h.raise
  refine ⟨?_, rfl, ?_⟩
  · obtain ⟨heap, store⟩ := m'
    obtain rfl : got.memory.store = store := hstore
    rw [show heap = got.memory.heap from h.heap]
  · rw [hu, hw]

/-! ### Carrying a plan out -/

/-- What retiring a plan leaves: it is the last one now, requests to execute a call again are
forgotten, and the thread has left the handler. -/
def retired (t : Thread) : Thread :=
  { t with
    plan := none, lastPlan := t.plan, preservedWords := 0, forcesReexecution := false
    handlerDepth := t.handlerDepth - 1 }

lemma retire_eq_ok :
    retire t = .ok u ↔ t.plan.isSome = true ∧ 0 < t.handlerDepth ∧ u = retired t := by
  simp only [retire, Thread.leaveHandler, Thread.clearForcedReexecution, bind_eq_ok,
    guarantee_eq_ok, ensure_eq_ok, pure_eq_ok, exists_const, retired]
  constructor
  · rintro ⟨hplan, hdepth, rfl⟩
    exact ⟨hplan, of_decide_eq_true hdepth, rfl⟩
  · rintro ⟨hplan, hdepth, rfl⟩
    exact ⟨hplan, decide_eq_true hdepth, rfl⟩

lemma unpack_spec {k : Unpacker} {verify : Bool} {ty : BasicType}
    (h : unpack k verify t mode = .ok (ty, u)) :
    ∃ p v, t.plan = some p ∧ k.run t p mode = .ok v ∧ u = retired v := by
  unfold unpack at h
  cases hp : t.plan with
  | none =>
    rw [hp] at h
    cases h
  | some p =>
    simp only [hp, bind_eq_ok] at h
    obtain ⟨v, hv, w, hw, h⟩ := h
    obtain ⟨-, -, rfl⟩ := retire_eq_ok.1 hw
    split_ifs at h
    · simp only [bind_eq_ok] at h
      obtain ⟨_, -, h⟩ := h
      cases h
      exact ⟨p, v, rfl, hv, rfl⟩
    · cases h
      exact ⟨p, v, rfl, hv, rfl⟩

lemma dropDeoptee_spec {p : Plan} (h : dropDeoptee t p = .ok u) :
    ∃ stubs f, t.stack = stubs ++ f :: u.stack ∧ f.id = p.deoptee ∧ SameButFrames t u ∧
      u.lastFrameId = t.lastFrameId := by
  simp only [dropDeoptee, bind_eq_ok, guarantee_eq_ok, pure_eq_ok, Thread.pop,
    Thread.dropStubs] at h
  obtain ⟨_, htop, rfl⟩ := h
  have hsplit : t.stack.takeWhile (·.kind.isStub) ++ t.stack.dropWhile (·.kind.isStub) = t.stack :=
    List.takeWhile_append_dropWhile
  cases hd : t.stack.dropWhile (·.kind.isStub) with
  | nil =>
    rw [hd] at htop
    cases htop
  | cons f fs =>
    rw [hd] at htop hsplit
    exact ⟨_, f, hsplit.symm, by simpa using htop, rfl, rfl⟩

/-- Whoever carries out a plan changes nothing but frames. -/
lemma sameButFrames_run {k : Unpacker} {p : Plan} (h : k.run t p mode = .ok u) :
    SameButFrames t u := by
  have hreplace : ∀ v, replace t p mode = .ok v → SameButFrames t v := by
    intro v hv
    rw [replace, bind_eq_ok] at hv
    obtain ⟨w, hw, hv⟩ := hv
    obtain ⟨-, -, -, -, hsame, -⟩ := dropDeoptee_spec hw
    exact hsame.trans (sameButFrames_lay hv)
  have honTop : ∀ v g, onTop v g = .ok u → SameButFrames t v → SameButFrames t u := by
    intro v g hu hv
    apply hv.trans
    unfold onTop at hu
    split at hu
    · cases hu
      rfl
    · simp only [bind_eq_ok, pure_eq_ok] at hu
      obtain ⟨_, -, rfl⟩ := hu
      rfl
  cases k with
  | faithful => exact hreplace u h
  | lazy =>
    cases h
    rfl
  | empty =>
    simp only [Unpacker.run, bind_eq_ok, pure_eq_ok] at h
    obtain ⟨v, hv, rfl⟩ := h
    exact (hreplace v hv).trans rfl
  | short =>
    simp only [Unpacker.run, bind_eq_ok, pure_eq_ok] at h
    obtain ⟨v, hv, rfl⟩ := h
    exact (hreplace v hv).trans rfl
  | skewed =>
    simp only [Unpacker.run, bind_eq_ok] at h
    obtain ⟨v, hv, h⟩ := h
    exact honTop v _ h (hreplace v hv)
  | entry =>
    simp only [Unpacker.run, bind_eq_ok] at h
    obtain ⟨v, hv, h⟩ := h
    exact honTop v _ h (hreplace v hv)

/-- The faithful unpacker takes the compiled frame away for good. -/
theorem ne_of_mem_replace {p : Plan} (ht : t.Numbered) (h : replace t p mode = .ok u) :
    ∀ f ∈ u.stack, f.id ≠ p.deoptee := by
  rw [replace, bind_eq_ok] at h
  obtain ⟨v, hv, h⟩ := h
  obtain ⟨stubs, f, hstack, hid, -, hlast⟩ := dropDeoptee_spec hv
  have hids := ht.ids
  rw [hstack, List.map_append, List.map_cons, List.pairwise_append, List.pairwise_cons] at hids
  refine ne_of_mem_lay ?_ ?_ h
  · rw [hlast, ← hid]
    exact ht.last f (by simp [hstack])
  · intro g hg
    rw [← hid]
    exact Nat.ne_of_lt (hids.2.1.1 g.id (List.mem_map_of_mem hg))

end Unwind
end Bailout
