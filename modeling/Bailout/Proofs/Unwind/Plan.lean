import Bailout.Proofs.Unwind.Outcome

/-!
# Plans that come about

When the newest compiled frame of a thread can be planned for, and what the plan is then: the values
of the activations, packed, and the words that they take, computed without regard to machine
arithmetic. That a plan comes about is proved, not assumed.
-/

namespace Bailout.Unwind

variable {s : Restore.Supply} {m m' : Memory} {t u : Thread} {mode mode' : Mode}
  {frame caller : Frame} {below : List Frame} {f : CompiledFrame} {r : DebugRecord}
  {table : Restored} {got : Recovery} {ps : List Packed} {l : Layout}

/-- The words of the interpreted frames in place of a compiled one, innermost first. The outermost
one takes what its caller is extended by. -/
def plannedWords (caller : Frame) (ss : List Scope) : List Nat :=
  extendLast (callerExtension caller (ss.getLastD default).method) (Scope.wordsFrom 0 0 true ss)

/-- The eliminated objects and monitors of a frame can be made good, and these are the objects:
either that was done early, or no object is refused now and no monitor belongs to another thread. -/
inductive Restorable (s : Restore.Supply) (m : Memory) (t : Thread) (mode : Mode) (id : Nat)
    (f : CompiledFrame) (r : DebugRecord) : Restored → Prop where
  | early {table : Restored} (h : t.restored.get? id = some table) :
      Restorable s m t mode id f r table
  | now {o : Restore.Outcome} (h : t.restored.get? id = none)
      (ho : Restore.objectsIfEnabled s m t.pending mode f r.objects = .ok o)
      (hf : o.failed = false)
      (hadmits : ∀ rs, f.eliminatedOwners o.table r.scopes.reverse = .ok rs →
        Restore.Admits t.id o.memory.store rs) : Restorable s m t mode id f r o.table

/-- The newest compiled frame of a thread can be planned for. The record is well-formed: it has an
activation, every place that it names can be read, and it describes the owners of monitors that were
eliminated. The thread has no plan, no request that forces a call to be executed again and no
failure left over. There is room for the planned words. -/
structure Ready (t : Thread) (frame caller : Frame) (below : List Frame) (f : CompiledFrame)
    (r : DebugRecord) : Prop where
  stack : t.dropStubs.stack = frame :: caller :: below
  tiled : t.Tiled
  record : frame.record = .ok (f, r)
  scopes : r.scopes ≠ []
  readable : ∀ x ∈ r.scopes, x.Readable f
  described : ∀ x ∈ r.scopes, ∀ h ∈ x.monitors, ∀ id, h.owner = .eliminated id →
    ∃ d ∈ r.objects, d.id = id
  rethrows : r.rethrows = false
  plan : t.plan = none
  forcesReexecution : t.forcesReexecution = false
  framesToPop : t.framesToPop = 0
  room : (plannedWords caller r.scopes).sum ≤ frame.callerSp

/-! ### What planning asks for -/

/-- The plan to replace a compiled frame by packed activations. -/
def planFor (t : Thread) (frame : Frame) (ps : List Packed) (l : Layout) : Plan where
  owner := t.id
  deoptee := frame.id
  pc := frame.logicalPc
  sp := frame.sp
  callerSp := frame.callerSp
  frames := ps
  failed := false
  layout := l

/-- A plan comes about from its steps. -/
lemma fetch_of_steps {store : Store} {v w : Thread} {thrown : Option Thrown} {ps' : List Packed}
    {sizes : List Nat} (htarget : target t = .ok (frame, caller))
    (hrecord : frame.record = .ok (f, r)) (hscopes : r.scopes ≠ [])
    (hgot : recover s m t.enterHandler mode frame.id f r = .ok got)
    (hthrown : rethrown f got.table r (r.scopes.headD default) = .ok thrown)
    (hpacked : r.scopes.mapM (Packed.ofScope f got.table) = .ok ps)
    (habandon : abandon got.failed got.memory.store got.thread ps = .ok (store, v, ps'))
    (hplan : v.plan = none) (hsizes : Packed.sizes (extraWords v) ps' = .ok sizes)
    (hraise : raise v mode thrown = .ok (w, mode'))
    (hlayout : layout caller frame f (savedResult t.enterHandler mode f r) mode'
      (ps'.headD default) (ps'.getLastD default).method sizes = .ok l) :
    fetch s m t mode = .ok (l, { got.memory with store },
      { w with plan := some { planFor w frame ps' l with failed := got.failed } }) := by
  have htarget' : target t.enterHandler = .ok (frame, caller) := htarget
  have hscopes' : f.scopes r = .ok r.scopes := by
    have : r.scopes.isEmpty = false := by simpa using hscopes
    rw [CompiledFrame.scopes, this]
    rfl
  have hnone : v.plan.isNone = true := Option.isNone_iff_eq_none.2 hplan
  simp only [fetch, htarget', ok_bind, hrecord, hscopes', hgot, hthrown, hpacked, habandon,
    hnone, guarantee, if_true, hsizes, hraise, hlayout]
  rfl

/-- Everything that a plan needs is there, and no object is refused. Nothing is thrown again, and
the exceptions are left out of account. -/
structure Plannable (s : Restore.Supply) (m : Memory) (t : Thread) (mode : Mode)
    (frame caller : Frame) (f : CompiledFrame) (r : DebugRecord) (got : Recovery)
    (ps : List Packed) (l : Layout) : Prop where
  target : target t = .ok (frame, caller)
  record : frame.record = .ok (f, r)
  scopes : r.scopes ≠ []
  recover : recover s m t.enterHandler mode frame.id f r = .ok got
  restored : got.failed = false
  rethrows : r.rethrows = false
  packed : r.scopes.mapM (Packed.ofScope f got.table) = .ok ps
  plan : t.plan = none
  laid : ∃ sizes, Packed.sizes (extraWords t) ps = .ok sizes ∧
    layout caller frame f (savedResult t mode f r) mode (ps.headD default)
      (ps.getLastD default).method sizes = .ok l

/-- The mode does not matter for how activations are laid out. -/
lemma layout_mode (mode' : Mode) {saved : Option Ref} {x : Packed} {y : Method} {sizes : List Nat}
    (h : layout caller frame f saved mode x y sizes = .ok l) :
    layout caller frame f saved mode' x y sizes = .ok { l with mode := mode' } := by
  obtain ⟨hlt, rfl⟩ := layout_eq_ok.1 h
  exact layout_eq_ok.2 ⟨hlt, rfl⟩

namespace Plannable

lemma thread (h : Plannable s m t mode frame caller f r got ps l) :
    got.thread = { t.enterHandler with
      restored := got.thread.restored, deferredRelocks := got.thread.deferredRelocks } := by
  obtain ⟨hthread, hpending⟩ := recover_spec h.recover
  rw [hpending h.restored] at hthread
  exact hthread

/-- All that is left of planning is to put the exceptions in place. -/
theorem fetch_eq (h : Plannable s m t mode frame caller f r got ps l)
    (hraise : raise got.thread mode none = .ok (u, mode')) :
    fetch s m t mode = .ok ({ l with mode := mode' }, got.memory,
      { u with plan := some (planFor u frame ps { l with mode := mode' }) }) := by
  obtain ⟨sizes, hsizes, hlayout⟩ := h.laid
  replace hlayout := layout_mode mode' hlayout
  rw [← extraWords_of_recover h.recover] at hsizes
  have hrethrown : rethrown f got.table r (r.scopes.headD default) = .ok none := by
    rw [rethrown, h.rethrows]
    rfl
  have habandon : abandon got.failed got.memory.store got.thread ps =
      .ok (got.memory.store, got.thread, ps) := by
    rw [abandon, h.restored]
    rfl
  have hplan : got.thread.plan = none := by
    rw [h.thread]
    exact h.plan
  refine (fetch_of_steps h.target h.record h.scopes h.recover hrethrown h.packed habandon hplan
    hsizes hraise hlayout).trans ?_
  rw [h.restored]
  rfl

/-- If planning comes to something, then the exceptions were put in place. -/
lemma raise_of_fetch {l' : Layout} (h : Plannable s m t mode frame caller f r got ps l)
    (hfetch : fetch s m t mode = .ok (l', m', u)) :
    ∃ v, raise got.thread mode none = .ok (v, l'.mode) := by
  obtain ⟨got', thrown, v, w, hfetched⟩ := fetch_spec_of_target h.target h.record hfetch
  obtain rfl : got = got' := by
    simpa using h.recover.symm.trans hfetched.recover
  obtain rfl : none = thrown := by
    have hthrown := hfetched.rethrown
    rw [rethrown, h.rethrows] at hthrown
    exact Except.ok.inj hthrown
  rw [← (hfetched.thread_eq h.restored).2.1]
  exact ⟨w, hfetched.raise⟩

end Plannable

/-! ### Restoring -/

/-- What was eliminated is made good, and the thread only forgets what was restored early. -/
lemma exists_recover (hs : s.restoresObjects = true) (hmode : mode ≠ .inspect)
    (hr : Ready t frame caller below f r)
    (ht : Restorable s m t mode frame.id f r table) :
    ∃ got, recover s m t mode frame.id f r = .ok got ∧ got.table = table ∧ got.failed = false ∧
      got.thread = { t with restored := got.thread.restored } := by
  cases ht with
  | early h => exact ⟨_, by rw [recover, h]; rfl, rfl, rfl, rfl⟩
  | @now o h ho hf hadmits =>
    have hcomplete := Restore.objectsIfEnabled_spec hs ho hf
    have hthread : { t with pending := o.pending } = t := by rw [hcomplete.pending]
    rw [recover, h]
    simp only [ho, ok_bind, hthread]
    split_ifs
    · obtain ⟨rs, hrs⟩ : ∃ rs, f.eliminatedOwners o.table r.scopes.reverse = .ok rs := by
        obtain ⟨gss, hgss⟩ := exists_mapM_eq_ok fun x hx =>
          CompiledFrame.exists_guards (hr.readable x (List.mem_reverse.1 hx)) o.table
        exact ⟨_, by rw [CompiledFrame.eliminatedOwners, hgss]; rfl⟩
      have hthere : ∀ x ∈ r.scopes.reverse, ∀ h ∈ x.monitors, ∀ id, h.owner = .eliminated id →
          (o.table.get id).isSome = true := by
        intro x hx h hh id hid
        obtain ⟨d, hd, rfl⟩ := hr.described x (List.mem_reverse.1 hx) h hh id hid
        exact hcomplete.there d hd
      obtain ⟨b, store, hrelock, -⟩ :=
        Restore.exists_relockAll (.inl hmode) hrs hthere (hadmits rs hrs)
      rw [hrelock]
      exact ⟨_, rfl, rfl, hf, rfl⟩
    · exact ⟨_, rfl, rfl, hf, rfl⟩

/-! ### The layout -/

lemma Ready.callerSp_eq (hr : Ready t frame caller below f r) : frame.callerSp = caller.sp := by
  have h := hr.tiled.dropStubs
  rw [Thread.Tiled, hr.stack] at h
  exact h.1

/-- What fits on a stack can be counted in bytes. -/
lemma Ready.bytes_lt (hr : Ready t frame caller below f r) :
    wordBytes * (plannedWords caller r.scopes).sum < wordLimit := by
  have h := hr.tiled.dropStubs
  rw [Thread.Tiled, hr.stack] at h
  have hsp : caller.sp ≤ Thread.stackBase :=
    Thread.Tiled.sp_le (t := { t with stack := caller :: below }) h.2
  have hle := Nat.le_trans hr.room (hr.callerSp_eq ▸ hsp)
  calc wordBytes * (plannedWords caller r.scopes).sum
      ≤ wordBytes * Thread.stackBase := Nat.mul_le_mul_left _ hle
    _ < wordLimit := by decide

lemma sum_plannedWords (hr : Ready t frame caller below f r) :
    (plannedWords caller r.scopes).sum = (Scope.wordsFrom 0 0 true r.scopes).sum +
      callerExtension caller (r.scopes.getLastD default).method := by
  refine sum_extendLast fun h => hr.scopes (List.eq_nil_of_length_eq_zero ?_)
  rw [← Scope.length_wordsFrom r.scopes, h, List.length_nil]

/-- The activations of a record were packed. -/
abbrev Packs (f : CompiledFrame) (table : Restored) : List Scope → List Packed → Prop :=
  List.Forall₂ (Packed.Of f table)

/-- The oldest activation is of the method of the oldest scope. -/
lemma Packed.method_getLastD {ss : List Scope} {ps : List Packed}
    (h : List.Forall₂ (fun s p => p.method = s.method) ss ps) (hss : ss ≠ []) :
    (ps.getLastD default).method = (ss.getLastD default).method := by
  induction h with
  | nil => exact absurd rfl hss
  | @cons s p ss ps hp hps ih =>
    cases hps with
    | nil => exact hp
    | cons => exact ih (List.cons_ne_nil _ _)

/-- The layout of the interpreted frames that are to replace a compiled one. -/
def plannedLayout (frame caller : Frame) (f : CompiledFrame) (r : DebugRecord) (mode : Mode)
    (saved : Option Ref) : Layout where
  replaced := frame.words * wordBytes
  callerAdjustment := callerExtension caller (r.scopes.getLastD default).method * wordBytes
  callerParameters := keptParameters caller (r.scopes.getLastD default).method
  sizes := ((Scope.wordsFrom 0 0 true r.scopes).map (wordBytes * ·)).reverse
  pcs := caller.pc :: List.replicate r.scopes.length interpreterEntry
  registers := f.registers
  returnType := (((r.scopes.headD default).method.call? (r.scopes.headD default).bci).map
    Call.result).getD .illegal
  mode := mode
  total := wordBytes * (plannedWords caller r.scopes).sum
  savedResult := saved

lemma Packs.awaited_headD {ss : List Scope} {ps : List Packed} (h : Packs f table ss ps)
    (hss : ss ≠ []) : awaited (ps.headD default) =
      (((ss.headD default).method.call? (ss.headD default).bci).map Call.result).getD .illegal := by
  cases h with
  | nil => exact absurd rfl hss
  | cons hp hps => rw [List.headD_cons, List.headD_cons, awaited, hp.method, hp.bci]

lemma layout_eq (mode : Mode) (hr : Ready t frame caller below f r) {ps : List Packed}
    (hps : Packs f table r.scopes ps) (saved : Option Ref) :
    layout caller frame f saved mode (ps.headD default) (ps.getLastD default).method
        ((Scope.wordsFrom 0 0 true r.scopes).map (wordBytes * ·)) =
      .ok (plannedLayout frame caller f r mode saved) := by
  have hbytes := hr.bytes_lt
  have hsum := sum_plannedWords hr
  have htotal : wordBytes * callerExtension caller (r.scopes.getLastD default).method +
      ((Scope.wordsFrom 0 0 true r.scopes).map (wordBytes * ·)).sum =
        wordBytes * (plannedWords caller r.scopes).sum := by
    rw [sum_map_wordBytes, hsum, Nat.mul_add, Nat.add_comm]
  rw [Packed.method_getLastD (hps.imp fun _ _ h => h.method) hr.scopes]
  refine layout_eq_ok.2 ⟨htotal ▸ hbytes, ?_⟩
  rw [htotal, hps.awaited_headD hr.scopes, List.length_map, Scope.length_wordsFrom, plannedLayout,
    Nat.mul_comm (callerExtension _ _)]

/-- A frame that is ready to be planned for is planned for, in the mode that was asked for. The
thread enters the handler, and apart from that and its plan it only forgets what was restored
early. -/
theorem exists_fetch (hs : s.restoresObjects = true) (hmode : mode ≠ .inspect)
    (hr : Ready t frame caller below f r) (ht : Restorable s m t mode frame.id f r table) :
    ∃ m' u ps, Packs f table r.scopes ps ∧
      fetch s m t mode = .ok (plannedLayout frame caller f r mode (savedResult t mode f r), m', u) ∧
      u = { t with
        restored := u.restored
        plan := some (planFor t frame ps
          (plannedLayout frame caller f r mode (savedResult t mode f r)))
        handlerDepth := t.handlerDepth + 1 } := by
  have hr' : Ready t.enterHandler frame caller below f r :=
    ⟨hr.stack, hr.tiled, hr.record, hr.scopes, hr.readable, hr.described, hr.rethrows, hr.plan,
      hr.forcesReexecution, hr.framesToPop, hr.room⟩
  have ht' : Restorable s m t.enterHandler mode frame.id f r table := by
    cases ht with
    | early h => exact .early h
    | now h ho hf hadmits => exact .now h ho hf hadmits
  obtain ⟨got, hgot, rfl, hfailed, hthread⟩ := exists_recover hs hmode hr' ht'
  obtain ⟨ps, hps, hpacks⟩ := Packed.exists_ofScopes hr.readable got.table
  have hplannable : Plannable s m t mode frame caller f r got ps
      (plannedLayout frame caller f r mode (savedResult t mode f r)) := by
    refine ⟨?_, hr.record, hr.scopes, hgot, hfailed, hr.rethrows, hps, hr.plan, _, ?_,
      layout_eq mode hr hpacks _⟩
    · rw [target, hr.stack]
      rfl
    · rw [extraWords, if_neg (Bool.eq_false_iff.1 hr.forcesReexecution)]
      rw [← Packed.wordsFrom_eq hpacks]
      refine Packed.sizesFrom_of_sum_lt
        (Nat.lt_of_le_of_lt (Nat.mul_le_mul_left _ ?_) hr.bytes_lt)
      rw [Packed.wordsFrom_eq hpacks, sum_plannedWords hr]
      exact Nat.le_add_right _ _
  have hraise : raise got.thread mode none = .ok (got.thread, mode) := by
    have hpop : got.thread.framesToPop = 0 := by
      rw [hthread]
      exact hr.framesToPop
    simp [raise, hpop, pure, Except.pure]
  refine ⟨_, _, ps, hpacks, hplannable.fetch_eq hraise, ?_⟩
  rw [hthread]
  rfl

end Bailout.Unwind
