import Bailout.Proofs.Unwind.Outcome
import Bailout.Proofs.Unwind.Plan

/-!
# Unpacking implements the logical frames

A compiled frame that is planned for and unpacked leaves one interpreted frame for each of its
activations, the innermost one on top, with the values that the debug record describes. Whatever was
below the compiled frame stays. Checking the unpacked frames comes to nothing else than comparing
the depths of their expression stacks with those that are known for their bytecodes.
-/

namespace Bailout.Unwind

section

variable {s : Restore.Supply} {m : Memory} {t u : Thread} {mode : Mode} {frame caller : Frame}
  {below : List Frame} {f : CompiledFrame} {r : DebugRecord} {table : Restored} {l : Layout}

/-! ### What an activation comes to -/

/-- The value that the innermost activation gets for the call that it waits for: one if the compiled
frame was left by returning, the activation does not execute its bytecode again, and the call
returns a value. -/
def callResult (f : CompiledFrame) (r : DebugRecord) (mode : Mode) (s : Scope) : Option Word :=
  if mode = .plain ∧ s.reexecute = false then
    match (s.method.call? s.bci).map Call.result with
    | none | some .void | some .illegal => none
    | some ty =>
      if ty.isReference then some (.ref (if r.returnsReference then f.savedResult else none))
      else some (.raw ((f.registers[0]?.map Word.bits).getD 0))
  else none

/-- There is a call result exactly if the frame returned normally from a call that returns a value
and the bytecode is not executed again. -/
theorem isSome_callResult (f : CompiledFrame) (r : DebugRecord) (mode : Mode) (s : Scope) :
    (callResult f r mode s).isSome = true ↔ mode = .plain ∧ s.reexecute = false ∧
      ∃ c, s.method.call? s.bci = some c ∧ c.result ≠ .void ∧ c.result ≠ .illegal := by
  by_cases h : mode = .plain ∧ s.reexecute = false
  · rw [callResult, if_pos h]
    cases hc : s.method.call? s.bci with
    | none => simp
    | some c =>
      obtain ⟨parameters, result, passesMember⟩ := c
      cases result <;> simp [BasicType.isReference, h]
  · rw [callResult, if_neg h]
    simp only [Option.isSome_none, Bool.false_eq_true, false_iff]
    rintro ⟨hm, hr, -⟩
    exact h ⟨hm, hr⟩

/-- An interpreted activation implements a scope of a compiled frame: it is the same method at the
same bytecode, with the values of the scope, locals filled up with zeros, and on top of the
expression stack what the scope gets for a call. -/
structure Implements (f : CompiledFrame) (table : Restored) (s : Scope) (result : Option Word)
    (again : Bool) (a : InterpretedFrame) : Prop where
  method : a.method = s.method
  bci : a.bci = s.bci
  locals : ∃ ws, f.resolveAll table s.locals = .ok ws ∧ a.locals = padded ws s.method.locals
  expressions : ∃ ws, f.resolveAll table s.expressions = .ok ws ∧
    a.expressions = ws ++ result.toList
  monitors : ∃ gs, f.guards table s = .ok gs ∧ a.monitors = gs.map Packed.lockOf
  reexecute : a.reexecute = (s.reexecute || again)

/-- A frame is in the interpreter and implements a scope. -/
def ImplementedBy (f : CompiledFrame) (table : Restored) (s : Scope) (result : Option Word)
    (again : Bool) (g : Frame) : Prop :=
  g.pc = interpreterEntry ∧ ∃ a, g.kind = .interpreted a ∧ Implements f table s result again a

/-- The activation that is made of packed values implements the scope that they were taken from. -/
lemma implements_activate (l : Layout) (mode : Mode) {x : Scope} {p : Packed}
    (hp : Packed.Of f table x p) (isTop : Bool) :
    Implements f table x
      (if isTop && mode = .plain && !reexecutes p isTop mode then l.result? else none)
      (isTop && mode = .reexecute) (activate l p isTop mode) where
  method := hp.method
  bci := hp.bci
  locals := ⟨p.locals, hp.locals, by rw [activate, hp.method]⟩
  expressions := ⟨p.expressions, hp.expressions, by rw [activate, resultFor]; split_ifs <;> rfl⟩
  monitors := hp.monitors
  reexecute := by rw [activate, reexecutes, hp.reexecute]

/-- The result that the plan provides for the innermost activation. -/
lemma result_plannedLayout {x : Scope} {xs : List Scope} {p : Packed} (hr : r.scopes = x :: xs)
    (hp : Packed.Of f table x p) (hforces : t.forcesReexecution = false) :
    (if true && mode = .plain && !reexecutes p true mode then
      (plannedLayout frame caller f r mode (savedResult t mode f r)).result? else none) =
      callResult f r mode x := by
  unfold callResult reexecutes
  rw [hp.reexecute]
  by_cases hm : mode = .plain
  · subst hm
    cases hx : x.reexecute with
    | true => simp
    | false =>
      simp only [Layout.result?, plannedLayout, hr, List.headD_cons, savedResult, hforces]
      cases hc : x.method.call? x.bci with
      | none => simp
      | some c =>
        obtain ⟨parameters, result, passesMember⟩ := c
        cases result <;> simp [BasicType.isReference]
  · simp [hm]

/-! ### The words of the plan -/

lemma rooms_eq {ws : List Nat} {n : Nat} (hsizes : l.sizes = (ws.map (wordBytes * ·)).reverse)
    (hn : l.callerAdjustment = n * wordBytes) : rooms l = (extendLast n ws).reverse := by
  have hwords : l.frameWords = ws.reverse := by
    rw [Layout.frameWords, hsizes, ← List.map_reverse, List.map_map]
    refine (List.map_congr_left fun w _ => ?_).trans (List.map_id _)
    exact Nat.mul_div_cancel_left w (by decide)
  have hdiv : l.callerAdjustment / wordBytes = n := by
    rw [hn]
    exact Nat.mul_div_cancel n (by decide)
  rw [rooms, hwords, hdiv]
  rcases List.eq_nil_or_concat ws with rfl | ⟨vs, w, rfl⟩
  · rfl
  · rw [List.concat_eq_append, extendLast_append, List.reverse_append, List.reverse_append]
    rfl

lemma zip_reverse {α β : Type} {as : List α} {bs : List β} (h : as.length = bs.length) :
    as.reverse.zip bs.reverse = (as.zip bs).reverse := by
  rw [List.zip_eq_zipWith, List.zip_eq_zipWith, List.reverse_zipWith h]

lemma laid_eq {ps : List Packed} (hps : Packs f table r.scopes ps) (saved : Option Ref) :
    ps.reverse.zip ((rooms (plannedLayout frame caller f r mode saved)).zip
        (plannedLayout frame caller f r mode saved).pcs.tail) =
      (ps.zip ((plannedWords caller r.scopes).zip
        (List.replicate r.scopes.length interpreterEntry))).reverse := by
  have hlength : (plannedWords caller r.scopes).length = r.scopes.length := by
    rw [plannedWords, length_extendLast, Scope.length_wordsFrom]
  rw [rooms_eq (l := plannedLayout frame caller f r mode saved) rfl rfl]
  rw [show (plannedLayout frame caller f r mode saved).pcs.tail =
    (List.replicate r.scopes.length interpreterEntry).reverse from List.reverse_replicate.symm]
  rw [← plannedWords, zip_reverse (by rw [hlength, List.length_replicate]), zip_reverse]
  rw [List.length_zip, hlength, List.length_replicate, Nat.min_self]
  exact hps.length_eq.symm

/-- Each frame that is laid down for a caller implements its scope and takes the planned words. -/
lemma implementedBy_of_lays {ss : List Scope} {ps : List Packed} (hps : Packs f table ss ps)
    {ws : List Nat} (hws : ws.length = ss.length) {gs : List Frame}
    (hgs : List.Forall₂ (fun x g => Lays l mode false x.1 x.2.1 x.2.2 g)
      (ps.zip (ws.zip (List.replicate ss.length interpreterEntry))) gs) :
    List.Forall₂ (fun x g => ImplementedBy f table x none false g) ss gs ∧
      gs.map Frame.words = ws := by
  induction hps generalizing ws gs with
  | nil =>
    cases hgs
    exact ⟨.nil, (List.eq_nil_of_length_eq_zero hws).symm⟩
  | @cons x p ss ps hp hps ih =>
    cases ws with
    | nil => cases hws
    | cons w ws =>
      cases hgs with
      | @cons _ g _ gs hg hgs =>
        obtain ⟨hrest, hwords⟩ := ih (Nat.succ.inj hws) hgs
        refine ⟨.cons ⟨hg.pc, _, hg.kind, ?_⟩ hrest, ?_⟩
        · simpa using implements_activate l mode hp false
        · rw [List.map_cons, hg.words, hwords]

lemma map_words_zip {ps : List Packed} {ws pcs : List Nat} (hw : ws.length = ps.length)
    (hp : pcs.length = ps.length) : (ps.zip (ws.zip pcs)).map (·.2.1) = ws := by
  induction ps generalizing ws pcs with
  | nil => exact (List.eq_nil_of_length_eq_zero hw).symm
  | cons p ps ih =>
    cases ws with
    | nil => cases hw
    | cons w ws =>
      cases pcs with
      | nil => cases hp
      | cons pc pcs =>
        exact congrArg (w :: ·) (ih (Nat.succ.inj hw) (Nat.succ.inj hp))

/-! ### Carrying out the plan -/

lemma dropDeoptee_eq (hu : u.dropStubs.stack = frame :: caller :: below) {p : Plan}
    (hp : p.deoptee = frame.id) :
    dropDeoptee u p = .ok { u with stack := caller :: below } := by
  have hu' : u.stack.dropWhile (·.kind.isStub) = frame :: caller :: below := hu
  simp [dropDeoptee, Thread.pop, Thread.dropStubs, hu', hp, guarantee, pure, Except.pure, bind,
    Except.bind]

/-- What the faithful unpacker makes of a plan: a frame for the innermost scope on top of frames for
the others, on what was below the deoptimized frame. -/
structure Laid (mode : Mode) (frame caller : Frame) (below : List Frame) (f : CompiledFrame)
    (r : DebugRecord) (table : Restored) (result : Option Word) (x : Scope) (xs : List Scope)
    (g : Frame) (gs : List Frame) (v : Thread) : Prop where
  stack : v.stack = g :: gs ++ caller :: below
  tiled : v.Tiled
  innermost : ImplementedBy f table x result (mode = .reexecute) g
  outer : List.Forall₂ (fun y h => ImplementedBy f table y none false h) xs gs
  words : (g :: gs).map Frame.words = plannedWords caller r.scopes
  sp : v.sp + (plannedWords caller r.scopes).sum = frame.callerSp

lemma exists_replace (mode : Mode) {x : Scope} {xs : List Scope}
    (hr : Ready t frame caller below f r) (hscopes : r.scopes = x :: xs) {ps : List Packed}
    (hps : Packs f table r.scopes ps) (hu : u.dropStubs.stack = frame :: caller :: below) :
    ∃ v g gs, replace u (planFor t frame ps
          (plannedLayout frame caller f r mode (savedResult t mode f r))) mode = .ok v ∧
      SameButFrames u v ∧
      Laid mode frame caller below f r table (callResult f r mode x) x xs g gs v := by
  set l := plannedLayout frame caller f r mode (savedResult t mode f r) with hl
  set base : Thread := { u with stack := caller :: below } with hbase
  have hsp : base.sp = frame.callerSp := hr.callerSp_eq.symm
  have htiled : base.Tiled := by
    have h := hr.tiled.dropStubs
    rw [Thread.Tiled, hr.stack] at h
    exact h.2
  have hlength : (plannedWords caller r.scopes).length = xs.length + 1 := by
    rw [plannedWords, length_extendLast, Scope.length_wordsFrom, hscopes, List.length_cons]
  -- The innermost activation is taken apart from the others.
  obtain ⟨p, ps, rfl, hp, hps'⟩ : ∃ p ps', ps = p :: ps' ∧ Packed.Of f table x p ∧
      Packs f table xs ps' := by
    rw [hscopes] at hps
    cases hps with
    | cons hp hps' => exact ⟨_, _, rfl, hp, hps'⟩
  obtain ⟨w, ws, hwords⟩ := List.exists_cons_of_length_eq_add_one hlength
  have hws : ws.length = xs.length := by
    rw [hwords] at hlength
    exact Nat.succ.inj hlength
  set items := ps.zip (ws.zip (List.replicate xs.length interpreterEntry)) with hitems
  have hlay : replace u (planFor t frame (p :: ps) l) mode =
      lay l mode base ((p, w, interpreterEntry) :: items).reverse := by
    rw [replace, dropDeoptee_eq hu rfl, ok_bind]
    apply congrArg (lay l mode base)
    rw [hl, planFor, laid_eq hps, hwords, hscopes, List.length_cons, List.replicate_succ]
    rfl
  have hmap : (((p, w, interpreterEntry) :: items).map (·.2.1)) = w :: ws := by
    rw [List.map_cons, hitems, map_words_zip (hws.trans hps'.length_eq)
      (by rw [List.length_replicate, hps'.length_eq])]
  obtain ⟨v, g, gs, hv, hstack, hg, hgs, hroom, hsame⟩ :=
    exists_lay l mode (p, w, interpreterEntry) items base (by
      rw [hmap, ← hwords, hsp]
      exact hr.room)
  obtain ⟨houter, houterWords⟩ := implementedBy_of_lays hps' hws hgs
  refine ⟨v, g, gs, hlay.trans hv, ?_, hstack, tiled_lay htiled hv, ⟨hg.pc, _, hg.kind, ?_⟩, houter,
    ?_, ?_⟩
  · exact SameButFrames.trans (u := base) rfl hsame
  · have h := implements_activate l mode hp true
    rw [result_plannedLayout hscopes hp hr.forcesReexecution] at h
    simpa using h
  · rw [List.map_cons, hg.words, houterWords, hwords]
  · rw [← hsp, ← hroom, hmap, hwords]

/-! ### The check -/

/-- The expression stack that a scope comes to has a depth that is known to be right for its
bytecode, if any is known. A call in progress has taken its arguments off; the innermost activation
has the result of its call already when the compiled frame returned. -/
def DepthFits (s : Scope) (isTop : Bool) (mode : Mode) (result : Option Word) : Prop :=
  ∀ declared, s.method.depth? s.bci = some declared →
    s.expressions.length + result.toList.length = declared ∨
      s.reexecute = false ∧ ¬ (isTop = true ∧ mode = .reexecute) ∧
        ∃ c, s.method.call? s.bci = some c ∧
          (s.expressions.length + result.toList.length = declared - c.parameters ∨
            isTop = true ∧ mode = .plain ∧ c.result ≠ .void ∧ c.result ≠ .illegal ∧
              s.expressions.length + result.toList.length = declared - c.parameters + 1)

lemma depthFits_iff {x : Scope} {result : Option Word} {isTop : Bool} {a : InterpretedFrame}
    (hmode : mode ≠ .exception)
    (ha : Implements f table x result (isTop && mode = .reexecute) a) :
    depthFits a isTop mode = true ↔ DepthFits x isTop mode result := by
  obtain ⟨ws, hws, hexpressions⟩ := ha.expressions
  have hlength : a.expressions.length = x.expressions.length + result.toList.length := by
    rw [hexpressions, List.length_append, (mapM_eq_ok.1 hws).length_eq]
  rw [depthFits, DepthFits, ha.method, ha.bci]
  cases hd : x.method.depth? x.bci with
  | none => simp
  | some declared =>
    simp only [Option.some.injEq, forall_eq', hlength, ha.reexecute]
    generalize x.expressions.length + result.toList.length = depth
    by_cases heq : depth = declared
    · simp [heq]
    · have hne : (depth == declared) = false := by simpa using heq
      cases hc : x.method.call? x.bci with
      | none => simp [heq, hmode]
      | some c =>
        by_cases hagain : x.reexecute = true ∨ isTop = true ∧ mode = .reexecute
        · have hr : (x.reexecute || (isTop && decide (mode = .reexecute))) = true := by
            simpa using hagain
          rw [if_pos (by simp [hr])]
          simp only [hne, heq, false_or, Bool.false_eq_true, false_iff]
          rintro ⟨hx, ht, -⟩
          exact hagain.elim (fun h => by rw [hx] at h; cases h) ht
        · rw [not_or] at hagain
          simp [heq, hne, hmode, hagain.1, hagain.2, and_assoc]

/-- The check of one frame that implements a scope comes to the check of its depth. -/
lemma checkFrame_eq_ok {x : Scope} {result : Option Word} {p : Packed} {i : Nat} {g : Frame}
    (hmode : mode ≠ .exception) (hp : Packed.Of f table x p)
    (hg : ImplementedBy f table x result (decide (i = 0) && mode = .reexecute) g) :
    checkFrame mode i p g = .ok () ↔ DepthFits x (i = 0) mode result := by
  obtain ⟨-, a, hk, ha⟩ := hg
  rw [checkFrame, hk]
  simp only [FrameKind.interpreted?, bind_eq_ok, guarantee_eq_ok, decide_eq_true_eq, exists_const,
    ha.method, hp.method, ha.bci, hp.bci, and_self, true_and]
  exact depthFits_iff hmode ha

lemma checkFrames_outer {ss : List Scope} {ps : List Packed} {gs : List Frame} {i : Nat}
    (hmode : mode ≠ .exception) (hps : Packs f table ss ps)
    (hgs : List.Forall₂ (fun x g => ImplementedBy f table x none false g) ss gs)
    (rest : List Frame) :
    checkFrames mode (i + 1) ps (gs ++ rest) = .ok () ↔
      ∀ x ∈ ss, DepthFits x false mode none := by
  induction hps generalizing gs i with
  | nil => cases hgs; simp [checkFrames]
  | @cons x p ss ps hp hps ih =>
    cases hgs with
    | cons hg hgs =>
      rw [List.cons_append, checkFrames, check_bind_eq_ok, List.forall_mem_cons, ih hgs,
        checkFrame_eq_ok hmode hp (by simpa using hg)]
      simp

/-- The check of the unpacked frames accepts them exactly if all depths fit. -/
lemma check_eq_ok {x : Scope} {xs : List Scope} {ps : List Packed} {result : Option Word}
    {g : Frame} {gs : List Frame} {v : Thread} {p : Plan} (hmode : mode ≠ .exception)
    (hscopes : r.scopes = x :: xs) (hps : Packs f table r.scopes ps)
    (hv : Laid mode frame caller below f r table result x xs g gs v)
    (hframes : p.frames = ps) (hsp : p.callerSp = frame.callerSp)
    (htotal : p.layout.total = wordBytes * (plannedWords caller r.scopes).sum) :
    check v p mode = .ok () ↔
      DepthFits x true mode result ∧ ∀ y ∈ xs, DepthFits y false mode none := by
  rw [hscopes] at hps
  cases hps with
  | @cons _ q _ qs hq hqs =>
    have hlength : qs.length + 1 ≤ v.stack.length := by
      have h := hqs.length_eq.symm.trans hv.outer.length_eq
      simp only [hv.stack, List.length_cons, List.cons_append, List.length_append]
      omega
    have hwords : v.sp + p.layout.total / wordBytes = p.callerSp := by
      rw [htotal, Nat.mul_div_cancel_left _ (by decide), hsp, hv.sp]
    have hinnermost : ImplementedBy f table x result (decide (0 = 0) && mode = .reexecute) g := by
      simpa using hv.innermost
    rw [check, hframes, check_bind_eq_ok, check_bind_eq_ok, guarantee_eq_ok, guarantee_eq_ok,
      decide_eq_true_eq, decide_eq_true_eq, hv.stack, List.cons_append, checkFrames,
      check_bind_eq_ok, checkFrames_outer hmode hqs hv.outer,
      checkFrame_eq_ok hmode hq hinnermost, ← List.cons_append, ← hv.stack]
    simp [hlength, hwords]

/-! ### Planning and unpacking -/

/-- Planning for a compiled frame and unpacking it implements its logical frames. The plan comes
about in the mode that was asked for. Unpacking leaves one interpreted frame for each scope of the
record, the innermost on top, above the frames that were below the compiled one; each holds the
values that the record describes and takes the planned words, and the innermost has its call result
exactly if the frame returned normally from a call that gives one and is not executed again. The
plan is retired, and no exception is touched. With the check of unpacked frames turned on, unpacking
still succeeds exactly if all depths fit. -/
theorem unpack_fetch_implements {x : Scope} {xs : List Scope} (hs : s.restoresObjects = true)
    (hmode : mode = .plain ∨ mode = .uncommonTrap ∨ mode = .reexecute)
    (hr : Ready t frame caller below f r) (hscopes : r.scopes = x :: xs)
    (ht : Restorable s m t mode frame.id f r table) :
    ∃ l m' u v g gs, fetch s m t mode = .ok (l, m', u) ∧ l.mode = mode ∧
      unpack .faithful false u l.mode = .ok (l.returnType, v) ∧
      Laid mode frame caller below f r table (callResult f r mode x) x xs g gs v ∧
      v.plan = none ∧ v.handlerDepth = t.handlerDepth ∧ v.pending = t.pending ∧
      v.exception = t.exception ∧
      (unpack .faithful true u l.mode = .ok (l.returnType, v) ↔
        DepthFits x true mode (callResult f r mode x) ∧ ∀ y ∈ xs, DepthFits y false mode none) := by
  have hinspect : mode ≠ .inspect := by rcases hmode with rfl | rfl | rfl <;> decide
  have hexception : mode ≠ .exception := by rcases hmode with rfl | rfl | rfl <;> decide
  obtain ⟨m', u, ps, hps, hfetch, hu⟩ := exists_fetch hs hinspect hr ht
  set l := plannedLayout frame caller f r mode (savedResult t mode f r) with hl
  have hstack : u.dropStubs.stack = frame :: caller :: below := by
    rw [hu]
    exact hr.stack
  obtain ⟨v, g, gs, hreplace, hsame, hlaid⟩ := exists_replace mode hr hscopes hps hstack
  rw [← hl] at hreplace
  have hplan : u.plan = some (planFor t frame ps l) := by rw [hu]
  have hretire : retire v = .ok (retired v) :=
    retire_eq_ok.2 ⟨by rw [hsame, hplan]; rfl, by rw [hsame, hu]; exact Nat.succ_pos _, rfl⟩
  set w := retired v with hw
  have hlaid' : Laid mode frame caller below f r table (callResult f r mode x) x xs g gs w :=
    ⟨hlaid.stack, hlaid.tiled, hlaid.innermost, hlaid.outer, hlaid.words, hlaid.sp⟩
  have htype : returned l mode = l.returnType := by rw [returned, if_neg hexception]
  have hunpack : ∀ verify, unpack .faithful verify u mode = (do
      if verify then check w (planFor t frame ps l) mode
      return (l.returnType, w)) := by
    intro verify
    rw [unpack, hplan]
    simp only [Unpacker.run, hreplace, ok_bind, hretire, ← htype]
    rfl
  refine ⟨l, m', u, w, g, gs, hfetch, rfl, hunpack false, hlaid', rfl, ?_, ?_, ?_, ?_⟩
  · rw [hw, hsame, hu]
    rfl
  · rw [hw, hsame, hu]
    rfl
  · rw [hw, hsame, hu]
    rfl
  · rw [show l.mode = mode from rfl, hunpack true, if_pos rfl, check_bind_eq_ok, pure_eq_ok,
      check_eq_ok hexception hscopes hps hlaid' rfl rfl rfl]
    simp

end

/-! ### An inlined call

One thread, to see that what is asked of a frame can be met: compiled code in which a call was
inlined. The inner activation holds the monitor of an object that was eliminated, and it calls a
method that returns an int. -/

namespace Inlined

/-- The method of the compiled code, and the caller of the other one. -/
def outer : Method where
  ref := 0
  id := 1
  holder := "A"
  name := "outer"
  parameters := 1
  locals := 3
  maxStack := 2
  parameters_le_locals := by decide
  code := [.call ⟨1, .int, false⟩]
  depths := some [2]

def inner : Method where
  ref := 1
  id := 2
  holder := "A"
  name := "inner"
  parameters := 1
  locals := 2
  maxStack := 4
  parameters_le_locals := by decide
  code := [.call ⟨1, .int, false⟩]
  depths := some [1]

/-- The activation that was inlined. It holds the monitors of an object and of the eliminated object
7. -/
def callee : Scope where
  method := inner
  bci := 0
  locals := [.located ⟨.stack 0, .reference⟩, .eliminated 7]
  monitors := [⟨.located ⟨.stack 0, .reference⟩, true⟩, ⟨.eliminated 7, true⟩]

/-- The activation that was compiled. -/
def called : Scope where
  method := outer
  bci := 0
  locals := [.located ⟨.register 0, .long⟩]
  expressions := [.int 5]

/-- What is known at the place where the code stands. -/
def record : DebugRecord where
  offset := 8
  scopes := [callee, called]
  objects := [{ id := 7, klass := .base "K" [] none, sources := [] }]

def region : Region where
  ref := 0
  compileId := 1
  method := outer
  start := 0x1000
  size := 64
  handlerOffset := 48
  debug := ⟨[record]⟩

def compiled : CompiledFrame where
  region := region
  slots := #[.ref (some ⟨0⟩), .zero, .zero, .zero]
  registers := #[.raw 3]

def frame : Frame := ⟨3, Thread.stackBase - 22, 6, 0x1008, .compiled compiled⟩

/-- The interpreted activation below the compiled one. -/
def caller : Frame :=
  ⟨2, Thread.stackBase - 16, 12, 0x44, .interpreted (.start outer 0 [] false)⟩

def entry : Frame := ⟨1, Thread.stackBase - 4, 4, 0x40, .entry⟩

def thread : Thread where
  id := 1
  name := "main"
  stack := [frame, caller, entry]
  lastFrameId := 3

/-- Everything can be restored, and there are no box caches. -/
def supply : Restore.Supply := ⟨{}, {}⟩

def memory : Memory where
  heap := { used := 16, allocations := 1 }
  store := ⟨#[{ serial := 1, klass := .base "K" [] none, body := .fields #[] }]⟩

lemma ready : Ready thread frame caller [entry] compiled record where
  stack := rfl
  tiled := ⟨rfl, rfl, rfl, trivial⟩
  record := rfl
  scopes := List.cons_ne_nil _ _
  readable := by
    have hobject : compiled.Supplies (.located ⟨.stack 0, .reference⟩) := .inr ⟨_, rfl, trivial⟩
    have hnumber : compiled.Supplies (.located ⟨.register 0, .long⟩) := .inr ⟨_, rfl, trivial⟩
    have hconstant : ∀ i, compiled.Supplies (.int i) := fun _ => trivial
    have heliminated : ∀ i, compiled.Supplies (.eliminated i) := fun _ => trivial
    simp only [record, List.forall_mem_cons]
    refine ⟨⟨?_, ?_, ?_⟩, ⟨?_, ?_, ?_⟩, List.forall_mem_nil _⟩ <;>
      simp [callee, called, hobject, hnumber, hconstant, heliminated]
  described := by simp [record, callee, called]
  rethrows := rfl
  plan := rfl
  forcesReexecution := rfl
  framesToPop := rfl
  room := by decide

/-- An object is allocated for the eliminated one. -/
def table : Restored := { objects := ⟨[(7, some ⟨1⟩)]⟩ }

/-- The monitors of both objects were eliminated. -/
lemma owners : compiled.eliminatedOwners table record.scopes.reverse = .ok [⟨0⟩, ⟨1⟩] := rfl

lemma restorable : Restorable supply memory thread .plain frame.id compiled record table := by
  obtain ⟨o, ho, htable, hfailed⟩ : ∃ o,
      Restore.objectsIfEnabled supply memory none .plain compiled record.objects = .ok o ∧
        o.table = table ∧ o.failed = false := ⟨_, rfl, rfl, rfl⟩
  have hgrows := (Restore.objectsIfEnabled_spec rfl ho hfailed).grows
  rw [← htable]
  refine .now rfl ho hfailed fun rs hrs r hr => ?_
  rw [htable, owners] at hrs
  cases hrs
  rw [hgrows.monitor]
  revert r
  decide

end Inlined

/-- The compiled frame of the thread is replaced, and the check of the unpacked frames accepts
them. -/
theorem unpack_fetch_implements_inlined :
    Ready Inlined.thread Inlined.frame Inlined.caller [Inlined.entry] Inlined.compiled
      Inlined.record ∧
    Restorable Inlined.supply Inlined.memory Inlined.thread .plain Inlined.frame.id
      Inlined.compiled Inlined.record Inlined.table ∧
    ∃ l m' u v g gs, fetch Inlined.supply Inlined.memory Inlined.thread .plain = .ok (l, m', u) ∧
      l.mode = .plain ∧ unpack .faithful false u l.mode = .ok (l.returnType, v) ∧
      Laid .plain Inlined.frame Inlined.caller [Inlined.entry] Inlined.compiled Inlined.record
        Inlined.table (some (.raw 3)) Inlined.callee [Inlined.called] g gs v ∧
      v.plan = none ∧ v.handlerDepth = 0 ∧ v.pending = none ∧ v.exception = none ∧
      unpack .faithful true u l.mode = .ok (l.returnType, v) := by
  obtain ⟨l, m', u, v, g, gs, hfetch, hmode, hunpack, hlaid, hplan, hdepth, hpending, hexception,
    hcheck⟩ := unpack_fetch_implements (s := Inlined.supply) (x := Inlined.callee)
      rfl (.inl rfl) Inlined.ready rfl Inlined.restorable
  refine ⟨Inlined.ready, Inlined.restorable, l, m', u, v, g, gs, hfetch, hmode, hunpack, hlaid,
    hplan, hdepth, hpending, hexception, hcheck.2 ⟨?_, ?_⟩⟩
  · rintro d ⟨⟩
    exact .inl rfl
  · intro y hy
    rw [List.mem_singleton.1 hy]
    rintro d ⟨⟩
    exact .inr ⟨rfl, by decide, _, rfl, .inl rfl⟩

end Bailout.Unwind
