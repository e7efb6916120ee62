import Bailout.Proofs.Unwind.Replace

/-!
# Sizes of planned frames

How many bytes a plan has for each of its frames, by the index of the activation that goes into it,
and for the extension of the caller. The locals of an activation that are not its parameters have
their place in the frame of its caller, and each of them has one. Planning does not fail because of
the sizes unless their sum is no machine word.
-/

namespace Bailout

namespace Packed

variable {ps : List Packed} {p q : Packed} {parameters locals extra i : Nat} {isTop : Bool}

/-! ### Words by index -/

/-- An activation takes words for the locals of the one before it in the chain. -/
lemma getElem?_wordsFrom (hp : ps[i]? = some p) (hq : ps[i + 1]? = some q) :
    (wordsFrom parameters locals isTop extra ps)[i + 1]? =
      some (q.words p.method.parameters p.method.locals false 0) := by
  induction ps generalizing parameters locals isTop extra i with
  | nil => cases hp
  | cons p' ps ih =>
    rw [wordsFrom, List.getElem?_cons_succ]
    cases i with
    | zero =>
      obtain rfl : p' = p := Option.some.inj hp
      cases ps with
      | nil => cases hq
      | cons q' ps =>
        obtain rfl : q' = q := Option.some.inj hq
        rfl
    | succ i => exact ih hp hq

/-- The words that are there because of each activation: its own and those of its locals that are
not parameters, which its caller has a place for. -/
def ownWordsFrom (arguments : Nat) (isTop : Bool) (extra : Nat) : List Packed → List Nat
  | [] => []
  | p :: ps =>
    (Activation.overheadWords + p.monitors.length * Activation.monitorWords +
      p.stackWords arguments isTop extra + (p.method.locals - p.method.parameters)) ::
    ownWordsFrom p.method.parameters false 0 ps

/-- Every activation takes the locals of its callee instead of its own. -/
lemma sum_wordsFrom (hps : ps ≠ []) :
    (wordsFrom parameters locals isTop extra ps).sum +
        ((ps.getLastD default).method.locals - (ps.getLastD default).method.parameters) =
      Activation.extraLocals parameters locals + (ownWordsFrom parameters isTop extra ps).sum := by
  induction ps generalizing parameters locals isTop extra with
  | nil => exact absurd rfl hps
  | cons p ps ih =>
    cases ps with
    | nil =>
      simp only [wordsFrom, ownWordsFrom, words, List.sum_singleton,
        show [p].getLastD default = p from rfl]
      omega
    | cons q ps =>
      have hrest : (wordsFrom p.method.parameters p.method.locals false 0 (q :: ps)).sum + _ = _ :=
        ih (List.cons_ne_nil q ps)
      rw [show (p :: q :: ps).getLastD default = (q :: ps).getLastD default from rfl]
      generalize q :: ps = rest at hrest ⊢
      rw [wordsFrom, ownWordsFrom, List.sum_cons, List.sum_cons, Nat.add_assoc, hrest, words,
        Activation.extraLocals.eq_def p.method.parameters]
      omega

end Packed

namespace Unwind

variable {s : Restore.Supply} {m m' : Memory} {t u : Thread} {mode : Mode} {frame caller : Frame}
  {f : CompiledFrame} {r : DebugRecord} {got : Recovery} {ps : List Packed} {l : Layout}
  {extra : Nat}

/-! ### Bytes of a plan -/

/-- A caller that keeps the parameters of the outermost activation on its expression stack. -/
def KeepsParameters (caller : Frame) : Prop :=
  caller.kind.interpreted?.isSome = true ∧ passesMember caller = false

instance : DecidablePred KeepsParameters := fun _ => inferInstanceAs (Decidable (_ ∧ _))

lemma callerExtension_eq (outermost : Method) : callerExtension caller outermost =
    if KeepsParameters caller then outermost.locals - outermost.parameters
    else outermost.locals := by
  unfold callerExtension keptParameters Activation.extraLocals
  by_cases hkeeps : KeepsParameters caller
  · rw [if_pos hkeeps, if_pos hkeeps.1, hkeeps.2]
    rfl
  · rw [if_neg hkeeps]
    split_ifs with hinterpreted hmember
    · rfl
    · exact absurd ⟨hinterpreted, by simpa using hmember⟩ hkeeps
    · rfl

/-- The words of a plan: those that the caller is extended by, and those of the frames. -/
def planWords (caller : Frame) (extra : Nat) (ps : List Packed) : Nat :=
  callerExtension caller (ps.getLastD default).method + (Packed.wordsFrom 0 0 true extra ps).sum

/-- A layout has room for a chain of activations, which are listed innermost first. -/
structure Provides (caller : Frame) (extra : Nat) (ps : List Packed) (l : Layout) : Prop where
  sizes : l.sizes.length = ps.length
  pcs : l.pcs.length = ps.length + 1
  /-- The innermost activation has room for its deepest stack. -/
  innermost : ∀ p, ps[0]? = some p → l.sizes[ps.length - 1]? =
    some (8 * (10 + 2 * p.monitors.length + (p.method.maxStack + extra)))
  /-- The others have room for the locals of the activation before them. -/
  outer : ∀ i p q, ps[i]? = some p → ps[i + 1]? = some q → l.sizes[ps.length - 1 - (i + 1)]? =
    some (8 * (10 + 2 * q.monitors.length + (q.expressions.length + p.method.parameters +
      (p.method.locals - p.method.parameters))))
  /-- The caller is extended by the locals of the outermost activation that it does not have. -/
  adjustment : ∀ p, ps.getLast? = some p → l.callerAdjustment =
    8 * if KeepsParameters caller then p.method.locals - p.method.parameters else p.method.locals
  /-- The caller goes on where it would, in its handler if it is patched. -/
  callerPc : l.pcs[0]? = some caller.pc ∧ ∀ g : Frame, g.patch = .ok (true, caller) →
    ∃ c, g.kind = .compiled c ∧ c.region.handler = .ok caller.pc
  entries : ∀ i < ps.length, l.pcs[i + 1]? = some interpreterEntry
  total : l.total = l.callerAdjustment + l.sizes.sum
  /-- The locals of each activation that are not parameters are counted once. -/
  once : ∀ p, ps.getLast? = some p → l.total = 8 * ((Packed.ownWordsFrom 0 true extra ps).sum +
    if KeepsParameters caller then 0 else p.method.parameters)

/-- Where a frame returns that was just patched. -/
lemma handler_of_patch {g : Frame} (h : g.patch = .ok (true, caller)) :
    ∃ c, g.kind = .compiled c ∧ c.region.handler = .ok caller.pc := by
  unfold Frame.patch at h
  split at h
  · split at h
    · cases h
    next c hkind _ _ =>
      simp only [bind_eq_ok, pure_eq_ok, Prod.mk.injEq] at h
      obtain ⟨handler, hhandler, -, rfl⟩ := h
      exact ⟨c, hkind, hhandler⟩
  · cases h

lemma getElem?_reverse_sizes (ws : List Nat) {i : Nat} (hi : i < ws.length) :
    (ws.map (wordBytes * ·)).reverse[ws.length - 1 - i]? = ws[i]?.map (wordBytes * ·) := by
  rw [List.getElem?_reverse (by rw [List.length_map]; omega), List.length_map, List.getElem?_map]
  congr 2
  omega

/-- The layout of a chain whose sizes could be computed has room for it. -/
theorem provides_of_layout {saved : Option Ref} {x : Packed} {sizes : List Nat}
    (hsizes : Packed.sizes extra ps = .ok sizes) (hps : ps ≠ [])
    (hlayout : layout caller frame f saved mode x (ps.getLastD default).method sizes = .ok l) :
    Provides caller extra ps l := by
  obtain ⟨-, rfl⟩ := Packed.sizesFrom_eq_ok.1 hsizes
  obtain ⟨-, rfl⟩ := layout_eq_ok.1 hlayout
  have hsum : (Packed.wordsFrom 0 0 true extra ps).sum + _ = _ := Packed.sum_wordsFrom hps
  have hlast : ∀ p, ps.getLast? = some p → ps.getLastD default = p := by
    intro p hp
    rw [List.getLastD_eq_getLast?, hp]
    rfl
  constructor
  case sizes => simp
  case pcs => simp
  case innermost =>
    intro p hp
    obtain ⟨rest, rfl⟩ : ∃ rest, ps = p :: rest := by
      cases ps with
      | nil => cases hp
      | cons q rest => exact ⟨rest, by rw [Option.some.inj hp]⟩
    have hsize := getElem?_reverse_sizes (Packed.wordsFrom 0 0 true extra (p :: rest)) (i := 0)
      (by simp)
    rw [Packed.length_wordsFrom] at hsize
    refine hsize.trans (congrArg some ?_)
    simp only [wordBytes, Packed.words, Packed.stackWords, Activation.overheadWords,
      Activation.extraLocals, Activation.monitorWords, if_true, Nat.mul_comm 2]
  case outer =>
    intro i p q hp hq
    have hi : i + 1 < ps.length := (List.getElem?_eq_some_iff.1 hq).1
    have hsize := getElem?_reverse_sizes (Packed.wordsFrom 0 0 true extra ps) (i := i + 1)
      (by simpa using hi)
    rw [Packed.length_wordsFrom, Packed.getElem?_wordsFrom hp hq] at hsize
    refine hsize.trans (congrArg some ?_)
    simp only [wordBytes, Packed.words, Packed.stackWords, Activation.overheadWords,
      Activation.extraLocals, Activation.monitorWords, Bool.false_eq_true, if_false]
    omega
  case adjustment =>
    intro p hp
    show wordBytes * _ = _
    rw [hlast p hp, callerExtension_eq]
    rfl
  case callerPc => exact ⟨rfl, fun g hg => handler_of_patch hg⟩
  case entries =>
    intro i hi
    show (List.replicate _ interpreterEntry)[i]? = _
    rw [List.getElem?_replicate, List.length_map, Packed.length_wordsFrom, if_pos hi]
  case total => simp
  case once =>
    intro p hp
    have hle := p.method.parameters_le_locals
    show wordBytes * _ + (List.map _ _).sum = _
    rw [hlast p hp] at hsum ⊢
    rw [sum_map_wordBytes, callerExtension_eq]
    simp only [wordBytes, Activation.extraLocals] at hsum ⊢
    split_ifs <;> omega

/-! ### Planning -/

/-- The activation of a scope, packed. It has no monitors if the plan is given up. -/
structure PackedFrom (failed : Bool) (x : Scope) (p : Packed) : Prop where
  method : p.method = x.method
  expressions : p.expressions.length = x.expressions.length
  monitors : p.monitors.length = if failed then 0 else x.monitors.length

/-- Planning comes to the point where the activations of a record, packed, are laid out. -/
structure Reaches (s : Restore.Supply) (m : Memory) (t : Thread) (mode : Mode)
    (frame caller : Frame) (f : CompiledFrame) (r : DebugRecord) (got : Recovery)
    (ps : List Packed) : Prop where
  target : Unwind.target t = .ok (frame, caller)
  record : frame.record = .ok (f, r)
  scopes : r.scopes ≠ []
  recover : Unwind.recover s m t.enterHandler mode frame.id f r = .ok got
  packed : ∃ packed store v, r.scopes.mapM (Packed.ofScope f got.table) = .ok packed ∧
    Unwind.abandon got.failed got.memory.store got.thread packed = .ok (store, v, ps) ∧
    v.plan = none ∧ ∃ thrown w mode',
      Unwind.rethrown f got.table r (r.scopes.headD default) = .ok thrown ∧
      Unwind.raise v mode thrown = .ok (w, mode')

/-- Giving activations up takes their monitors, and leaves a note about their number. -/
lemma abandon_spec {failed : Bool} {store store' : Store} {v : Thread} {ps' : List Packed}
    (h : abandon failed store t ps = .ok (store', v, ps')) :
    v = { t with framesToPop := v.framesToPop } ∧
      ps' = if failed then ps.map Packed.withoutMonitors else ps := by
  unfold abandon at h
  split_ifs at h with hfailed
  · simp only [bind_eq_ok, pure_eq_ok, Prod.mk.injEq] at h
    obtain ⟨_, -, -, rfl, rfl⟩ := h
    exact ⟨rfl, (if_pos hfailed).symm⟩
  · cases h
    exact ⟨rfl, (if_neg hfailed).symm⟩

namespace Reaches

lemma packedFrom (h : Reaches s m t mode frame caller f r got ps) :
    List.Forall₂ (PackedFrom got.failed) r.scopes ps := by
  obtain ⟨packed, store, v, hpacked, habandon, -⟩ := h.packed
  have hof : Packs f got.table r.scopes packed := Packed.of_ofScopes hpacked
  rw [(abandon_spec habandon).2]
  split_ifs with hfailed
  · rw [List.forall₂_map_right_iff]
    exact hof.imp fun _ _ hp => ⟨hp.method, hp.length_expressions, by rw [hfailed]; rfl⟩
  · exact hof.imp fun _ _ hp =>
      ⟨hp.method, hp.length_expressions, by rw [if_neg hfailed, hp.length_monitors]⟩

lemma ne_nil (h : Reaches s m t mode frame caller f r got ps) : ps ≠ [] := by
  rintro rfl
  exact h.scopes (List.forall₂_nil_right_iff.1 h.packedFrom)

/-- There is one chain to be laid out, and one caller below it. -/
lemma unique {frame' caller' : Frame} {f' : CompiledFrame} {r' : DebugRecord} {got' : Recovery}
    {ps' : List Packed} (h : Reaches s m t mode frame caller f r got ps)
    (h' : Reaches s m t mode frame' caller' f' r' got' ps') : caller = caller' ∧ ps = ps' := by
  obtain ⟨rfl, rfl⟩ : frame = frame' ∧ caller = caller' := by
    simpa using h.target.symm.trans h'.target
  obtain ⟨rfl, rfl⟩ : f = f' ∧ r = r' := by
    simpa using h.record.symm.trans h'.record
  obtain rfl : got = got' := by
    simpa using h.recover.symm.trans h'.recover
  obtain ⟨packed, store, v, hpacked, habandon, -⟩ := h.packed
  obtain ⟨packed', store', v', hpacked', habandon', -⟩ := h'.packed
  obtain rfl : packed = packed' := by
    simpa using hpacked.symm.trans hpacked'
  rw [(abandon_spec habandon).2, (abandon_spec habandon').2]
  exact ⟨rfl, rfl⟩

end Reaches

lemma extraWords_eq {id : Nat} {failed : Bool} {store store' : Store} {v : Thread}
    {ps' : List Packed} (hgot : recover s m t.enterHandler mode id f r = .ok got)
    (habandon : abandon failed store got.thread ps = .ok (store', v, ps')) :
    extraWords v = extraWords t := by
  rw [← extraWords_of_recover hgot, (abandon_spec habandon).1]
  rfl

/-- A plan comes from the chain that was reached. -/
lemma reaches_of_fetch (h : fetch s m t mode = .ok (l, m', u)) :
    ∃ frame caller f r got p sizes saved, u.plan = some p ∧ p.layout = l ∧
      p.failed = got.failed ∧ Reaches s m t mode frame caller f r got p.frames ∧
      Packed.sizes (extraWords t) p.frames = .ok sizes ∧
      layout caller frame f saved l.mode (p.frames.headD default)
        (p.frames.getLastD default).method sizes = .ok l := by
  simp only [fetch, bind_eq_ok, CompiledFrame.scopes, guarantee_eq_ok, pure_eq_ok] at h
  obtain ⟨⟨frame, caller⟩, htarget, ⟨f, r⟩, hrecord, _, ⟨_, hne, rfl⟩, got, hgot, h⟩ := h
  obtain ⟨thrown, hthrown, ps, hps, ⟨store, v, ps'⟩, habandon, _, hplan, h⟩ := h
  obtain ⟨sizes, hsizes, ⟨w, mode'⟩, hraise, l', hlayout, h⟩ := h
  cases h
  rw [extraWords_eq hgot habandon] at hsizes
  have hreaches : Reaches s m t mode frame caller f r got ps' :=
    ⟨htarget, hrecord, by simpa using hne, hgot, ps, store, v, hps, habandon, by simpa using hplan,
      thrown, w, mode', hthrown, hraise⟩
  obtain rfl : l.mode = mode' := by
    rw [← (layout_eq_ok.1 hlayout).2]
  exact ⟨frame, caller, f, r, got, _, sizes, savedResult t.enterHandler mode f r, rfl, rfl, rfl,
    hreaches, hsizes, hlayout⟩

/-- Planning goes on to the end exactly if the bytes can be counted. -/
theorem Reaches.exists_fetch_iff (h : Reaches s m t mode frame caller f r got ps) :
    (∃ x, fetch s m t mode = .ok x) ↔
      wordBytes * planWords caller (extraWords t) ps < wordLimit := by
  rw [planWords, Nat.mul_add, ← sum_map_wordBytes]
  constructor
  · rintro ⟨⟨l, m', u⟩, hfetch⟩
    obtain ⟨_, _, _, _, _, p, sizes, saved, -, -, -, hreaches, hsizes, hlayout⟩ :=
      reaches_of_fetch hfetch
    obtain ⟨rfl, rfl⟩ := h.unique hreaches
    obtain ⟨-, rfl⟩ := Packed.sizesFrom_eq_ok.1 hsizes
    exact (layout_eq_ok.1 hlayout).1
  · intro hroom
    obtain ⟨packed, store, v, hpacked, habandon, hplan, thrown, w, mode', hthrown, hraise⟩ :=
      h.packed
    have hwords : wordBytes * (Packed.wordsFrom 0 0 true (extraWords t) ps).sum < wordLimit := by
      rw [← sum_map_wordBytes]
      exact Nat.lt_of_le_of_lt (Nat.le_add_left _ _) hroom
    have hsizes := Packed.sizesFrom_of_sum_lt hwords
    rw [← extraWords_eq h.recover habandon] at hsizes hroom
    exact ⟨_, fetch_of_steps h.target h.record h.scopes h.recover hthrown hpacked habandon hplan
      hsizes hraise (layout_eq_ok.2 ⟨hroom, rfl⟩)⟩

/-- A plan has room for all that its activations need, and counts every local once, whoever the
caller is. A chain of activations is planned for exactly if the bytes for it can be counted. -/
theorem fetch_provides :
    (∀ l m' u, fetch s m t mode = .ok (l, m', u) → ∃ frame caller f r got p,
      u.plan = some p ∧ p.layout = l ∧ Reaches s m t mode frame caller f r got p.frames ∧
        List.Forall₂ (PackedFrom got.failed) r.scopes p.frames ∧
        Provides caller (extraWords t) p.frames l) ∧
    ∀ frame caller f r got ps, Reaches s m t mode frame caller f r got ps →
      ((∃ x, fetch s m t mode = .ok x) ↔
        wordBytes * planWords caller (extraWords t) ps < wordLimit) := by
  refine ⟨fun l m' u h => ?_, fun frame caller f r got ps h => h.exists_fetch_iff⟩
  obtain ⟨frame, caller, f, r, got, p, sizes, saved, hp, hl, -, hreaches, hsizes, hlayout⟩ :=
    reaches_of_fetch h
  exact ⟨frame, caller, f, r, got, p, hp, hl, hreaches, hreaches.packedFrom,
    provides_of_layout hsizes hreaches.ne_nil hlayout⟩

namespace Popped

/-- A call of the innermost activation is executed again, for which three words are kept. -/
def thread : Thread := { Inlined.thread with forcesReexecution := true, preservedWords := 3 }

def packed : List Packed :=
  [{ method := Inlined.inner, bci := 0, reexecute := false
     locals := [.ref (some ⟨0⟩), .ref (some ⟨1⟩)], expressions := []
     monitors := [some ⟨0⟩, some ⟨1⟩] },
   { method := Inlined.outer, bci := 0, reexecute := false
     locals := [.raw 3], expressions := [.raw 5], monitors := [] }]

lemma reaches : ∃ got, Reaches Inlined.supply Inlined.memory thread .plain Inlined.frame
    Inlined.caller Inlined.compiled Inlined.record got packed :=
  ⟨_, rfl, Inlined.ready.record, List.cons_ne_nil _ _, rfl, _, _, _, rfl, rfl, rfl, _, _, _, rfl,
    rfl⟩

end Popped

/-- Two activations under an interpreted caller take 272 bytes and 16 more of the caller. -/
theorem fetch_provides_popped : ∃ l m' u,
    fetch Inlined.supply Inlined.memory Popped.thread .plain = .ok (l, m', u) ∧
      l.sizes = [104, 168] ∧ l.callerAdjustment = 16 ∧ l.total = 288 ∧ l.pcs[0]? = some 0x44 := by
  obtain ⟨got, hreaches⟩ := Popped.reaches
  obtain ⟨hprovides, hcomes⟩ := fetch_provides (s := Inlined.supply) (m := Inlined.memory)
    (t := Popped.thread)
  have hroom : wordBytes * planWords Inlined.caller (extraWords Popped.thread) Popped.packed <
      wordLimit := by decide
  obtain ⟨⟨l, m', u⟩, hfetch⟩ := (hcomes _ _ _ _ _ _ hreaches).2 hroom
  obtain ⟨frame, caller, f, r, got', p, -, -, hreaches', -, hlayout⟩ := hprovides l m' u hfetch
  obtain ⟨hcaller, hpacked⟩ := hreaches.unique hreaches'
  rw [← hcaller, ← hpacked] at hlayout
  obtain ⟨a, b, hsizes⟩ := List.length_eq_two.1 hlayout.sizes
  have hinnermost := hlayout.innermost _ rfl
  have houter := hlayout.outer 0 _ _ rfl rfl
  rw [hsizes] at hinnermost houter
  have ha : a = 104 := Option.some.inj houter
  have hb : b = 168 := Option.some.inj hinnermost
  refine ⟨l, m', u, hfetch, ?_, hlayout.adjustment _ rfl, hlayout.once _ rfl, hlayout.callerPc.1⟩
  rw [hsizes, ha, hb]

end Unwind

end Bailout
