import Bailout.Proofs.Unwind.Resume

/-!
# Calls that are forced to be executed again

A thread can ask that the call in its newest frame is executed again. A plan then leaves out the
reference that the compiled frame saved. The one who carries the plan out does not look at the
request, though: the activation gets a result for its call, unless the record itself says that the
bytecode is executed again or the call returns nothing.
-/

namespace Bailout.Unwind

section

variable {s : Restore.Supply} {m m' : Memory} {t u v : Thread} {mode : Mode}
  {frame caller : Frame} {f : CompiledFrame} {r : DebugRecord} {table : Restored} {l : Layout}
  {x : Scope} {xs : List Scope} {p : Plan} {q : Packed} {qs : List Packed}

/-! ### The newest activation -/

/-- The activation of the innermost scope ends up on top of the stack. -/
lemma exists_newest (hfits : Fits p) (hframes : p.frames = q :: qs)
    (h : replace t p mode = .ok u) : ∃ g gs, u.stack = g :: gs ∧
      g.kind = .interpreted (activate p.layout q true mode) := by
  rw [replace, bind_eq_ok] at h
  obtain ⟨v, -, hlay⟩ := h
  set places := (rooms p.layout).zip p.layout.pcs.tail with hplaces
  have hlength : places.reverse.length = qs.length + 1 := by
    rw [List.length_reverse, hplaces, List.length_zip, length_rooms, hfits.sizes, hfits.pcs,
      List.length_replicate, Nat.min_self, hframes, List.length_cons]
  obtain ⟨place, rest, hrest⟩ := List.exists_cons_of_length_eq_add_one hlength
  have hitems : p.frames.reverse.zip places = (qs.zip rest).reverse ++ [(q, place)] := by
    rw [← List.reverse_reverse places, hrest, hframes,
      zip_reverse (by rw [← hrest, hlength, List.length_cons]), List.zip_cons_cons,
      List.reverse_cons]
  rw [hitems, lay_append, bind_eq_ok] at hlay
  obtain ⟨w, -, hput⟩ := hlay
  obtain ⟨-, sp, -, hstack⟩ := Thread.push_spec hput
  exact ⟨_, _, hstack, rfl⟩

/-! ### The plan -/

/-- A packed activation has what a scope has apart from its monitors. -/
structure Repeats (f : CompiledFrame) (table : Restored) (x : Scope) (q : Packed) : Prop where
  method : q.method = x.method
  bci : q.bci = x.bci
  reexecute : q.reexecute = x.reexecute
  expressions : f.resolveAll table x.expressions = .ok q.expressions

/-- Only monitors are lost when activations are given up. -/
lemma forall₂_repeats {failed : Bool} {store store' : Store} {ps ps' : List Packed}
    (hps : Packs f table r.scopes ps)
    (h : abandon failed store t ps = .ok (store', v, ps')) :
    List.Forall₂ (Repeats f table) r.scopes ps' := by
  rw [(abandon_spec h).2]
  split_ifs
  · rw [List.forall₂_map_right_iff]
    exact hps.imp fun _ _ hp => ⟨hp.method, hp.bci, hp.reexecute, hp.expressions⟩
  · exact hps.imp fun _ _ hp => ⟨hp.method, hp.bci, hp.reexecute, hp.expressions⟩

/-- What a plan provides for the innermost scope of the frame that it is for. -/
lemma exists_repeats (htarget : target t = .ok (frame, caller))
    (hrecord : frame.record = .ok (f, r)) (hscopes : r.scopes = x :: xs)
    (h : fetch s m t mode = .ok (l, m', u)) :
    ∃ got p q qs, recover s m t.enterHandler mode frame.id f r = .ok got ∧ u.plan = some p ∧
      p.layout = l ∧ p.frames = q :: qs ∧ Repeats f got.table x q ∧ l.returnType = awaited q ∧
      l.registers = f.registers ∧ l.savedResult = savedResult t mode f r := by
  have htarget' : target t.enterHandler = .ok (frame, caller) := htarget
  simp only [fetch, bind_eq_ok, CompiledFrame.scopes, guarantee_eq_ok, pure_eq_ok, htarget',
    Except.ok.injEq, exists_eq_left', hrecord] at h
  obtain ⟨_, ⟨_, -, rfl⟩, got, hgot, h⟩ := h
  obtain ⟨thrown, -, ps, hps, ⟨store, w, ps'⟩, habandon, _, -, h⟩ := h
  obtain ⟨sizes, -, ⟨w', mode'⟩, -, l', hlayout, h⟩ := h
  cases h
  have hrepeats := forall₂_repeats (Packed.of_ofScopes hps) habandon
  rw [hscopes] at hrepeats
  cases hrepeats with
  | @cons _ q _ qs hq hqs =>
    obtain ⟨-, hlayout⟩ := layout_eq_ok.1 hlayout
    exact ⟨got, _, q, qs, hgot, rfl, rfl, rfl, hq, (congrArg Layout.returnType hlayout).symm,
      (congrArg Layout.registers hlayout).symm, (congrArg Layout.savedResult hlayout).symm⟩

/-! ### The result -/

lemma savedResult_of_forced (ht : t.forcesReexecution = true) (mode : Mode) (f : CompiledFrame)
    (r : DebugRecord) : savedResult t mode f r = none := by
  simp [savedResult, ht]

/-- Without a saved reference an activation gets what a call in a register gives, or null. -/
lemma resultFor_eq (hq : Repeats f table x q) (htype : l.returnType = awaited q)
    (hregisters : l.registers = f.registers) (hsaved : l.savedResult = none) :
    resultFor l q true .plain =
      (callResult { f with savedResult := none } r .plain x).toList := by
  unfold resultFor callResult reexecutes
  rw [hq.reexecute]
  cases hx : x.reexecute with
  | true => simp
  | false =>
    simp only [Layout.result?, htype, awaited, hq.method, hq.bci, hsaved, hregisters]
    cases hc : x.method.call? x.bci with
    | none => simp
    | some c =>
      obtain ⟨parameters, result, passesMember⟩ := c
      cases result <;> simp [BasicType.isReference]

/-- The record says that the bytecode is executed again, or it is no call, or one that returns
nothing. -/
def Resultless (x : Scope) : Prop :=
  x.reexecute = true ∨
    ∀ c, x.method.call? x.bci = some c → c.result = .void ∨ c.result = .illegal

lemma callResult_eq_none_iff (f : CompiledFrame) (r : DebugRecord) (x : Scope) :
    callResult f r .plain x = none ↔ Resultless x := by
  rw [← Option.not_isSome_iff_eq_none, isSome_callResult, Resultless]
  constructor
  · intro h
    rw [or_iff_not_imp_left, Bool.not_eq_true]
    intro hx c hc
    by_contra hresult
    rw [not_or] at hresult
    exact h ⟨rfl, hx, c, hc, hresult⟩
  · rintro (hx | hnone) ⟨-, hx', c, hc, hvoid, hillegal⟩
    · rw [hx] at hx'
      cases hx'
    · exact (hnone c hc).elim hvoid hillegal

/-- A call that is forced to be executed again finds the expressions of its scope on the stack, and
on top of them a result: what is in the first register, or null. It finds the expressions alone
exactly if the record says that the bytecode is executed again, or it is no call, or one that
returns nothing. The request is gone afterwards. -/
theorem expressions_forced_iff {verify : Bool} {ty : BasicType} (ht : t.forcesReexecution = true)
    (htarget : target t = .ok (frame, caller)) (hrecord : frame.record = .ok (f, r))
    (hscopes : r.scopes = x :: xs) (hfetch : fetch s m t mode = .ok (l, m', u))
    (hunpack : unpack .faithful verify u .plain = .ok (ty, v)) :
    ∃ got ws g gs a, recover s m t.enterHandler mode frame.id f r = .ok got ∧
      f.resolveAll got.table x.expressions = .ok ws ∧
      v.stack = g :: gs ∧ g.kind = .interpreted a ∧ a.method = x.method ∧ a.bci = x.bci ∧
      a.expressions = ws ++ (callResult { f with savedResult := none } r .plain x).toList ∧
      (a.expressions = ws ↔ Resultless x) ∧ v.forcesReexecution = false := by
  obtain ⟨got, p, q, qs, hgot, hp, rfl, hframes, hq, htype, hregisters, hsaved⟩ :=
    exists_repeats htarget hrecord hscopes hfetch
  rw [savedResult_of_forced ht] at hsaved
  obtain ⟨p', w, hp', hrun, rfl⟩ := unpack_spec hunpack
  obtain rfl : p = p' := Option.some.inj (hp.symm.trans hp')
  obtain ⟨p'', hp'', -, hfits⟩ := fits_of_fetch hfetch
  obtain rfl : p = p'' := Option.some.inj (hp.symm.trans hp'')
  obtain ⟨g, gs, hstack, hkind⟩ := exists_newest hfits hframes hrun
  have hexpressions : (activate p.layout q true .plain).expressions =
      q.expressions ++ (callResult { f with savedResult := none } r .plain x).toList := by
    rw [activate, resultFor_eq hq htype hregisters hsaved]
  refine ⟨got, q.expressions, g, gs, _, hgot, hq.expressions, hstack, hkind, hq.method, hq.bci,
    hexpressions, ?_, rfl⟩
  rw [hexpressions, List.append_right_eq_self, Option.toList_eq_nil_iff, callResult_eq_none_iff]

end

namespace Recalled

/-- An activation at a call that returns an int, with a seven on its expression stack. -/
def scope (reexecute : Bool) : Scope :=
  { method := Inlined.inner, bci := 0, reexecute, expressions := [.int 7] }

def record (reexecute : Bool) : DebugRecord := { offset := 8, scopes := [scope reexecute] }

def compiled (reexecute : Bool) : CompiledFrame where
  region := { Inlined.region with debug := ⟨[record reexecute]⟩ }
  slots := #[]
  registers := #[.raw 3]

def frame (reexecute : Bool) : Frame :=
  { Inlined.frame with kind := .compiled (compiled reexecute) }

/-- A thread that is forced to execute the call in its newest frame again. -/
def thread (reexecute : Bool) : Thread :=
  { Inlined.thread with
    stack := [frame reexecute, Inlined.caller, Inlined.entry]
    forcesReexecution := true
    preservedWords := 1 }

end Recalled

open Recalled

/-- If the record says that the call is executed again, then no result is pushed. -/
theorem expressions_forced_recorded : (thread true).forcesReexecution = true ∧
    target (thread true) = .ok (frame true, Inlined.caller) ∧
    (frame true).record = .ok (compiled true, record true) ∧
    ∃ l m' u ty v g gs a,
      fetch Inlined.supply Inlined.memory (thread true) .plain = .ok (l, m', u) ∧
      unpack .faithful true u .plain = .ok (ty, v) ∧ v.stack = g :: gs ∧
      g.kind = .interpreted a ∧ a.expressions = [.raw 7] := by
  obtain ⟨l, m', u, ty, v, hfetch, hunpack⟩ : ∃ l m' u ty v,
      fetch Inlined.supply Inlined.memory (thread true) .plain = .ok (l, m', u) ∧
      unpack .faithful true u .plain = .ok (ty, v) := ⟨_, _, _, _, _, rfl, rfl⟩
  have hscopes : (record true).scopes = [scope true] := rfl
  obtain ⟨got, ws, g, gs, a, -, hws, hstack, hkind, -, -, -, hiff, -⟩ :=
    expressions_forced_iff rfl rfl rfl hscopes hfetch hunpack
  have hseven : ws = [.raw 7] := Except.ok.inj (hws.symm.trans rfl)
  refine ⟨rfl, rfl, rfl, l, m', u, ty, v, g, gs, a, hfetch, hunpack, hstack, hkind, ?_⟩
  rw [hiff.2 (.inl rfl), hseven]

/-- If it does not, then the three in the first register is pushed, though there is no result
yet. -/
theorem forced_with_result : (thread false).forcesReexecution = true ∧
    target (thread false) = .ok (frame false, Inlined.caller) ∧
    (frame false).record = .ok (compiled false, record false) ∧
    (∀ table, (compiled false).resolveAll table (scope false).expressions = .ok [.raw 7]) ∧
    ∃ l m' u ty v g gs a,
      fetch Inlined.supply Inlined.memory (thread false) .plain = .ok (l, m', u) ∧
      unpack .faithful false u .plain = .ok (ty, v) ∧ v.stack = g :: gs ∧
      g.kind = .interpreted a ∧ a.expressions = [.raw 7, .raw 3] :=
  ⟨rfl, rfl, rfl, fun _ => rfl, _, _, _, _, _, _, _, _, rfl, rfl, rfl, rfl, rfl⟩

end Bailout.Unwind
