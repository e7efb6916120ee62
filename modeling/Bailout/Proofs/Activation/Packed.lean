import Bailout.Activation.Packed
import Bailout.Proofs.Checked

/-!
# Packing readable activations

An activation is readable in a compiled frame if the frame has every place that is named, and holds
a reference wherever one is read. The values of a readable activation can be taken out of the frame
whatever the eliminated objects were restored to.
-/

namespace Bailout

/-! ### What can be read -/

/-- A word can be read in this way. A reference cannot be read from a nonzero word. -/
def Reading.Accepts : Reading → Word → Prop
  | .reference, .raw b => b = 0
  | _, _ => True

namespace CompiledFrame

/-- The frame has what is at a location. -/
def Holds (f : CompiledFrame) (l : Location) : Prop :=
  l.reading = .invalid ∨ ∃ w, f.word? l.place = some w ∧ l.reading.Accepts w

/-- The frame has the value of a source. -/
def Supplies (f : CompiledFrame) : Source → Prop
  | .located l => f.Holds l
  | _ => True

end CompiledFrame

/-- Every value of an activation can be read in a compiled frame. -/
structure Scope.Readable (f : CompiledFrame) (s : Scope) : Prop where
  locals : ∀ x ∈ s.locals, f.Supplies x
  expressions : ∀ x ∈ s.expressions, f.Supplies x
  monitors : ∀ h ∈ s.monitors, f.Supplies h.owner

namespace CompiledFrame

variable {f : CompiledFrame} {l : Location} {x : Source} {s : Scope} {h : HeldMonitor}

lemma exists_interpret {r : Reading} {w : Word} (hr : r.Accepts w) (p : Place) :
    ∃ v, r.interpret p w = .ok v := by
  cases r with
  | reference =>
    cases w with
    | raw b =>
      obtain rfl : b = 0 := hr
      exact ⟨.null, rfl⟩
    | ref o => exact ⟨.ref o, rfl⟩
  | _ => exact ⟨_, rfl⟩

lemma exists_read (hl : f.Holds l) : ∃ w, f.read l = .ok w := by
  rcases hl with hl | ⟨w, hw, ha⟩
  · exact ⟨.zero, by rw [read, hl]; rfl⟩
  · cases hr : l.reading with
    | invalid => exact ⟨.zero, by rw [read, hr]; rfl⟩
    | _ =>
      rw [hr] at ha
      simp only [read, hr, hw]
      exact exists_interpret ha l.place

lemma exists_resolve (hx : f.Supplies x) (t : Restored) : ∃ w, f.resolve t x = .ok w := by
  cases x with
  | located l => exact exists_read hx
  | _ => exact ⟨_, rfl⟩

lemma exists_resolveAll {xs : List Source} (hxs : ∀ x ∈ xs, f.Supplies x) (t : Restored) :
    ∃ ws, f.resolveAll t xs = .ok ws :=
  exists_mapM_eq_ok fun x hx => exists_resolve (hxs x hx) t

lemma exists_guard (hh : f.Supplies h.owner) (t : Restored) : ∃ g, f.guard t h = .ok g := by
  obtain ⟨w, hw⟩ := exists_resolve hh t
  unfold guard
  split
  · exact ⟨_, rfl⟩
  · exact ⟨_, by rw [hw, ok_bind]; rfl⟩

lemma exists_guards (hs : s.Readable f) (t : Restored) : ∃ gs, f.guards t s = .ok gs :=
  exists_mapM_eq_ok fun h hh => exists_guard (hs.monitors h hh) t

/-- An owner that is missing was to be restored and was not. -/
lemma guard_spec {t : Restored} {g : Guard} (hg : f.guard t h = .ok g) :
    g.eliminated = h.eliminated ∧
      (g.missing = true → g.owner = none ∧ ∃ id, h.owner = .eliminated id ∧ t.get id = none) := by
  unfold guard at hg
  split at hg
  next id hid =>
    cases hg
    refine ⟨rfl, fun hm => ?_⟩
    have hnone : t.get id = none := by simpa using hm
    exact ⟨hnone, id, hid, hnone⟩
  next =>
    obtain ⟨w, -, hw⟩ := bind_eq_ok.1 hg
    cases hw
    exact ⟨rfl, fun hm => by cases hm⟩

end CompiledFrame

/-! ### What is packed -/

namespace Packed

variable {f : CompiledFrame} {t : Restored} {s : Scope} {p : Packed}

/-- The packed activation has the values of an activation in a compiled frame. -/
structure Of (f : CompiledFrame) (t : Restored) (s : Scope) (p : Packed) : Prop where
  method : p.method = s.method
  bci : p.bci = s.bci
  reexecute : p.reexecute = s.reexecute
  locals : f.resolveAll t s.locals = .ok p.locals
  expressions : f.resolveAll t s.expressions = .ok p.expressions
  monitors : ∃ gs, f.guards t s = .ok gs ∧ p.monitors = gs.map lockOf

theorem ofScope_spec (h : ofScope f t s = .ok p) : Of f t s p := by
  simp only [ofScope, bind_eq_ok, pure_eq_ok] at h
  obtain ⟨gs, hgs, locals, hlocals, expressions, hexpressions, rfl⟩ := h
  exact ⟨rfl, rfl, rfl, hlocals, hexpressions, gs, hgs, rfl⟩

lemma exists_ofScope (hs : s.Readable f) (t : Restored) : ∃ p, ofScope f t s = .ok p := by
  obtain ⟨gs, hgs⟩ := CompiledFrame.exists_guards hs t
  obtain ⟨locals, hlocals⟩ := CompiledFrame.exists_resolveAll hs.locals t
  obtain ⟨expressions, hexpressions⟩ := CompiledFrame.exists_resolveAll hs.expressions t
  exact ⟨_, by rw [ofScope, hgs, ok_bind, hlocals, ok_bind, hexpressions, ok_bind]; rfl⟩

lemma of_ofScopes {ss : List Scope} {ps : List Packed} (h : ss.mapM (ofScope f t) = .ok ps) :
    List.Forall₂ (Of f t) ss ps :=
  (mapM_eq_ok.1 h).imp fun _ _ => ofScope_spec

theorem exists_ofScopes {ss : List Scope} (hss : ∀ s ∈ ss, s.Readable f) (t : Restored) :
    ∃ ps, ss.mapM (ofScope f t) = .ok ps ∧ List.Forall₂ (Of f t) ss ps := by
  obtain ⟨ps, hps⟩ := exists_mapM_eq_ok fun s hs => exists_ofScope (hss s hs) t
  exact ⟨ps, hps, of_ofScopes hps⟩

lemma Of.length_expressions (h : Of f t s p) : p.expressions.length = s.expressions.length :=
  (mapM_eq_ok.1 h.expressions).length_eq.symm

lemma Of.length_monitors (h : Of f t s p) : p.monitors.length = s.monitors.length := by
  obtain ⟨gs, hgs, hp⟩ := h.monitors
  rw [hp, List.length_map]
  exact (mapM_eq_ok.1 hgs).length_eq.symm

end Packed
end Bailout
