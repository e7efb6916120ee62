import Bailout.Proofs.Unwind.Replace

/-!
# What a refused object leaves behind

A plan that cannot restore an object notes how many activations are not going to run, and the note
is never taken back. Every later plan of the thread takes it for its own: it comes to nothing, or
it throws whatever happens to be pending.
-/

namespace Bailout.Unwind

variable {s : Restore.Supply} {m m' : Memory} {t₀ t u v w : Thread} {mode : Mode}
  {frame caller : Frame} {f : CompiledFrame} {r : DebugRecord} {l : Layout} {got : Recovery}
  {thrown : Option Thrown} {p : Plan} {plans : List Plan} {ps : List Packed}

/-! ### The note -/

/-- What becomes of a thread on which plans are made and carried out while frames come and go. The
plans are listed newest first. -/
inductive History (t₀ : Thread) : List Plan → Thread → Prop where
  | start : History t₀ [] t₀
  | fetch (s : Restore.Supply) (m : Memory) (mode : Mode) {plans : List Plan} {t u : Thread}
      {l : Layout} {m' : Memory} {p : Plan} (hist : History t₀ plans t)
      (h : fetch s m t mode = .ok (l, m', u)) (hp : u.plan = some p) : History t₀ (p :: plans) u
  | unpack (k : Unpacker) (verify : Bool) (mode : Mode) {plans : List Plan} {t u : Thread}
      {ty : BasicType} (hist : History t₀ plans t) (h : unpack k verify t mode = .ok (ty, u)) :
      History t₀ plans u
  | push (words pc : Nat) (kind : FrameKind) {plans : List Plan} {t u : Thread}
      (hist : History t₀ plans t) (h : t.push words pc kind = .ok u) : History t₀ plans u
  | pop {plans : List Plan} {t : Thread} (hist : History t₀ plans t) : History t₀ plans t.pop.2

lemma Fetched.framesToPop (h : Fetched s m t mode l m' u frame f r got thrown v w) :
    u.framesToPop = if got.failed then r.scopes.length else t.framesToPop := by
  obtain ⟨p, hu, -, -⟩ := h.thread
  obtain ⟨ps, ps', hlength, habandon⟩ := h.abandon
  have hw : w.framesToPop = v.framesToPop := by rw [raise_spec h.raise]
  have hgot : got.thread.framesToPop = t.framesToPop := by
    rw [(recover_spec h.recover).1]
    rfl
  rw [hu, hw]
  unfold Unwind.abandon at habandon
  split_ifs at habandon ⊢
  · simp only [bind_eq_ok, pure_eq_ok, Prod.mk.injEq] at habandon
    obtain ⟨_, -, -, rfl, -⟩ := habandon
    exact hlength
  · simp only [pure_eq_ok, Prod.mk.injEq] at habandon
    obtain ⟨-, rfl, -⟩ := habandon
    exact hgot

lemma framesToPop_fetch (h : fetch s m t mode = .ok (l, m', u)) (hp : u.plan = some p) :
    u.framesToPop = 0 ↔ p.failed = false ∧ t.framesToPop = 0 := by
  obtain ⟨frame, f, r, got, thrown, v, w, hfetched⟩ := fetch_spec h
  rw [hfetched.framesToPop, hfetched.failed_of_plan hp]
  cases got.failed with
  | false => simp
  | true => simpa using hfetched.scopes

lemma framesToPop_unpack {k : Unpacker} {verify : Bool} {ty : BasicType}
    (h : unpack k verify t mode = .ok (ty, u)) : u.framesToPop = t.framesToPop := by
  obtain ⟨p, v, -, hv, rfl⟩ := unpack_spec h
  have hsame := sameButFrames_run hv
  rw [SameButFrames] at hsame
  rw [hsame]
  rfl

lemma framesToPop_push {words pc : Nat} {kind : FrameKind} (h : t.push words pc kind = .ok u) :
    u.framesToPop = t.framesToPop := by
  simp only [Thread.push, bind_eq_ok, pure_eq_ok] at h
  obtain ⟨_, -, rfl⟩ := h
  rfl

/-- The note says whether any plan has failed so far. -/
theorem History.framesToPop_eq_zero_iff (ht : t₀.framesToPop = 0) (hist : History t₀ plans t) :
    t.framesToPop = 0 ↔ ∀ p ∈ plans, p.failed = false := by
  induction hist with
  | start => simp [ht]
  | fetch s m mode _ h hp ih => rw [framesToPop_fetch h hp, ih, List.forall_mem_cons]
  | unpack k verify mode _ h ih => rw [framesToPop_unpack h, ih]
  | push words pc kind _ h ih => rw [framesToPop_push h, ih]
  | pop _ ih => exact ih

/-! ### The next plan -/

/-- A mode in which nothing is thrown stays as it is exactly if there is no note. -/
lemma raise_none_iff (hmode : mode = .plain ∨ mode = .reexecute) :
    raise t mode none = .ok (v, mode) ↔ t.framesToPop = 0 ∧ v = t := by
  have htrap : mode ≠ .uncommonTrap := by
    rcases hmode with rfl | rfl <;> decide
  have hexception : .exception ≠ mode := by
    rcases hmode with rfl | rfl <;> decide
  simp only [raise, Option.isSome_none, Bool.false_eq_true, if_false]
  split_ifs with hnote
  · simp only [bind_eq_ok, pure_eq_ok, Prod.mk.injEq, hexception, and_false, exists_const,
      false_iff, not_and]
    intro hzero
    exact absurd hnote.1 (by omega)
  · have hzero : t.framesToPop = 0 := by
      by_contra hne
      exact hnote ⟨Nat.pos_of_ne_zero hne, htrap⟩
    simp only [pure_eq_ok, Prod.mk.injEq, and_true, hzero, true_and]
    exact eq_comm

/-- On a thread that has lived through some plans, a plan for which everything is there and that has
nothing to throw keeps its mode and leaves the exceptions alone, and comes about in the first place,
exactly if none of the earlier plans has failed. -/
theorem fetch_unchanged_iff (ht : t₀.framesToPop = 0) (hist : History t₀ plans t)
    (hmode : mode = .plain ∨ mode = .reexecute)
    (h : Plannable s m t mode frame caller f r got ps l) :
    (∃ l m' u, fetch s m t mode = .ok (l, m', u) ∧ l.mode = mode ∧ u.pending = t.pending ∧
      u.exception = t.exception) ↔ ∀ p ∈ plans, p.failed = false := by
  rw [← hist.framesToPop_eq_zero_iff ht]
  have hnote : got.thread.framesToPop = t.framesToPop := by
    rw [h.thread]
    rfl
  constructor
  · rintro ⟨l', m', u, hfetch, hl, -, -⟩
    obtain ⟨v, hraise⟩ := h.raise_of_fetch hfetch
    rw [hl, raise_none_iff hmode, hnote] at hraise
    exact hraise.1
  · intro hzero
    have hraise := (raise_none_iff hmode).2 ⟨hnote.trans hzero, rfl⟩
    refine ⟨_, _, _, h.fetch_eq hraise, rfl, ?_, ?_⟩
    · rw [h.thread]
      rfl
    · rw [h.thread]
      rfl

namespace Repeated

open Inlined (outer supply)

/-- An object was eliminated where the code stands first. -/
def first : DebugRecord where
  offset := 8
  scopes := [{ method := outer, bci := 0, locals := [.eliminated 7] }]
  objects := [{ id := 7, klass := .base "K" [] none, sources := [] }]

/-- Nothing was eliminated where it stands the next time. -/
def second : DebugRecord where
  offset := 16
  scopes := [{ method := outer, bci := 0 }]

def compiled : CompiledFrame where
  region := {
    ref := 0, compileId := 1, method := outer, start := 0x1000, size := 64, handlerOffset := 48
    debug := ⟨[first, second]⟩ }
  slots := #[]
  registers := #[]

def entry : Frame := ⟨1, Thread.stackBase - 4, 4, 0x40, .entry⟩

def thread : Thread where
  id := 1
  name := "main"
  stack := [⟨2, Thread.stackBase - 8, 4, 0x1008, .compiled compiled⟩, entry]
  lastFrameId := 2

def again : Frame := ⟨4, Thread.stackBase - 8, 4, 0x1010, .compiled compiled⟩

/-- The heap hands nothing out. -/
def exhausted : Memory where
  heap := { limit := 0 }

lemma granted : ∃ p t got ps l, History thread [p] t ∧ p.failed = false ∧
    Plannable supply {} t .plain again entry compiled second got ps l := by
  have h₁ : History thread [_] _ := .fetch supply {} .plain .start rfl rfl
  have h₂ : History thread [_] _ := .unpack .faithful true .plain h₁ rfl
  have h₃ : History thread [_] _ := .push 4 0x1010 (.compiled compiled) h₂.pop rfl
  exact ⟨_, _, _, _, _, h₃, rfl, rfl, rfl, by decide, rfl, rfl, rfl, rfl, rfl, _, rfl, rfl⟩

lemma refused : ∃ p t got ps l, History thread [p] t ∧ p.failed = true ∧
    Plannable supply exhausted t .plain again entry compiled second got ps l ∧
    fetch supply exhausted t .plain = fatal .noPendingException := by
  have h₁ : History thread [_] _ := .fetch supply exhausted .plain .start rfl rfl
  have h₂ : History thread [_] _ := .unpack .faithful true .exception h₁ rfl
  have h₃ : History thread [_] _ := .push 4 0x1010 (.compiled compiled) h₂.pop rfl
  exact ⟨_, _, _, _, _, h₃, rfl, ⟨rfl, rfl, by decide, rfl, rfl, rfl, rfl, rfl, _, rfl, rfl⟩, rfl⟩

end Repeated

/-- After a plan whose object was granted, a second one keeps its mode. -/
theorem fetch_unchanged_granted : Repeated.thread.framesToPop = 0 ∧
    ∃ p t got ps l, History Repeated.thread [p] t ∧
      Plannable Inlined.supply {} t .plain Repeated.again Repeated.entry Repeated.compiled
        Repeated.second got ps l ∧
      ∃ l m' u, fetch Inlined.supply {} t .plain = .ok (l, m', u) ∧ l.mode = .plain ∧
        u.pending = t.pending ∧ u.exception = t.exception := by
  obtain ⟨p, t, got, ps, l, hist, hp, h⟩ := Repeated.granted
  refine ⟨rfl, p, t, got, ps, l, hist, h, ?_⟩
  rw [fetch_unchanged_iff rfl hist (.inl rfl) h]
  simpa using hp

/-- After a plan whose object was refused, a second one that has nothing to restore is stopped. -/
theorem fetch_fatal_refused : Repeated.thread.framesToPop = 0 ∧
    ∃ p t got ps l, History Repeated.thread [p] t ∧ p.failed = true ∧
      Plannable Inlined.supply Repeated.exhausted t .plain Repeated.again Repeated.entry
        Repeated.compiled Repeated.second got ps l ∧
      fetch Inlined.supply Repeated.exhausted t .plain = fatal .noPendingException :=
  ⟨rfl, Repeated.refused⟩

end Bailout.Unwind
