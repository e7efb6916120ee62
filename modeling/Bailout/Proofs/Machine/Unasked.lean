import Bailout.Proofs.Machine.Places

/-!
# Traps that ask for nothing

A trap that leaves the code as it is asks for nothing. The history of the method is only looked at
then, but it may have the code invalidated all the same. No count and no record changes, whatever
comes of that. Two marks are made none the less: a recompilation that the bytecode seems to have
caused again is counted, and the handler that starts at the bytecode is taken to be entered.
-/

namespace Bailout

/-! ### Marks in a history -/

lemma saturatingNext_eq_self {n : Nat} : saturatingNext n = n ↔ n = counterLimit - 1 := by
  unfold saturatingNext
  omega

namespace Table

variable {κ ν : Type} [DecidableEq κ]

/-- A value that is there already can be set again. -/
lemma set_of_get? (t : Table κ ν) {k : κ} {v : ν} (h : t.get? k = some v) : t.set k v = t := by
  obtain ⟨es⟩ := t
  rw [set, mk.injEq]
  induction es with
  | nil => cases h
  | cons e es ih =>
    by_cases hk : e.1 = k
    · have hv : e.2 = v := by simpa [get?, hk] using h
      rw [setIn, if_pos hk, ← hk, ← hv]
    · rw [setIn, if_neg hk, ih (by simpa [get?, hk] using h)]

end Table

namespace History

variable {h : History} {bci : Nat} {counted : Bool}

/-- What follows from a verdict is marked: that a recompilation is counted, and that a handler was
entered. -/
def marked (h : History) (bci : Nat) (counted : Bool) : History :=
  let h := if counted then h.countOverflow else h
  (h.enterHandler? bci).getD h

lemma enterHandler_eq (h : History) (bci : Nat) :
    ∃ handlers, (h.enterHandler? bci).getD h = { h with handlers } := by
  unfold enterHandler?
  split_ifs
  · exact ⟨_, rfl⟩
  · exact ⟨h.handlers, rfl⟩

/-- Nothing else is marked. -/
lemma marked_eq (h : History) (bci : Nat) (counted : Bool) :
    ∃ handlers, h.marked bci counted = { h with
      overflowRecompiles :=
        if counted then saturatingNext h.overflowRecompiles else h.overflowRecompiles
      handlers } := by
  obtain ⟨handlers, heq⟩ := (if counted then h.countOverflow else h).enterHandler_eq bci
  refine ⟨handlers, heq.trans ?_⟩
  cases counted <;> rfl

/-- Only a handler that was not entered before is entered. -/
lemma enterHandler_eq_self_iff :
    (h.enterHandler? bci).getD h = h ↔ h.handlers.get? bci ≠ some false := by
  unfold enterHandler?
  rw [Table.contains]
  rcases hget : h.handlers.get? bci with _ | _ | _
  · simp
  · simp only [Option.isSome_some, if_true, Option.getD_some, ne_eq, not_true_eq_false, iff_false]
    intro heq
    have hset := congrArg (fun h : History => h.handlers.get? bci) heq
    rw [Table.get?_set_self, hget] at hset
    cases hset
  · simp [Table.set_of_get? _ hget]

/-- No mark is made if there is nothing to count, or the counter is at its top, and if no handler
waits to be entered. -/
lemma marked_eq_self_iff : h.marked bci counted = h ↔
    (counted = true → h.overflowRecompiles = counterLimit - 1) ∧
      h.handlers.get? bci ≠ some false := by
  have hcounted : (if counted then h.countOverflow else h) = h ↔
      (counted = true → h.overflowRecompiles = counterLimit - 1) := by
    cases counted with
    | false => simp
    | true =>
      rw [if_pos rfl, ← saturatingNext_eq_self]
      exact ⟨fun heq _ => congrArg overflowRecompiles heq, fun heq => by rw [countOverflow, heq rfl]⟩
  constructor
  · intro heq
    have hkept : (if counted then h.countOverflow else h) = h := by
      obtain ⟨handlers, hmarked⟩ := h.marked_eq bci counted
      have hoverflow := congrArg overflowRecompiles (hmarked.symm.trans heq)
      cases counted with
      | false => rfl
      | true => rw [if_pos rfl, countOverflow, show saturatingNext _ = _ from hoverflow]
    rw [marked, hkept] at heq
    exact ⟨hcounted.1 hkept, enterHandler_eq_self_iff.1 heq⟩
  · rintro ⟨hcount, hentered⟩
    rw [marked, hcounted.2 hcount]
    exact enterHandler_eq_self_iff.2 hentered

end History

/-! ### Verdicts -/

namespace Profile

/-- What is known about a trap that asks for nothing. Code that grew too old has no history. -/
def glance (p : Profile) (bci : Nat) (r : Reason) : Option Snapshot :=
  if r = .tenured then none else some (p.history.peek p.decompiles bci r)

/-- The verdict on a trap that asks for nothing. -/
def unasked (p : Profile) (bci : Nat) (r : Reason) (c : Config) : Verdict :=
  Verdict.decide r .leave (p.glance bci r) c

end Profile

lemma MethodState.records_leave (r : Reason) : records r .leave = false := by
  simp [records]

lemma MethodState.consult_leave {s : MethodState} {p : Profile} (hp : s.profile = some p)
    (bci : Nat) (r : Reason) : s.consult bci r .leave = (p.glance bci r, s) := by
  simp only [consult, hp, records_leave, Bool.false_eq_true, if_false, Profile.glance]
  by_cases hr : r = .tenured <;> simp [hr]

/-- Code that grew too old is not invalidated unless that is asked for, so a trap that asks for
nothing is never noted in the profile. -/
lemma Verdict.noteInvalidation_of_leave {r : Reason} {p : Profile} {bci : Nat} {c : Config}
    (hv : (p.unasked bci r c).invalidate = true) (h : History) :
    h.noteInvalidation bci r .leave = h := by
  have hr : r ≠ .tenured := by
    rintro rfl
    cases hv
  simp [History.noteInvalidation, MethodState.records_leave, hr]

/-! ### Traps -/

namespace Machine

variable {m m' : Machine} {s : Site} {q : Request} {t : Nat} {x : Profile}

lemma judge_of_leave (hlt : s.trapped < m.program.methods.size) (hx : m.profileFor s = some x)
    (ha : q.action = .leave) :
    (m.judge s q).1 = x.unasked s.scope.bci q.reason m.config := by
  rw [judge_fst, ha, MethodState.consult_leave ((profile_prepareTrap_eq hlt).trans hx)]
  rfl

lemma profile_judge_of_leave (hlt : s.trapped < m.program.methods.size)
    (hx : m.profileFor s = some x) (ha : q.action = .leave) :
    ((m.judge s q).2.program.method s.trapped).profile = some x := by
  rw [profile_judge hlt, ha, MethodState.records_leave, if_neg Bool.false_ne_true, hx]

/-- The history after a trap that asks for nothing: it is as before if the code was invalidated by
another trap already, and otherwise what follows from the verdict is marked. -/
theorem history_handleTrap_of_leave (hs : Site.find (m.thread t) = .ok s) (hin : s.In m)
    (ha : q.action = .leave) (hx : m.profileFor s = some x) (h : m.handleTrap t q = .ok m') :
    (m'.program.method s.trapped).profile.map Profile.history =
      some (if (x.unasked s.scope.bci q.reason m.config).invalidate = true ∧
          (m.program.code.state s.region.ref).inUse = false then x.history
        else x.history.marked s.scope.bci
          (x.unasked s.scope.bci q.reason m.config).countRecompile) := by
  have hl := m.learns_judge s q
  have hprofile := profile_judge_of_leave hin.trapped_lt hx ha
  rw [handleTrap_eq_ok hs, judge_of_leave hin.trapped_lt hx ha] at h
  rcases execute_cases h with
    ⟨m₂, hv, hcarry, hp, -⟩ | ⟨hv, huse, hp, -⟩ | ⟨p, m₁, m₂, hv, hi, rfl, hcarry, hp, -⟩
  · rw [hp, profile_settle hcarry, if_pos rfl, hprofile, hv, if_neg (by simp)]
    rfl
  · rw [hp, hprofile, if_pos ⟨hv, hl.code ▸ huse⟩]
    rfl
  · -- The charge, if there is one, is not part of the history.
    have hopen : (m.program.code.state s.region.ref).inUse ≠ false := by
      rw [← hl.code]
      simp [← (Program.invalidate_news hi).1]
    have hcharged : (p.method s.trapped).profile = some x ∨
        (p.method s.trapped).profile = some x.charged := by
      rw [Program.profile_of_invalidate hi (hl.code ▸ hin.ref_lt), hprofile]
      split_ifs
      · exact .inr rfl
      · exact .inl rfl
    rw [hp, profile_settle hcarry, if_pos rfl, profile_noteInvalidation, if_pos rfl, ha,
      if_neg fun hc => hopen hc.2]
    rcases hcharged with hcharged | hcharged
    all_goals
      simp only [hcharged, Option.map_some, Profile.mapHistory, Verdict.noteInvalidation_of_leave hv]
      rfl

/-- A trap that asks for nothing leaves all counts and records in the history of its method, but not
always the history as a whole. That stays as it is exactly if the history has the code invalidated
and another trap was faster, or if neither a recompilation is counted, which the counter had room
for, nor a handler starts at the bytecode that was not entered before. -/
theorem history_of_leave_iff (hs : Site.find (m.thread t) = .ok s) (hin : s.In m)
    (ha : q.action = .leave) (hx : m.profileFor s = some x)
    (h : m.handleTrap t q = .ok m' ∨ ∃ l, m.uncommonTrap t q = .ok (l, m')) :
    ∃ y, (m'.program.method s.trapped).profile = some y ∧
      y.history.counts = x.history.counts ∧ y.history.records = x.history.records ∧
      y.history.capacity = x.history.capacity ∧
      y.history.tenureTraps = x.history.tenureTraps ∧
      (y.history = x.history ↔
        ((x.unasked s.scope.bci q.reason m.config).invalidate = true ∧
          (m.program.code.state s.region.ref).inUse = false) ∨
        (((x.unasked s.scope.bci q.reason m.config).countRecompile = true →
            x.history.overflowRecompiles = counterLimit - 1) ∧
          x.history.handlers.get? s.scope.bci ≠ some false)) := by
  have hhandled : ∃ m₁, m.handleTrap t q = .ok m₁ ∧ m'.program = m₁.program := by
    rcases h with h | ⟨l, h⟩
    · exact ⟨m', h, rfl⟩
    · simp only [uncommonTrap, fetch, bind_eq_ok, pure_eq_ok, Prod.mk.injEq] at h
      obtain ⟨m₁, hm₁, _, -, -, rfl⟩ := h
      exact ⟨m₁, hm₁, rfl⟩
  obtain ⟨m₁, hm₁, hprogram⟩ := hhandled
  have hhistory := history_handleTrap_of_leave hs hin ha hx hm₁
  rw [← hprogram, Option.map_eq_some_iff] at hhistory
  obtain ⟨y, hy, hhistory⟩ := hhistory
  refine ⟨y, hy, ?_⟩
  rw [hhistory]
  split_ifs with hlate
  · exact ⟨rfl, rfl, rfl, rfl, ⟨fun _ => .inl hlate, fun _ => rfl⟩⟩
  · obtain ⟨handlers, hmarked⟩ := x.history.marked_eq s.scope.bci
      (x.unasked s.scope.bci q.reason m.config).countRecompile
    refine ⟨?_, ?_, ?_, ?_, History.marked_eq_self_iff.trans ⟨.inr, fun h => h.resolve_left hlate⟩⟩
    all_goals rw [hmarked]

/-- Null checks fail twice at one bytecode and once at the other, and so often is too often for the
first one. The next trap there asks for nothing. It has the code invalidated, and is forgotten. -/
theorem history_of_leave_iff_twin : ∃ m₁ m₂ m m' s x,
    Twin.machine.handleTrap 0 (Worn.nullCheck .maybeRecompile) = .ok m₁ ∧
    m₁.handleTrap 0 (Worn.nullCheck .maybeRecompile) = .ok m₂ ∧
    m₂.handleTrap 1 (Worn.nullCheck .maybeRecompile) = .ok m ∧
    Site.find (m.thread 0) = .ok s ∧ s.In m ∧ m.profileFor s = some x ∧
    m.handleTrap 0 (Worn.nullCheck .leave) = .ok m' ∧
    (m.program.code.state 0).inUse = true ∧ (m'.program.code.state 0).inUse = false ∧
    ∃ y, (m'.program.method s.trapped).profile = some y ∧ y.history = x.history := by
  obtain ⟨m₁, m₂, m, m', s, x, h₁, h₂, h₃, hs, hin, hx, h, hopen, hclosed, hcount, hhandlers⟩ :
      ∃ m₁ m₂ m m' s x,
        Twin.machine.handleTrap 0 (Worn.nullCheck .maybeRecompile) = .ok m₁ ∧
        m₁.handleTrap 0 (Worn.nullCheck .maybeRecompile) = .ok m₂ ∧
        m₂.handleTrap 1 (Worn.nullCheck .maybeRecompile) = .ok m ∧
        Site.find (m.thread 0) = .ok s ∧ s.In m ∧ m.profileFor s = some x ∧
        m.handleTrap 0 (Worn.nullCheck .leave) = .ok m' ∧
        (m.program.code.state 0).inUse = true ∧ (m'.program.code.state 0).inUse = false ∧
        (x.unasked s.scope.bci .nullCheck m.config).countRecompile = false ∧
        x.history.handlers = {} :=
    ⟨_, _, _, _, _, _, rfl, rfl, rfl, rfl, ⟨rfl, by decide, by decide⟩, rfl, rfl, by decide,
      by decide, by decide, rfl⟩
  obtain ⟨y, hy, -, -, -, -, hiff⟩ := history_of_leave_iff hs hin (by decide) hx (.inl h)
  have hreason : (Worn.nullCheck .leave).reason = .nullCheck := by decide
  refine ⟨m₁, m₂, m, m', s, x, h₁, h₂, h₃, hs, hin, hx, h, hopen, hclosed, y, hy,
    hiff.2 (.inr ⟨fun hv => ?_, by simp [hhandlers]⟩)⟩
  rw [hreason, hcount] at hv
  cases hv

namespace Worn

/-- The handler of an exception starts at the bytecode where the threads trap. -/
def guarded : Machine :=
  { machine with program := { machine.program with
      methods := #[{ method, profile := some {
        method := 1, history := (History.empty 1).registerHandler 2 } }] } }

end Worn

/-- Traps that ask for nothing change the history. A first one enters the handler that starts at its
bytecode. Others are counted until the code is invalidated; and when a last one that asks for
nothing invalidates the code as it is compiled next, the recompilation is counted. -/
theorem unasked_marked : ∃ m₁ m₂ m m' x₁ x y,
    Worn.guarded.handleTrap 0 (Worn.nullCheck .leave) = .ok m₁ ∧
    m₁.handleTrap 0 (Worn.nullCheck .maybeRecompile) = .ok m₂ ∧
    m₂.handleTrap 0 (Worn.nullCheck .maybeRecompile) = .ok m ∧
    m.handleTrap 1 (Worn.nullCheck .leave) = .ok m' ∧
    (m₁.program.method 0).profile = some x₁ ∧ (m.program.method 0).profile = some x ∧
    (m'.program.method 0).profile = some y ∧
    x₁.history ≠ (History.empty 1).registerHandler 2 ∧ x₁.history.handlerEntered 2 = true ∧
    y.history ≠ x.history ∧ x.history.overflowRecompiles = 0 ∧
    y.history.overflowRecompiles = 1 :=
  ⟨_, _, _, _, _, _, _, rfl, rfl, rfl, rfl, rfl, rfl, rfl, by decide, by decide, by decide,
    by decide, by decide⟩

end Machine
end Bailout
