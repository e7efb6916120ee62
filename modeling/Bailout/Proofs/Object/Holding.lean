import Mathlib.Data.List.Range
import Mathlib.Logic.Function.Basic
import Bailout.Proofs.Unwind.Release
import Bailout.Machine.Basic

/-!
# Who holds a monitor

Threads enter and leave monitors, put relocks off while they wait, and come back from waiting. After
any number of such steps that fits a counter, a monitor is held by one thread at most, and as often
as that thread entered it and made relocks good, less the times it left. Every relock that was put
off is made good once, when its thread next comes back from a wait.
-/

namespace Bailout

/-! ### One monitor -/

namespace Monitor

variable {m m' : Monitor} {t u n : Nat}

lemma holdCount_pos_iff : 0 < m.holdCount t ↔ m.owner = some t := by
  rw [holdCount]
  split_ifs with h
  · exact iff_of_true (Nat.succ_pos _) h
  · exact iff_of_false (Nat.lt_irrefl 0) h

lemma deepen_spec (h : m.deepen n = .ok m') (ho : m.owner = some t) :
    m'.owner = some t ∧ m'.holdCount t = m.holdCount t + n := by
  rw [deepen] at h
  split_ifs at h
  cases h
  refine ⟨ho, ?_⟩
  rw [holdCount, holdCount, if_pos ho, if_pos ho, Nat.add_right_comm]

lemma exists_deepen (ho : m.owner = some t) (hc : m.holdCount t + n ≤ counterLimit) :
    ∃ m', m.deepen n = .ok m' := by
  rw [holdCount, if_pos ho] at hc
  exact ⟨_, if_pos (by omega)⟩

lemma enter_eq_ok : m.enter t = .ok m' ↔ m.tryEnter t = .ok (some m') := by
  rw [enter, bind_eq_ok]
  constructor
  · rintro ⟨_ | m₁, htry, h⟩
    · cases h
    · cases h
      exact htry
  · intro h
    exact ⟨_, h, rfl⟩

/-- Trying to enter a monitor fails if another thread owns it. -/
lemma tryEnter_eq_none : m.tryEnter t = .ok none ↔ ∃ u, u ≠ t ∧ m.owner = some u := by
  rw [tryEnter]
  cases ho : m.owner with
  | none => simp
  | some o =>
    by_cases hot : o = t
    · simp only [if_pos hot, deepen]
      split_ifs <;> simp [hot]
    · simp [hot]

lemma exists_tryEnter (hc : m.holdCount t < counterLimit) : ∃ m?, m.tryEnter t = .ok m? := by
  by_cases ho : m.owner = none ∨ m.owner = some t
  · obtain ⟨m', hm⟩ := exists_enter ho hc
    exact ⟨_, enter_eq_ok.1 hm⟩
  · rw [not_or, ← ne_eq, Option.ne_none_iff_exists'] at ho
    obtain ⟨⟨u, hu⟩, hne⟩ := ho
    exact ⟨_, tryEnter_eq_none.2 ⟨u, fun hut => hne (hut ▸ hu), hu⟩⟩

/-- A thread can enter if no other one owns the monitor. -/
lemma owner_of_enter (h : m.enter t = .ok m') : m.owner = none ∨ m.owner = some t := by
  cases ho : m.owner with
  | none => exact .inl rfl
  | some u =>
    by_contra hne
    have hut : u ≠ t := by
      rintro rfl
      exact hne (.inr rfl)
    have hnone := tryEnter_eq_none.2 ⟨u, hut, ho⟩
    rw [enter_eq_ok.1 h] at hnone
    cases hnone

/-- A thread that owns a monitor is the only one that holds it. -/
lemma holdCount_of_owner (ho : m.owner = none ∨ m.owner = some t) (hu : u ≠ t) :
    m.holdCount u = 0 := by
  rw [holdCount, if_neg]
  rcases ho with ho | ho
  · rw [ho]
    exact (Option.some_ne_none u).symm
  · rw [ho]
    exact fun h => hu (Option.some.inj h).symm

lemma holdCount_enter (h : m.enter t = .ok m') (u : Nat) :
    m'.holdCount u = m.holdCount u + if u = t then 1 else 0 := by
  obtain ⟨ho, hcount⟩ := enter_spec h
  split_ifs with hu
  · rw [hu, hcount]
  · rw [holdCount_of_owner (.inr ho) hu, holdCount_of_owner (owner_of_enter h) hu]

lemma holdCount_exit? (h : m.exit? t = some m') (u : Nat) :
    m'.holdCount u + (if u = t then 1 else 0) = m.holdCount u := by
  have hcount := exit?_spec h
  split_ifs with hu
  · rw [hu, hcount]
  · have ho : m.owner = some t := holdCount_pos_iff.1 (by omega)
    have ho' : m'.owner = none ∨ m'.owner = some t := by
      rw [exit?, if_pos ho] at h
      split_ifs at h <;> cases h
      · exact .inr ho
      · exact .inl rfl
    rw [holdCount_of_owner ho' hu, holdCount_of_owner (.inr ho) hu]

lemma isSome_exit? : (m.exit? t).isSome = true ↔ 0 < m.holdCount t := by
  constructor
  · intro h
    obtain ⟨m', hm⟩ := Option.isSome_iff_exists.1 h
    exact exit?_spec hm ▸ Nat.succ_pos _
  · intro h
    obtain ⟨m', hm⟩ := exists_exit? h
    rw [hm, Option.isSome_some]

lemma holdCount_reacquire (h : m.reacquire t n = .ok m') (u : Nat) :
    m'.holdCount u = m.holdCount u + if u = t then 1 + n else 0 := by
  rw [reacquire, bind_eq_ok] at h
  obtain ⟨m₁, hm, h⟩ := h
  obtain ⟨ho, hcount⟩ := enter_spec hm
  obtain ⟨ho', hcount'⟩ := deepen_spec h ho
  split_ifs with hu
  · rw [hu, hcount', hcount, Nat.add_assoc]
  · rw [holdCount_of_owner (.inr ho') hu, holdCount_of_owner (owner_of_enter hm) hu]

lemma exists_reacquire (ho : m.owner = none ∨ m.owner = some t)
    (hc : m.holdCount t + n < counterLimit) : ∃ m', m.reacquire t n = .ok m' := by
  obtain ⟨m₁, hm⟩ := exists_enter ho (by omega)
  obtain ⟨ho₁, hcount⟩ := enter_spec hm
  obtain ⟨m', hm'⟩ := exists_deepen ho₁ (n := n) (by omega)
  exact ⟨m', by rw [reacquire, hm, ok_bind, hm']⟩

end Monitor

/-! ### Steps -/

/-- The monitors of all objects, and how many relocks each thread has put off. -/
structure Monitors where
  monitor : Ref → Monitor := fun _ => {}
  deferred : Nat → Nat := fun _ => 0

namespace Monitors

/-- What a thread can do about monitors. -/
inductive Act where
  | enter (r : Ref)
  | tryEnter (r : Ref)
  | exit (r : Ref)
  /-- Put a relock off until the thread comes back from a wait. -/
  | putOff
  /-- Come back from a wait. -/
  | reacquire (r : Ref)
  deriving DecidableEq, Repr

/-- What a thread did. -/
structure Event where
  thread : Nat
  act : Act
  /-- Whether it had any effect. -/
  granted : Bool := true
  /-- How many relocks it made good. -/
  relocked : Nat := 0
  deriving DecidableEq, Repr

def holds (w : Monitors) (r : Ref) (t : Nat) : Nat := (w.monitor r).holdCount t

def setMonitor (w : Monitors) (r : Ref) (m : Monitor) : Monitors :=
  { w with monitor := Function.update w.monitor r m }

def setDeferred (w : Monitors) (t n : Nat) : Monitors :=
  { w with deferred := Function.update w.deferred t n }

/-- What comes of asking for a monitor to change. -/
def settle (w : Monitors) (t : Nat) (a : Act) (r : Ref) : Option Monitor → Event × Monitors
  | some m => ({ thread := t, act := a }, w.setMonitor r m)
  | none => ({ thread := t, act := a, granted := false }, w)

def step (w : Monitors) (t : Nat) (a : Act) : Checked (Event × Monitors) :=
  match a with
  | .enter r => do return w.settle t a r (some (← (w.monitor r).enter t))
  | .tryEnter r => do return w.settle t a r (← (w.monitor r).tryEnter t)
  | .exit r => .ok (w.settle t a r ((w.monitor r).exit? t))
  | .putOff =>
    .ok ({ thread := t, act := a }, w.setDeferred t ((w.deferred t + 1) % counterLimit))
  | .reacquire r => do
    let m ← (w.monitor r).reacquire t (w.deferred t)
    return ({ thread := t, act := a, relocked := w.deferred t }, (w.setMonitor r m).setDeferred t 0)

/-- Let threads act one after the other, and note what they did. -/
def run (acts : List (Nat × Act)) : Checked (List Event × Monitors) :=
  acts.foldlM (fun s a => do
    let (e, w) ← s.2.step a.1 a.2
    return (s.1 ++ [e], w)) ([], {})

namespace Event

variable (t : Nat) (r : Ref) (e : Event)

/-- The thread got into the monitor. -/
def takes : Bool :=
  e.thread = t && e.granted && (e.act = .enter r || e.act = .tryEnter r || e.act = .reacquire r)

/-- The thread left the monitor. -/
def leaves : Bool := e.thread = t && e.granted && e.act = .exit r

def putsOff : Bool := e.thread = t && e.act = .putOff

/-- The thread came back from a wait in some monitor. -/
def comesBack : Bool := e.thread = t && e.act matches .reacquire _

/-- The relocks of the monitor that were made good. -/
def relocks : Nat := if e.thread = t ∧ e.act = .reacquire r then e.relocked else 0

end Event

variable {w w' : Monitors} {t u n : Nat} {a : Act} {e : Event} {r q : Ref} {log : List Event}

@[simp] lemma holds_setMonitor (w : Monitors) (r q : Ref) (m : Monitor) (u : Nat) :
    (w.setMonitor r m).holds q u = if q = r then m.holdCount u else w.holds q u := by
  simp only [holds, setMonitor, Function.update_apply]
  split_ifs <;> rfl

@[simp] lemma holds_setDeferred (w : Monitors) (t n : Nat) (q : Ref) (u : Nat) :
    (w.setDeferred t n).holds q u = w.holds q u := rfl

@[simp] lemma deferred_setMonitor (w : Monitors) (r : Ref) (m : Monitor) :
    (w.setMonitor r m).deferred = w.deferred := rfl

@[simp] lemma deferred_setDeferred (w : Monitors) (t n u : Nat) :
    (w.setDeferred t n).deferred u = if u = t then n else w.deferred u := by
  simp only [setDeferred, Function.update_apply]

/-- What a step does. -/
structure Steps (w : Monitors) (t : Nat) (a : Act) (e : Event) (w' : Monitors) : Prop where
  thread : e.thread = t
  act : e.act = a
  holds : ∀ q u, w'.holds q u + (e.leaves u q).toNat =
    w.holds q u + (e.takes u q).toNat + e.relocks u q
  deferred : ∀ u, w'.deferred u = if e.comesBack u then 0 else
    if e.putsOff u then (w.deferred u + 1) % counterLimit else w.deferred u
  relocked : ∀ u, e.comesBack u = true → e.relocked = w.deferred u

lemma steps_refused (ha : a = .tryEnter r ∨ a = .exit r) :
    Steps w t a { thread := t, act := a, granted := false } w where
  thread := rfl
  act := rfl
  holds q u := by rcases ha with rfl | rfl <;> simp [Event.leaves, Event.takes, Event.relocks]
  deferred u := by rcases ha with rfl | rfl <;> simp [Event.comesBack, Event.putsOff]
  relocked u h := by rcases ha with rfl | rfl <;> simp [Event.comesBack] at h

lemma steps_enters {m : Monitor} (ha : a = .enter r ∨ a = .tryEnter r)
    (h : (w.monitor r).enter t = .ok m) :
    Steps w t a { thread := t, act := a } (w.setMonitor r m) where
  thread := rfl
  act := rfl
  holds q u := by
    have htakes : Event.takes u q { thread := t, act := a } = (decide (u = t) && q = r) := by
      rcases ha with rfl | rfl <;> simp [Event.takes, eq_comm]
    have hrest : Event.leaves u q { thread := t, act := a } = false ∧
        Event.relocks u q { thread := t, act := a } = 0 := by
      rcases ha with rfl | rfl <;> simp [Event.leaves, Event.relocks]
    rw [holds_setMonitor, htakes, hrest.1, hrest.2, Monitor.holdCount_enter h]
    by_cases hq : q = r
    · subst hq
      by_cases hu : u = t <;> simp [hu, holds]
    · simp [hq]
  deferred u := by rcases ha with rfl | rfl <;> simp [Event.comesBack, Event.putsOff]
  relocked u h := by rcases ha with rfl | rfl <;> simp [Event.comesBack] at h

lemma steps_exits {m : Monitor} (h : (w.monitor r).exit? t = some m) :
    Steps w t (.exit r) { thread := t, act := .exit r } (w.setMonitor r m) where
  thread := rfl
  act := rfl
  holds q u := by
    have hcount := Monitor.holdCount_exit? h u
    by_cases hq : q = r
    · subst hq
      rw [holds_setMonitor, if_pos rfl, holds]
      by_cases hu : u = t
      · subst hu
        simpa [Event.leaves, Event.takes, Event.relocks] using hcount
      · simpa [Event.leaves, Event.takes, Event.relocks, hu, Ne.symm hu] using hcount
    · simp [Event.leaves, Event.takes, Event.relocks, hq, Ne.symm hq]
  deferred u := by simp [Event.comesBack, Event.putsOff]
  relocked u h := by simp [Event.comesBack] at h

lemma steps_putsOff : Steps w t .putOff { thread := t, act := .putOff }
    (w.setDeferred t ((w.deferred t + 1) % counterLimit)) where
  thread := rfl
  act := rfl
  holds q u := by simp [Event.leaves, Event.takes, Event.relocks]
  deferred u := by
    by_cases hu : u = t
    · simp [Event.comesBack, Event.putsOff, hu]
    · simp [Event.comesBack, Event.putsOff, hu, Ne.symm hu]
  relocked u h := by simp [Event.comesBack] at h

lemma steps_reacquires {m : Monitor} (h : (w.monitor r).reacquire t (w.deferred t) = .ok m) :
    Steps w t (.reacquire r) { thread := t, act := .reacquire r, relocked := w.deferred t }
      ((w.setMonitor r m).setDeferred t 0) where
  thread := rfl
  act := rfl
  holds q u := by
    have hcount := Monitor.holdCount_reacquire h u
    by_cases hq : q = r
    · subst hq
      rw [holds_setDeferred, holds_setMonitor, if_pos rfl, holds]
      by_cases hu : u = t
      · subst hu
        simpa [Event.leaves, Event.takes, Event.relocks, Nat.add_assoc] using hcount
      · simpa [Event.leaves, Event.takes, Event.relocks, hu, Ne.symm hu] using hcount
    · simp [Event.leaves, Event.takes, Event.relocks, hq, Ne.symm hq]
  deferred u := by
    by_cases hu : u = t
    · simp [Event.comesBack, hu]
    · simp [Event.comesBack, Event.putsOff, hu, Ne.symm hu]
  relocked u h := by
    obtain rfl : t = u := by simpa [Event.comesBack] using h
    rfl

theorem step_spec (h : w.step t a = .ok (e, w')) : Steps w t a e w' := by
  cases a with
  | enter r =>
    simp only [step, bind_eq_ok, pure_eq_ok] at h
    obtain ⟨m, hm, h⟩ := h
    cases h
    exact steps_enters (.inl rfl) hm
  | tryEnter r =>
    simp only [step, bind_eq_ok, pure_eq_ok] at h
    obtain ⟨m?, hm, h⟩ := h
    cases m? with
    | none =>
      cases h
      exact steps_refused (.inl rfl)
    | some m =>
      cases h
      exact steps_enters (.inr rfl) (Monitor.enter_eq_ok.2 hm)
  | exit r =>
    cases hm : (w.monitor r).exit? t with
    | none =>
      rw [step, hm] at h
      cases h
      exact steps_refused (.inr rfl)
    | some m =>
      rw [step, hm] at h
      cases h
      exact steps_exits hm
  | putOff =>
    cases h
    exact steps_putsOff
  | reacquire r =>
    simp only [step, bind_eq_ok, pure_eq_ok] at h
    obtain ⟨m, hm, h⟩ := h
    cases h
    exact steps_reacquires hm

/-! ### When a step can be taken -/

/-- Another thread holds the monitor. -/
def Contended (w : Monitors) (r : Ref) (t : Nat) : Prop := ∃ u, u ≠ t ∧ 0 < w.holds r u

lemma not_contended_iff :
    ¬ w.Contended r t ↔ (w.monitor r).owner = none ∨ (w.monitor r).owner = some t := by
  constructor
  · intro h
    cases ho : (w.monitor r).owner with
    | none => exact .inl rfl
    | some u =>
      refine .inr (congrArg some ?_)
      by_contra hu
      exact h ⟨u, hu, Monitor.holdCount_pos_iff.2 ho⟩
  · rintro ho ⟨u, hu, hpos⟩
    rw [holds, Monitor.holdCount_of_owner ho hu] at hpos
    exact Nat.lt_irrefl 0 hpos

/-- Only a monitor that another thread holds cannot be entered. -/
lemma exists_step_enter_iff (hc : w.holds r t < counterLimit) :
    (∃ x, w.step t (.enter r) = .ok x) ↔ ¬ w.Contended r t := by
  rw [not_contended_iff]
  constructor
  · rintro ⟨x, h⟩
    simp only [step, bind_eq_ok] at h
    obtain ⟨m, hm, -⟩ := h
    exact Monitor.owner_of_enter hm
  · intro ho
    obtain ⟨m, hm⟩ := Monitor.exists_enter ho hc
    exact ⟨_, by rw [step, hm]; rfl⟩

lemma exists_step_reacquire_iff (hc : w.holds r t + w.deferred t < counterLimit) :
    (∃ x, w.step t (.reacquire r) = .ok x) ↔ ¬ w.Contended r t := by
  rw [not_contended_iff]
  constructor
  · rintro ⟨x, h⟩
    simp only [step, Monitor.reacquire, bind_eq_ok] at h
    obtain ⟨_, ⟨m, hm, -⟩, -⟩ := h
    exact Monitor.owner_of_enter hm
  · intro ho
    obtain ⟨m, hm⟩ := Monitor.exists_reacquire ho hc
    exact ⟨_, by rw [step, hm]; rfl⟩

/-- A step is answered. It is turned down unless a condition holds, and then nothing has changed. -/
def Answers (w : Monitors) (t : Nat) (a : Act) (p : Prop) : Prop :=
  ∃ e w', w.step t a = .ok (e, w') ∧ (e.granted = true ↔ p) ∧ (e.granted = false → w' = w)

lemma answers_of_settle {m? : Option Monitor} (h : w.step t a = .ok (w.settle t a r m?)) :
    w.Answers t a (m?.isSome = true) := by
  cases m? with
  | none => exact ⟨_, _, h, Iff.rfl, fun _ => rfl⟩
  | some m => exact ⟨_, _, h, Iff.rfl, nofun⟩

lemma answers_exit (w : Monitors) (t : Nat) (r : Ref) :
    w.Answers t (.exit r) (0 < w.holds r t) := by
  rw [holds, ← Monitor.isSome_exit?]
  exact answers_of_settle rfl

lemma answers_tryEnter (hc : w.holds r t < counterLimit) :
    w.Answers t (.tryEnter r) (¬ w.Contended r t) := by
  obtain ⟨m?, hm⟩ := Monitor.exists_tryEnter hc
  have hfree : ¬ w.Contended r t ↔ m?.isSome = true := by
    rw [not_contended_iff]
    cases m? with
    | none =>
      obtain ⟨u, hu, ho⟩ := Monitor.tryEnter_eq_none.1 hm
      simpa [ho] using hu
    | some m => simpa using Monitor.owner_of_enter (Monitor.enter_eq_ok.2 hm)
  rw [hfree]
  exact answers_of_settle (by rw [step, hm]; rfl)

/-! ### Relocks that are owed -/

/-- A thread put a relock off at a step and has not come back from a wait since. -/
def isOwed (t : Nat) (log : List Event) (i : Nat) : Bool :=
  log[i]?.any (·.putsOff t) && (log.drop (i + 1)).all fun e => !e.comesBack t

/-- The steps at which a thread put off the relocks that it still owes. -/
def owed (t : Nat) (log : List Event) : List Nat :=
  (List.range log.length).filter (isOwed t log)

/-- A step made a relock good that was put off at an earlier one. -/
def Redeems (t : Nat) (log : List Event) (i j : Nat) : Prop :=
  log[j]?.any (·.comesBack t) = true ∧ i ∈ owed t (log.take j)

lemma lt_of_mem_owed {i : Nat} (h : i ∈ owed t log) : i < log.length :=
  List.mem_range.1 (List.mem_of_mem_filter h)

lemma putsOff_of_comesBack (h : e.comesBack t = true) : e.putsOff t = false := by
  obtain ⟨u, a, g, n⟩ := e
  cases a <;> simp [Event.comesBack, Event.putsOff] at h ⊢

lemma owed_concat (t : Nat) (log : List Event) (e : Event) : owed t (log ++ [e]) =
    if e.comesBack t then [] else if e.putsOff t then owed t log ++ [log.length]
    else owed t log := by
  have hold : ∀ i ∈ List.range log.length, isOwed t (log ++ [e]) i =
      (isOwed t log i && !e.comesBack t) := by
    intro i hi
    have hlt := List.mem_range.1 hi
    rw [isOwed, isOwed, List.getElem?_append_left hlt, List.drop_append_of_le_length hlt,
      List.all_append, Bool.and_assoc]
    simp
  have hnew : isOwed t (log ++ [e]) log.length = e.putsOff t := by
    simp [isOwed]
  rw [owed, List.length_append, List.length_singleton, List.range_succ, List.filter_append,
    List.filter_congr hold]
  split_ifs with hback hoff
  · simp [hback, hnew, putsOff_of_comesBack hback]
  · simp [hback, hnew, hoff, owed]
  · simp [hback, hnew, hoff, owed]

lemma lt_length_of_any {p : Event → Bool} {i : Nat} (h : log[i]?.any p = true) :
    i < log.length := by
  obtain ⟨e, he, -⟩ := (Option.any_eq_true _ _).1 h
  exact (List.getElem?_eq_some_iff.1 he).1

lemma redeems_concat {i j : Nat} : Redeems t (log ++ [e]) i j ↔
    Redeems t log i j ∨ j = log.length ∧ e.comesBack t = true ∧ i ∈ owed t log := by
  rcases Nat.lt_trichotomy j log.length with hlt | rfl | hgt
  · rw [Redeems, Redeems, List.getElem?_append_left hlt,
      List.take_append_of_le_length (Nat.le_of_lt hlt)]
    simp [Nat.ne_of_lt hlt]
  · simp [Redeems]
  · refine iff_of_false (fun h => ?_) ?_
    · have hlen := lt_length_of_any h.1
      rw [List.length_append, List.length_singleton] at hlen
      omega
    · rintro (h | ⟨rfl, -⟩)
      · exact Nat.lt_asymm hgt (lt_length_of_any h.1)
      · exact Nat.lt_irrefl _ hgt

/-- A relock that was put off is still owed, or else one step made it good, and no other one. -/
def OnceOnly (t : Nat) (log : List Event) (i : Nat) : Prop :=
  (i ∈ owed t log ∧ ∀ j, ¬ Redeems t log i j) ∨ (i ∉ owed t log ∧ ∃! j, Redeems t log i j)

lemma OnceOnly.concat {i : Nat} (h : OnceOnly t log i) (hi : i < log.length) (e : Event) :
    OnceOnly t (log ++ [e]) i := by
  simp only [OnceOnly, redeems_concat]
  rcases h with ⟨howed, hnone⟩ | ⟨hnot, j, hj, honly⟩
  · cases hback : e.comesBack t with
    | true =>
      refine .inr ⟨by simp [owed_concat, hback], log.length, .inr ⟨rfl, rfl, howed⟩, ?_⟩
      rintro k (hk | ⟨rfl, -⟩)
      · exact absurd hk (hnone k)
      · rfl
    | false =>
      refine .inl ⟨?_, by simpa using hnone⟩
      rw [owed_concat, hback, if_neg Bool.false_ne_true]
      split_ifs
      · exact List.mem_append_left _ howed
      · exact howed
  · refine .inr ⟨?_, j, .inl hj, ?_⟩
    · rw [owed_concat]
      split_ifs
      · exact List.not_mem_nil
      · simpa [Nat.ne_of_lt hi] using hnot
      · exact hnot
    · rintro k (hk | ⟨-, -, howed⟩)
      · exact honly k hk
      · exact absurd howed hnot

theorem onceOnly_of_putsOff {i : Nat} (h : log[i]?.any (·.putsOff t) = true) :
    OnceOnly t log i := by
  induction log using List.reverseRecOn with
  | nil => simp at h
  | append_singleton log e ih =>
    have hlen := lt_length_of_any h
    rw [List.length_append, List.length_singleton] at hlen
    rcases Nat.lt_or_eq_of_le (Nat.le_of_lt_succ hlen) with hi | rfl
    · rw [List.getElem?_append_left hi] at h
      exact (ih h).concat hi e
    · -- It was put off just now.
      rw [List.getElem?_concat_length, Option.any_some] at h
      refine .inl ⟨?_, fun j hj => ?_⟩
      · have hback : e.comesBack t = false := by
          by_contra hback
          rw [Bool.not_eq_false] at hback
          rw [putsOff_of_comesBack hback] at h
          cases h
        simp [owed_concat, hback, h]
      · have hmem := lt_of_mem_owed hj.2
        rw [List.length_take] at hmem
        have := lt_length_of_any hj.1
        simp at this
        omega

/-! ### Runs -/

/-- What a run of steps keeps. -/
structure Recorded (log : List Event) (w : Monitors) : Prop where
  holds : ∀ r t, w.holds r t + log.countP (·.leaves t r) =
    log.countP (·.takes t r) + (log.map (·.relocks t r)).sum
  deferred : ∀ t, w.deferred t = (owed t log).length
  relocked : ∀ j e, log[j]? = some e → ∀ t, e.comesBack t = true →
    e.relocked = (owed t (log.take j)).length
  /-- What a thread holds or owes it has asked for. -/
  bounded : ∀ r t, w.holds r t + w.deferred t ≤ log.length

lemma relocks_le (e : Event) (t : Nat) (r : Ref) :
    e.relocks t r ≤ if e.comesBack t then e.relocked else 0 := by
  obtain ⟨u, b, g, n⟩ := e
  cases b with
  | reacquire q =>
    have hback : Event.comesBack t ⟨u, .reacquire q, g, n⟩ = decide (u = t) := by
      simp [Event.comesBack]
    rw [hback, Event.relocks]
    by_cases hu : u = t
    · rw [if_pos (decide_eq_true hu)]
      split_ifs
      · exact Nat.le_refl n
      · exact Nat.zero_le n
    · rw [if_neg fun h => hu h.1]
      exact Nat.zero_le _
  | _ => simp [Event.relocks, Event.comesBack]

lemma takes_of_putsOff (h : e.putsOff t = true) (r : Ref) : e.takes t r = false := by
  obtain ⟨u, b, g, n⟩ := e
  cases b <;> simp [Event.putsOff, Event.takes] at h ⊢

lemma Recorded.empty : Recorded [] {} where
  holds r t := rfl
  deferred t := rfl
  relocked j e h := by simp at h
  bounded r t := Nat.le_refl 0

theorem Recorded.step (h : Recorded log w) (hs : Steps w t a e w')
    (hfew : log.length + 1 < counterLimit) : Recorded (log ++ [e]) w' where
  holds r u := by
    have hstep := hs.holds r u
    have hlog := h.holds r u
    rw [List.countP_append, List.countP_append, List.map_append, List.sum_append,
      List.countP_singleton, List.countP_singleton, List.map_singleton, List.sum_singleton]
    have htoNat (b : Bool) : b.toNat = if b = true then 1 else 0 := Bool.cond_eq_ite b 1 0
    rw [htoNat, htoNat] at hstep
    omega
  deferred u := by
    have hsmall : w.deferred u + 1 < counterLimit := by
      have := h.bounded ⟨0⟩ u
      omega
    rw [hs.deferred, owed_concat, Nat.mod_eq_of_lt hsmall, h.deferred]
    split_ifs
    · rfl
    · rw [List.length_append, List.length_singleton]
    · rfl
  relocked j e' hj u hback := by
    rcases Nat.lt_or_ge j log.length with hlt | hge
    · rw [List.getElem?_append_left hlt] at hj
      rw [List.take_append_of_le_length (Nat.le_of_lt hlt)]
      exact h.relocked j e' hj u hback
    · obtain rfl : j = log.length := by
        have := (List.getElem?_eq_some_iff.1 hj).1
        rw [List.length_append, List.length_singleton] at this
        omega
      rw [List.getElem?_concat_length] at hj
      obtain rfl := Option.some.inj hj
      rw [List.take_left, hs.relocked u hback, h.deferred]
  bounded r u := by
    have hstep := hs.holds r u
    have hlog := h.bounded r u
    have hrelocks := relocks_le e u r
    have htakes := Bool.toNat_le (e.takes u r)
    rw [List.length_append, List.length_singleton, hs.deferred]
    split_ifs at hrelocks ⊢ with hback hoff
    · rw [hs.relocked u hback] at hrelocks
      omega
    · rw [takes_of_putsOff hoff, Bool.toNat_false] at hstep
      have := Nat.mod_le (w.deferred u + 1) counterLimit
      omega
    · omega

theorem recorded_of_run {acts : List (Nat × Act)} (h : run acts = .ok (log, w))
    (hfew : acts.length < counterLimit) :
    log.map (fun e => (e.thread, e.act)) = acts ∧ Recorded log w := by
  refine foldlM_induction (fun pre (s : List Event × Monitors) =>
    pre.length < counterLimit → s.1.map (fun e => (e.thread, e.act)) = pre ∧ Recorded s.1 s.2)
    (fun _ => ⟨rfl, .empty⟩) ?_ h hfew
  intro pre a s s' ih hstep hlen
  rw [List.length_append, List.length_singleton] at hlen
  obtain ⟨hacts, hrec⟩ := ih (Nat.lt_of_succ_lt hlen)
  simp only [bind_eq_ok, pure_eq_ok] at hstep
  obtain ⟨⟨e, w'⟩, hstep, rfl⟩ := hstep
  have hs := step_spec hstep
  rw [← hacts, List.length_map] at hlen
  refine ⟨?_, hrec.step hs hlen⟩
  rw [List.map_append, hacts, List.map_singleton, hs.thread, hs.act]

/-- How monitors stand after a run, and what the next step can do. -/
structure Balanced (acts : List (Nat × Act)) (log : List Event) (w : Monitors) : Prop
    extends Recorded log w where
  acts : log.map (fun e => (e.thread, e.act)) = acts
  /-- The thread that holds a monitor is its owner. -/
  owner : ∀ r t, 0 < w.holds r t ↔ (w.monitor r).owner = some t
  alone : ∀ r t u, 0 < w.holds r t → 0 < w.holds r u → t = u
  once : ∀ t i, log[i]?.any (·.putsOff t) = true → OnceOnly t log i
  exit : ∀ r t, w.Answers t (.exit r) (0 < w.holds r t)
  tryEnter : ∀ r t, w.Answers t (.tryEnter r) (¬ w.Contended r t)
  enter : ∀ r t, (∃ x, w.step t (.enter r) = .ok x) ↔ ¬ w.Contended r t
  reacquire : ∀ r t, (∃ x, w.step t (.reacquire r) = .ok x) ↔ ¬ w.Contended r t

/-- After fewer steps than a counter can count, every thread holds a monitor as often as it got into
it and made relocks good, less the times it left; no two threads hold the same one; and every relock
that was put off is still owed or was made good by just one step. Leaving fails for a thread that
does not hold the monitor and trying to enter fails if another one does, without effect. -/
theorem balanced_of_run {acts : List (Nat × Act)} (h : run acts = .ok (log, w))
    (hfew : acts.length < counterLimit) : Balanced acts log w := by
  obtain ⟨hacts, hrec⟩ := recorded_of_run h hfew
  have hlen : log.length < counterLimit := by rwa [← hacts, List.length_map] at hfew
  have hsmall : ∀ r t, w.holds r t + w.deferred t < counterLimit := fun r t =>
    Nat.lt_of_le_of_lt (hrec.bounded r t) hlen
  have hholds : ∀ r t, w.holds r t < counterLimit := fun r t =>
    Nat.lt_of_le_of_lt (Nat.le_add_right _ _) (hsmall r t)
  have howner : ∀ r t, 0 < w.holds r t ↔ (w.monitor r).owner = some t := fun r t =>
    Monitor.holdCount_pos_iff
  refine { hrec with
    acts := hacts
    owner := howner
    alone := fun r t u ht hu => ?_
    once := fun t i hi => onceOnly_of_putsOff hi
    exit := fun r t => answers_exit w t r
    tryEnter := fun r t => answers_tryEnter (hholds r t)
    enter := fun r t => exists_step_enter_iff (hholds r t)
    reacquire := fun r t => exists_step_reacquire_iff (hsmall r t) }
  rw [howner] at ht hu
  exact Option.some.inj (ht.symm.trans hu)

namespace Contest

def lock : Ref := ⟨0⟩

/-- One thread enters twice and leaves again, which another one can neither hinder nor do in its
place. The other one puts two relocks off and comes back. -/
def acts : List (Nat × Act) :=
  [(1, .enter lock), (1, .tryEnter lock), (2, .tryEnter lock), (2, .exit lock), (1, .exit lock),
    (1, .exit lock), (1, .exit lock), (2, .putOff), (2, .putOff), (2, .reacquire lock)]

end Contest

open Contest

theorem balanced_contest : acts.length < counterLimit ∧ ∃ log w, run acts = .ok (log, w) ∧
    Balanced acts log w ∧ w.holds lock 2 = 3 ∧ (w.monitor lock).owner = some 2 ∧
    log.map (·.granted) = [true, true, false, false, true, true, false, true, true, true] ∧
    log.map (·.relocked) = [0, 0, 0, 0, 0, 0, 0, 0, 0, 2] ∧ owed 2 (log.take 9) = [7, 8] ∧
    owed 2 log = [] := by
  have hfew : acts.length < counterLimit := by decide
  exact ⟨hfew, _, _, rfl, balanced_of_run rfl hfew, rfl, rfl, rfl, rfl, rfl, rfl⟩

/-! ### The steps of the machine -/

/-- The monitors of a store, as a thread sees them. -/
def seen (s : Store) (t : Thread) (deferred : Nat → Nat) : Monitors where
  monitor := s.monitor
  deferred := Function.update deferred t.id t.deferredRelocks

variable {s s' : Store} {v v' : Thread} {deferred : Nat → Nat} {mode : Mode}

lemma setMonitor_seen (hr : s.Has r) (v : Thread) (deferred : Nat → Nat) (m : Monitor) :
    (seen s v deferred).setMonitor r m = seen (s.setMonitor r m) v deferred := by
  refine congrArg (Monitors.mk · _) (funext fun q => ?_)
  by_cases hq : q = r
  · subst hq
    rw [Function.update_self, Store.monitor_setMonitor_self hr]
  · rw [Function.update_of_ne hq, Store.monitor_setMonitor_of_ne hq]
    rfl

lemma setDeferred_seen (s : Store) (v : Thread) (deferred : Nat → Nat) (n : Nat) :
    (seen s v deferred).setDeferred v.id n =
      seen s { v with deferredRelocks := n } deferred :=
  congrArg (Monitors.mk _) (Function.update_idem _ _ _)

lemma deferred_seen (s : Store) (v : Thread) (deferred : Nat → Nat) :
    (seen s v deferred).deferred v.id = v.deferredRelocks := Function.update_self _ _ _

/-- For an eliminated monitor a thread enters it or puts a relock off. -/
theorem step_of_enterFor (hr : s.Has r) (h : Restore.enterFor s v mode r = .ok (s', v')) :
    ∃ a e, (a = .enter r ∨ a = .putOff) ∧
      (seen s v deferred).step v.id a = .ok (e, seen s' v' deferred) := by
  rw [Restore.enterFor] at h
  split_ifs at h
  · cases h
    refine ⟨.putOff, { thread := v.id, act := .putOff }, .inr rfl, ?_⟩
    rw [step, deferred_seen, setDeferred_seen]
  · simp only [bind_eq_ok, pure_eq_ok] at h
    obtain ⟨m, hm, h⟩ := h
    cases h
    refine ⟨.enter r, { thread := v.id, act := .enter r }, .inl rfl, ?_⟩
    have henter : ((seen s v deferred).monitor r).enter v.id = .ok m := hm
    rw [step, henter, ← setMonitor_seen hr]
    rfl

/-- The monitors of activations that are given up are left. -/
theorem step_of_leave (h : Unwind.leave v.id s r = .ok s') :
    ∃ e, e.granted = true ∧
      (seen s v deferred).step v.id (.exit r) = .ok (e, seen s' v deferred) := by
  rw [Unwind.leave] at h
  cases hm : (s.monitor r).exit? v.id with
  | none =>
    rw [hm] at h
    cases h
  | some m =>
    rw [hm] at h
    cases h
    have hr : s.Has r := by
      by_contra hr
      -- Where there is no object, there is nothing to leave.
      rw [Store.monitor_of_size_le (Nat.le_of_not_lt hr)] at hm
      cases hm
    refine ⟨{ thread := v.id, act := .exit r }, rfl, ?_⟩
    have hexit : ((seen s v deferred).monitor r).exit? v.id = some m := hm
    rw [step, hexit, ← setMonitor_seen hr]
    rfl

theorem step_of_reacquire {m m' : Machine} {t : Nat} (ht : t < m.roster.threads.size)
    (hr : m.store.Has r) (h : m.reacquire t r = .ok m') :
    ∃ e, (seen m.store (m.thread t) deferred).step (m.thread t).id (.reacquire r) =
      .ok (e, seen m'.store (m'.thread t) deferred) := by
  simp only [Machine.reacquire, Machine.updateMonitor, bind_eq_ok, pure_eq_ok] at h
  obtain ⟨_, ⟨x, hx, rfl⟩, rfl⟩ := h
  refine ⟨⟨(m.thread t).id, .reacquire r, true, (m.thread t).deferredRelocks⟩, ?_⟩
  have hreacquire : ((seen m.store (m.thread t) deferred).monitor r).reacquire (m.thread t).id
      (m.thread t).deferredRelocks = .ok x := hx
  rw [step, deferred_seen, hreacquire, ok_bind, setMonitor_seen hr, setDeferred_seen]
  refine congrArg (fun u => Except.ok (_, seen _ u deferred)) ?_
  exact (Roster.thread_set_self _ _ ht).symm

end Monitors
end Bailout
