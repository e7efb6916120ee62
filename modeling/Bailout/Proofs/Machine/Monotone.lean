import Bailout.Proofs.Machine.Repeated

/-!
# Verdicts grow with history

A trap is judged by what was asked for and by what is known of the past. The more is known, the more
a verdict asks for, and the lower the limits are, the more it asks for too: nothing that the past
shows ever takes an effect back. Whatever a verdict asks for besides, it has the code invalidated,
and so no assertion fails while it is carried out.
-/

namespace Bailout

/-- A snapshot shows no more than another one: its count is no larger, and it has no other flags. -/
structure Snapshot.AtMost (s s' : Snapshot) : Prop where
  count : s.count ≤ s'.count
  trap : s.maybePriorTrap = true → s'.maybePriorTrap = true
  recompile : s.maybePriorRecompile = true → s'.maybePriorRecompile = true
  hasRecord : s.hasRecord = true → s'.hasRecord = true

/-- No more of the past is known the first time than the second: nothing at all, or a snapshot that
shows no more. -/
inductive Snapshot.Precedes : Option Snapshot → Option Snapshot → Prop
  | unknown (history : Option Snapshot) : Precedes none history
  | known {s s' : Snapshot} (h : s.AtMost s') : Precedes (some s) (some s')

/-- A configuration tolerates no fewer traps than another one, at a bytecode or in a method. -/
structure Config.Tolerates (c c' : Config) : Prop where
  perBytecode : c'.perBytecodeTrapLimit ≤ c.perBytecodeTrapLimit
  perMethod : c'.perMethodTrapLimit ≤ c.perMethodTrapLimit
  perMethodSpec : c'.perMethodSpecTrapLimit ≤ c.perMethodSpecTrapLimit

lemma Config.Tolerates.methodLimit_le {c c' : Config} (h : c.Tolerates c') (r : Reason) :
    c'.methodLimit r ≤ c.methodLimit r := by
  unfold Config.methodLimit
  split_ifs
  · exact h.perMethodSpec
  · exact h.perMethod

namespace Verdict

variable {r : Reason} {a : Action} {s s' : Snapshot} {history history' : Option Snapshot}
  {c c' : Config} {v w : Verdict}

/-- What one verdict asks for, another one asks for too. -/
structure Implies (v w : Verdict) : Prop where
  invalidate : v.invalidate = true → w.invalidate = true
  giveUp : v.giveUp = true → w.giveUp = true
  reprofile : v.reprofile = true → w.reprofile = true
  countRecompile : v.countRecompile = true → w.countRecompile = true

/-- Whatever a verdict asks for, it has the code invalidated. -/
structure Founded (v : Verdict) : Prop where
  giveUp : v.giveUp = true → v.invalidate = true
  reprofile : v.reprofile = true → v.invalidate = true
  countRecompile : v.countRecompile = true → v.invalidate = true

/-! ### The effects grow -/

/-- The history takes nothing back that was asked for. -/
lemma implies_of_none (r : Reason) (a : Action) (history : Option Snapshot) (c c' : Config) :
    (decide r a none c).Implies (decide r a history c') := by
  have hcount : (ofAction a).countRecompile = false := by
    cases a <;> rfl
  cases history with
  | none => exact ⟨id, id, id, id⟩
  | some s =>
    constructor
    case invalidate =>
      intro h
      simp [decide, show (ofAction a).invalidate = true from h]
    case giveUp => exact id
    case reprofile =>
      intro h
      simp [decide, show (ofAction a).reprofile = true from h]
    case countRecompile =>
      intro h
      rw [show (decide r a none c).countRecompile = false from hcount] at h
      cases h

/-- What the past of a bytecode asks for, more of it asks for too. -/
lemma locally_mono (hs : s.AtMost s') (hc : c.Tolerates c') (h : locally r a s c = true) :
    locally r a s' c' = true := by
  unfold locally at h ⊢
  split_ifs at h ⊢
  · simp only [Bool.and_eq_true, decide_eq_true_eq] at h ⊢
    refine ⟨hs.trap h.1, ?_⟩
    calc c'.perBytecodeTrapLimit ≤ c.perBytecodeTrapLimit := hc.perBytecode
      _ < s.count := h.2
      _ ≤ s'.count := hs.count
  · exact h

lemma implies_of_atMost (hs : s.AtMost s') (hc : c.Tolerates c') :
    (decide r a (some s) c).Implies (decide r a (some s') c') := by
  have hhere : (ofAction a).invalidate = true ∨ locally r a s c = true →
      (ofAction a).invalidate = true ∨ locally r a s' c' = true := Or.imp_right (locally_mono hs hc)
  have hmethod : c.methodLimit r < s.count → c'.methodLimit r < s'.count := fun h =>
    Nat.lt_of_le_of_lt (hc.methodLimit_le r) (Nat.lt_of_lt_of_le h hs.count)
  have hrepeated : s.maybePriorRecompile = true ∧ s.maybePriorTrap = true →
      s'.maybePriorRecompile = true ∧ s'.maybePriorTrap = true := And.imp hs.recompile hs.trap
  constructor
  case invalidate =>
    simp only [decide, Bool.or_eq_true, decide_eq_true_eq]
    exact Or.imp hhere hmethod
  case giveUp => exact id
  case reprofile =>
    simp only [decide, Bool.or_eq_true, Bool.and_eq_true, decide_eq_true_eq]
    exact Or.imp_right (And.imp (Or.imp hhere hmethod) hrepeated)
  case countRecompile =>
    simp only [decide, Bool.or_eq_true, Bool.and_eq_true]
    exact And.imp (And.imp_right hhere) hrepeated

lemma implies_of_precedes (hh : Snapshot.Precedes history history') (hc : c.Tolerates c') :
    (decide r a history c).Implies (decide r a history' c') := by
  cases hh with
  | unknown => exact implies_of_none r a history' c c'
  | known hs => exact implies_of_atMost hs hc

/-! ### The code is invalidated -/

lemma founded_decide (r : Reason) (a : Action) (history : Option Snapshot) (c : Config) :
    (decide r a history c).Founded := by
  refine ⟨fun h => invalidate_of_decide r a history c (.inl h), ?_,
    fun h => invalidate_of_decide r a history c (.inr h)⟩
  have hasked : (ofAction a).reprofile = true → (ofAction a).invalidate = true := by
    cases a <;> simp [ofAction]
  cases history with
  | none => exact hasked
  | some s =>
    simp only [decide, Bool.and_eq_true, Bool.or_eq_true]
    rintro (h | ⟨h, -⟩)
    · exact .inl (.inl (hasked h))
    · exact h

end Verdict

/-! ### Assertions -/

/-- No assertion fails in a computation, whatever else may stop it. -/
def AssertionFree {α : Type} (x : Checked α) : Prop := ∀ v, x ≠ .error (.assertion v)

namespace AssertionFree

variable {α β : Type}

lemma ok (x : α) : AssertionFree (.ok x) := fun _ => nofun

lemma fatal (v : Violation) : AssertionFree (Bailout.fatal v : Checked α) := fun _ => nofun

lemma overflow : AssertionFree (.error .overflow : Checked α) := fun _ => nofun

lemma bind {x : Checked α} {f : α → Checked β} (hx : AssertionFree x)
    (hf : ∀ y, x = .ok y → AssertionFree (f y)) : AssertionFree (x >>= f) := by
  cases x with
  | error e => exact fun v hv => hx v (congrArg Except.error (Except.error.inj hv))
  | ok y => exact hf y rfl

lemma ite {c : Prop} [Decidable c] {x y : Checked α} (hx : c → AssertionFree x)
    (hy : ¬ c → AssertionFree y) : AssertionFree (if c then x else y) := by
  split_ifs with h
  · exact hx h
  · exact hy h

lemma guarantee (b : Bool) (v : Violation) : AssertionFree (Bailout.guarantee b v) :=
  ite (fun _ => ok _) fun _ => fatal _

lemma checkedAdd (a b : Nat) : AssertionFree (Bailout.checkedAdd a b) :=
  ite (fun _ => ok _) fun _ => overflow

lemma checkedSub (a b : Nat) : AssertionFree (Bailout.checkedSub a b) :=
  ite (fun _ => ok _) fun _ => overflow

end AssertionFree

lemma Region.assertionFree_contains (r : Region) (pc : Nat) : AssertionFree (r.contains pc) :=
  .ite (fun _ => (AssertionFree.checkedAdd _ _).bind fun _ _ => .ok _) fun _ => .ok _

lemma Region.assertionFree_recordAt (r : Region) (pc : Nat) : AssertionFree (r.recordAt pc) := by
  refine (AssertionFree.checkedSub _ _).bind fun n _ => ?_
  cases h : r.debug.find? (n % counterLimit) with
  | none =>
    simp only [h]
    exact .fatal _
  | some record =>
    simp only [h]
    exact .ok _

lemma Frame.assertionFree_record (f : Frame) : AssertionFree f.record := by
  unfold Frame.record
  cases f.kind with
  | compiled c =>
    refine (Region.assertionFree_contains _ _).bind fun b _ => ?_
    refine (AssertionFree.guarantee _ _).bind fun _ _ => ?_
    exact (Region.assertionFree_recordAt _ _).bind fun _ _ => .ok _
  | _ => exact .fatal _

lemma Site.assertionFree_find (t : Thread) : AssertionFree (Site.find t) := by
  unfold Site.find
  cases t.dropStubs.stack with
  | nil => exact .fatal _
  | cons f fs =>
    refine (Frame.assertionFree_record f).bind fun x _ => ?_
    obtain ⟨c, record⟩ := x
    cases h : record.scopes with
    | nil =>
      simp only [h]
      exact .fatal _
    | cons y ys =>
      simp only [h]
      exact .ok _

lemma MethodState.assertionFree_charge (s : MethodState) (cutoff : Nat) :
    AssertionFree (s.charge cutoff) := by
  unfold MethodState.charge
  cases s.profile with
  | none => exact .ok _
  | some p => exact (AssertionFree.ite (fun _ => .ok _) fun _ => .overflow).bind fun _ _ => .ok _

namespace Program

variable (p : Program) (ref cutoff : Nat)

lemma assertionFree_charge : AssertionFree (p.charge ref cutoff) :=
  .ite (fun _ => .ok _) fun _ => (MethodState.assertionFree_charge _ _).bind fun _ _ => .ok _

lemma assertionFree_invalidate : AssertionFree (p.invalidate ref cutoff) :=
  .ite (fun _ => (assertionFree_charge _ _ _).bind fun _ _ => .ok _) fun _ => .ok _

end Program

namespace Machine

variable {m : Machine} {s : Site} {q : Request} {v : Verdict}

lemma assertionFree_invalidate (m : Machine) (region : Nat) : AssertionFree (m.invalidate region) :=
  (Program.assertionFree_invalidate _ _ _).bind fun _ _ => .ok _

/-- Counting a recompilation gives the method up only if the code was invalidated. -/
lemma invalidate_of_countRecompile (hv : v.Founded)
    (h : (m.countRecompile s v).1.giveUp = true) :
    (m.countRecompile s v).1.invalidate = true := by
  obtain ⟨hsame, hgive⟩ := m.countRecompile_verdict s v
  exact hsame.trans ((hgive h).elim hv.giveUp hv.countRecompile)

lemma assertionFree_carryOut (hv : v.giveUp = true → v.invalidate = true) :
    AssertionFree (m.carryOut s v) := by
  refine .ite (fun h => ?_) fun _ => .ok _
  rw [Bool.and_eq_true] at h
  rw [hv h.1]
  exact .ok _

lemma assertionFree_execute (hv : v.Founded) (thread : Nat) :
    AssertionFree (m.execute thread s q v) := by
  have hsettle : ∀ m₁ : Machine, AssertionFree
      ((m₁.countRecompile s v).2.carryOut s (m₁.countRecompile s v).1) := fun _ =>
    assertionFree_carryOut (invalidate_of_countRecompile hv)
  simp only [execute]
  split_ifs
  · refine (assertionFree_invalidate m _).bind fun y _ => ?_
    obtain ⟨news, m₁⟩ := y
    -- a late invalidation reports the trap, one that is news settles the verdict first
    cases news with
    | false => exact .ok _
    | true =>
      simp only [if_true, pure_bind, Bool.false_eq_true, if_false]
      exact (hsettle _).bind fun _ _ => .ok _
  · simp only [pure_bind, Bool.false_eq_true, if_false]
    exact (hsettle m).bind fun _ _ => .ok _

theorem assertionFree_handleTrap (m : Machine) (t : Nat) (q : Request) :
    AssertionFree (m.handleTrap t q) :=
  (Site.assertionFree_find _).bind fun _ _ =>
    assertionFree_execute (Verdict.founded_decide _ _ _ _) _

end Machine

namespace Verdict

/-- More of the past never takes an effect of a verdict back, and lower limits do not either; the
least that a verdict asks for is what was asked for without any history. To give a method up, to
profile it again and to count a recompilation all go with invalidating the code, and so handling a
trap fails no assertion. -/
theorem implies_of_history :
    (∀ r a history history' c c', Snapshot.Precedes history history' → c.Tolerates c' →
      (decide r a history c).Implies (decide r a history' c')) ∧
    (∀ r a history c, (decide r a history c).Founded) ∧
    ∀ (m : Machine) t q v, m.handleTrap t q ≠ .error (.assertion v) :=
  ⟨fun _ _ _ _ _ _ => implies_of_precedes, founded_decide, Machine.assertionFree_handleTrap⟩

/-- The fifth null check at a bytecode has the code invalidated under the usual limits, and so does
the ninth under small ones, the bytecode having caused a recompilation in between. -/
theorem implies_of_history_small :
    Snapshot.AtMost { count := 5, maybePriorTrap := true, hasRecord := true } (.repeated 9) ∧
    Config.Tolerates {} .small ∧
    (decide .nullCheck .maybeRecompile (some (.repeated 9)) .small).invalidate = true :=
  have hs : Snapshot.AtMost { count := 5, maybePriorTrap := true, hasRecord := true }
      (.repeated 9) := ⟨by decide, id, fun _ => rfl, id⟩
  have hc : Config.Tolerates {} .small := ⟨by decide, by decide, by decide⟩
  ⟨hs, hc, (implies_of_history.1 .nullCheck .maybeRecompile _ _ _ _ (.known hs) hc).invalidate
    (by decide)⟩

end Verdict
end Bailout
