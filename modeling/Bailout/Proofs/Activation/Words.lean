import Mathlib.Algebra.BigOperators.Ring.List
import Mathlib.Algebra.Order.BigOperators.Group.List
import Mathlib.Algebra.Order.Group.Nat
import Mathlib.Algebra.Ring.Nat
import Bailout.Proofs.Activation.Packed

/-!
# The words of a chain of activations

How many words each activation of a chain takes, computed without regard to machine arithmetic, from
packed activations and from the scopes that they come from; and that the sizes which are planned are
these, as long as they are of a reasonable order.
-/

namespace Bailout

lemma Activation.words_eq_ok {a : Activation} {n : Nat} :
    a.words = .ok n ↔ n < wordLimit ∧ overheadWords +
      extraLocals a.calleeParameters a.calleeLocals + a.monitors * monitorWords +
      ((if a.isTop then a.maxStack else a.temps) + a.extra) = n := by
  generalize hstack : (if a.isTop then a.maxStack else a.temps) = stack
  simp only [words, stackWords, hstack, bind_eq_ok, checkedMul_eq_ok, checkedAdd_eq_ok]
  constructor
  · rintro ⟨_, ⟨-, rfl⟩, _, ⟨-, rfl⟩, _, ⟨-, rfl⟩, _, ⟨-, rfl⟩, hlt, rfl⟩
    exact ⟨hlt, rfl⟩
  · rintro ⟨hlt, rfl⟩
    exact ⟨_, ⟨by omega, rfl⟩, _, ⟨by omega, rfl⟩, _, ⟨by omega, rfl⟩, _, ⟨by omega, rfl⟩, hlt, rfl⟩

/-- The words of an activation whose callee has the given parameters and locals. -/
def Scope.words (s : Scope) (parameters locals : Nat) (isTop : Bool) : Nat :=
  Activation.overheadWords + Activation.extraLocals parameters locals +
    s.monitors.length * Activation.monitorWords +
    (if isTop then s.method.maxStack else s.expressions.length + parameters)

/-- The words of each of a chain of activations, innermost first, the first of which calls a method
with the given parameters and locals. -/
def Scope.wordsFrom (parameters locals : Nat) (isTop : Bool) : List Scope → List Nat
  | [] => []
  | s :: ss =>
    s.words parameters locals isTop :: wordsFrom s.method.parameters s.method.locals false ss

variable {f : CompiledFrame} {t : Restored} {parameters locals extra n : Nat} {isTop : Bool}

@[simp] lemma Scope.length_wordsFrom (ss : List Scope) :
    (wordsFrom parameters locals isTop ss).length = ss.length := by
  induction ss generalizing parameters locals isTop with
  | nil => rfl
  | cons s ss ih => rw [wordsFrom, List.length_cons, List.length_cons, ih]

lemma sum_map_wordBytes (ws : List Nat) : (ws.map (wordBytes * ·)).sum = wordBytes * ws.sum := by
  simpa using List.sum_map_mul_left ws id wordBytes

namespace Packed

variable {s : Scope} {p : Packed} {ss : List Scope} {ps : List Packed} {sizes : List Nat}

/-! ### Packed activations -/

/-- The words on the expression stack of an activation that passes arguments to another one. -/
def stackWords (p : Packed) (arguments : Nat) (isTop : Bool) (extra : Nat) : Nat :=
  (if isTop then p.method.maxStack else p.expressions.length + arguments) + extra

/-- The words of a packed activation whose callee has the given parameters and locals. -/
def words (p : Packed) (parameters locals : Nat) (isTop : Bool) (extra : Nat) : Nat :=
  Activation.overheadWords + Activation.extraLocals parameters locals +
    p.monitors.length * Activation.monitorWords + p.stackWords parameters isTop extra

/-- The words of each of a chain of packed activations, innermost first, the first of which calls a
method with the given parameters and locals. -/
def wordsFrom (parameters locals : Nat) (isTop : Bool) (extra : Nat) : List Packed → List Nat
  | [] => []
  | p :: ps =>
    p.words parameters locals isTop extra ::
      wordsFrom p.method.parameters p.method.locals false 0 ps

@[simp] lemma length_wordsFrom :
    (wordsFrom parameters locals isTop extra ps).length = ps.length := by
  induction ps generalizing parameters locals isTop extra with
  | nil => rfl
  | cons p ps ih => rw [wordsFrom, List.length_cons, List.length_cons, ih]

lemma words_activation_eq_ok : (p.activation parameters locals isTop extra).words = .ok n ↔
    n < wordLimit ∧ p.words parameters locals isTop extra = n :=
  Activation.words_eq_ok

/-- The sizes of a chain come about if each of them is a machine word, and are then eight bytes for
each word. -/
theorem sizesFrom_eq_ok : sizesFrom parameters locals isTop extra ps = .ok sizes ↔
    (∀ w ∈ wordsFrom parameters locals isTop extra ps, wordBytes * w < wordLimit) ∧
      (wordsFrom parameters locals isTop extra ps).map (wordBytes * ·) = sizes := by
  induction ps generalizing parameters locals isTop extra sizes with
  | nil => simp [sizesFrom, wordsFrom]
  | cons p ps ih =>
    simp only [sizesFrom, bind_eq_ok, pure_eq_ok, words_activation_eq_ok, checkedMul_eq_ok, ih,
      wordsFrom, List.forall_mem_cons, List.map_cons]
    constructor
    · rintro ⟨_, ⟨-, rfl⟩, _, ⟨hlt, rfl⟩, _, ⟨hall, rfl⟩, rfl⟩
      exact ⟨⟨hlt, hall⟩, rfl⟩
    · rintro ⟨⟨hlt, hall⟩, rfl⟩
      have hword := Nat.lt_of_le_of_lt (Nat.le_mul_of_pos_left _ (by decide)) hlt
      exact ⟨_, ⟨hword, rfl⟩, _, ⟨hlt, rfl⟩, _, ⟨hall, rfl⟩, rfl⟩

/-- The sizes of a chain come about if their sum is a machine word. -/
lemma sizesFrom_of_sum_lt
    (h : wordBytes * (wordsFrom parameters locals isTop extra ps).sum < wordLimit) :
    sizesFrom parameters locals isTop extra ps =
      .ok ((wordsFrom parameters locals isTop extra ps).map (wordBytes * ·)) := by
  refine sizesFrom_eq_ok.2 ⟨fun w hw => ?_, rfl⟩
  exact Nat.lt_of_le_of_lt (Nat.mul_le_mul_left _ (List.le_sum_of_mem hw)) h

/-! ### Packed scopes -/

lemma words_eq (hp : Of f t s p) :
    p.words parameters locals isTop extra = extra + s.words parameters locals isTop := by
  rw [words, stackWords, Scope.words, hp.method, hp.length_monitors, hp.length_expressions]
  omega

/-- Packed activations take the words of their scopes. -/
theorem wordsFrom_eq (hps : List.Forall₂ (Of f t) ss ps) :
    wordsFrom parameters locals isTop 0 ps = Scope.wordsFrom parameters locals isTop ss := by
  induction hps generalizing parameters locals isTop with
  | nil => rfl
  | cons hp _ ih => rw [wordsFrom, Scope.wordsFrom, words_eq hp, Nat.zero_add, hp.method, ih]

/-- The first of a chain takes the words that are kept besides. -/
lemma sum_wordsFrom_eq (hps : List.Forall₂ (Of f t) ss ps) (hss : ss ≠ []) :
    (wordsFrom parameters locals isTop extra ps).sum =
      extra + (Scope.wordsFrom parameters locals isTop ss).sum := by
  cases hps with
  | nil => exact absurd rfl hss
  | cons hp hps =>
    rw [wordsFrom, Scope.wordsFrom, List.sum_cons, List.sum_cons, words_eq hp, hp.method,
      wordsFrom_eq hps, Nat.add_assoc]

end Packed

/-! ### The caller's extension -/

/-- Make the last of some numbers greater. -/
def extendLast (n : Nat) : List Nat → List Nat
  | [] => []
  | [w] => [w + n]
  | w :: ws => w :: extendLast n ws

@[simp] lemma length_extendLast (ws : List Nat) : (extendLast n ws).length = ws.length := by
  fun_induction extendLast n ws <;> simp_all

lemma extendLast_append (ws : List Nat) (w : Nat) :
    extendLast n (ws ++ [w]) = ws ++ [w + n] := by
  induction ws with
  | nil => rfl
  | cons v ws ih =>
    cases ws with
    | nil => rfl
    | cons u ws => exact congrArg (v :: ·) ih

lemma sum_extendLast {ws : List Nat} (h : ws ≠ []) : (extendLast n ws).sum = ws.sum + n := by
  fun_induction extendLast n ws with
  | case1 => exact absurd rfl h
  | case2 w => simp
  | case3 w ws hw ih =>
    have hne : ws ≠ [] := fun hnil => hw hnil
    rw [List.sum_cons, List.sum_cons, ih hne, Nat.add_assoc]

end Bailout
