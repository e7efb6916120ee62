/-!
# Reasons

Why compiled code gave up and went back to the interpreter. Eight reasons are recorded per bytecode
in a method's profile; some of the others are recorded there under one of those eight, their
*stand-in*, and the rest are only counted per method.
-/

namespace Bailout

/-- Why compiled code gave up. -/
inductive Reason where
  | unspecified
  | nullCheck
  | nullAssert
  | rangeCheck
  | classCheck
  | arrayCheck
  | intrinsic
  | bimorphic
  | profilePredicate
  | autoVectorizationCheck
  | unloaded
  | uninitialized
  | initialized
  | unreached
  | unhandled
  | constraint
  | div0Check
  | age
  | predicate
  | loopLimitCheck
  | speculateClassCheck
  | speculateNullCheck
  | speculateNullAssert
  | unstableIf
  | unstableFusedIf
  | receiverConstraint
  | shortRunningLoop
  | tenured
  deriving DecidableEq, Repr, Inhabited

namespace Reason

/-- Every reason, in the order of the codes. -/
def all : List Reason :=
  [unspecified, nullCheck, nullAssert, rangeCheck, classCheck, arrayCheck, intrinsic, bimorphic,
    profilePredicate, autoVectorizationCheck, unloaded, uninitialized, initialized, unreached,
    unhandled, constraint, div0Check, age, predicate, loopLimitCheck, speculateClassCheck,
    speculateNullCheck, speculateNullAssert, unstableIf, unstableFusedIf, receiverConstraint,
    shortRunningLoop, tenured]

abbrev card : Nat := 28

/-- The position of a reason among all reasons; trap requests and profiles carry it as a code. -/
def index : Reason → Fin card
  | unspecified => 0
  | nullCheck => 1
  | nullAssert => 2
  | rangeCheck => 3
  | classCheck => 4
  | arrayCheck => 5
  | intrinsic => 6
  | bimorphic => 7
  | profilePredicate => 8
  | autoVectorizationCheck => 9
  | unloaded => 10
  | uninitialized => 11
  | initialized => 12
  | unreached => 13
  | unhandled => 14
  | constraint => 15
  | div0Check => 16
  | age => 17
  | predicate => 18
  | loopLimitCheck => 19
  | speculateClassCheck => 20
  | speculateNullCheck => 21
  | speculateNullAssert => 22
  | unstableIf => 23
  | unstableFusedIf => 24
  | receiverConstraint => 25
  | shortRunningLoop => 26
  | tenured => 27

def code (r : Reason) : Nat := r.index.val

/-- The reason with a given code. -/
def ofCode? (n : Nat) : Option Reason := all[n]?

/-- The diagnostic name, as statistics filters and messages spell it. -/
def name : Reason → String
  | unspecified => "none"
  | nullCheck => "null_check"
  | nullAssert => "null_assert"
  | rangeCheck => "range_check"
  | classCheck => "class_check"
  | arrayCheck => "array_check"
  | intrinsic => "intrinsic"
  | bimorphic => "bimorphic"
  | profilePredicate => "profile_predicate"
  | autoVectorizationCheck => "auto_vectorization_check"
  | unloaded => "unloaded"
  | uninitialized => "uninitialized"
  | initialized => "initialized"
  | unreached => "unreached"
  | unhandled => "unhandled"
  | constraint => "constraint"
  | div0Check => "div0_check"
  | age => "age"
  | predicate => "predicate"
  | loopLimitCheck => "loop_limit_check"
  | speculateClassCheck => "speculate_class_check"
  | speculateNullCheck => "speculate_null_check"
  | speculateNullAssert => "speculate_null_assert"
  | unstableIf => "unstable_if"
  | unstableFusedIf => "unstable_fused_if"
  | receiverConstraint => "receiver_constraint"
  | shortRunningLoop => "short_running_loop"
  | tenured => "tenured"

/-- The reason with a given diagnostic name. -/
def ofName? (s : String) : Option Reason := all.find? (·.name == s)

/-- Whether traps for the reason are recorded per bytecode. -/
def perBytecode : Reason → Bool
  | nullCheck | nullAssert | rangeCheck | classCheck | arrayCheck | intrinsic | bimorphic
  | profilePredicate => true
  | _ => false

/-- The reason under which a trap is recorded per bytecode, if it is recorded there at all. -/
def standIn? : Reason → Option Reason
  | div0Check | speculateNullCheck => some nullCheck
  | speculateClassCheck => some classCheck
  | speculateNullAssert => some nullAssert
  | unstableIf => some intrinsic
  | unstableFusedIf => some rangeCheck
  | r => if r.perBytecode then some r else none

/-- Whether the trap was guarded by a speculation on a type or on nullness. -/
def speculative : Reason → Bool
  | speculateClassCheck | speculateNullCheck | speculateNullAssert => true
  | _ => false

/-! ### Laws -/

@[simp] theorem ofCode?_code (r : Reason) : ofCode? r.code = some r := by
  cases r <;> rfl

theorem code_lt (r : Reason) : r.code < card := r.index.isLt

theorem mem_all (r : Reason) : r ∈ all := by
  cases r <;> decide

theorem index_injective {r s : Reason} (h : r.index = s.index) : r = s := by
  have := congrArg (fun i : Fin card => ofCode? i.val) h
  simpa [code] using (ofCode?_code r).symm.trans (this.trans (ofCode?_code s))

theorem index_inj {r s : Reason} : r.index = s.index ↔ r = s := ⟨index_injective, congrArg _⟩

/-- A stand-in is itself recorded per bytecode. -/
theorem perBytecode_of_standIn? {r s : Reason} (h : r.standIn? = some s) :
    s.perBytecode = true := by
  cases r <;> simp_all [standIn?, perBytecode] <;> subst h <;> rfl

/-- A reason recorded per bytecode stands for itself. -/
theorem standIn?_eq_self {r : Reason} (h : r.perBytecode = true) : r.standIn? = some r := by
  cases r <;> simp_all [standIn?, perBytecode]

end Reason
end Bailout
