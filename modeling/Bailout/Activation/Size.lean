import Bailout.Fault

/-!
# Sizes of activations

How many words an interpreted activation takes. The parameters of a callee lie on the expression
stack of its caller; the rest of the callee's locals are provided for in the caller's activation as
well.
-/

namespace Bailout

/-- The bytes of a machine word. -/
def wordBytes : Nat := 8

/-- What decides the size of an activation. -/
structure Activation where
  /-- The deepest expression stack of the method. -/
  maxStack : Nat
  /-- The words on the expression stack, with the arguments of the callee. -/
  temps : Nat
  /-- Words kept for arguments of a call that is executed again. -/
  extra : Nat
  /-- How many monitors the activation holds. -/
  monitors : Nat
  calleeParameters : Nat
  calleeLocals : Nat
  /-- Nothing is called from the activation. -/
  isTop : Bool
  deriving DecidableEq, Repr, Inhabited

namespace Activation

/-- The words that every activation takes. -/
def overheadWords : Nat := 10

/-- The words that one monitor takes. -/
def monitorWords : Nat := 2

/-- The locals of a callee that are not its parameters. -/
def extraLocals (parameters locals : Nat) : Nat := locals - parameters

/-- The words on the expression stack. The newest activation provides for its deepest stack. -/
def stackWords (a : Activation) : Checked Nat :=
  checkedAdd (if a.isTop then a.maxStack else a.temps) a.extra

def words (a : Activation) : Checked Nat := do
  let stack ← a.stackWords
  let monitors ← checkedMul a.monitors monitorWords
  let fixed ← checkedAdd overheadWords (extraLocals a.calleeParameters a.calleeLocals)
  checkedAdd (← checkedAdd fixed monitors) stack

end Activation
end Bailout
