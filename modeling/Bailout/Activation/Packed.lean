import Bailout.Activation.Logical
import Bailout.Activation.Size

/-!
# Packed activations

The values of an inlined activation, taken out of the compiled frame so that the frame can go.
-/

namespace Bailout

/-- An activation with its values. -/
structure Packed where
  method : Method
  bci : Nat
  reexecute : Bool
  locals : List Word
  expressions : List Word
  /-- The objects whose monitors the activation holds; an owner that was not restored is missing. -/
  monitors : List (Option Ref)
  /-- The monitors were released because the activation is not going to run. -/
  released : Bool := false
  deriving DecidableEq, Repr, Inhabited

namespace Packed

/-- The object of a monitor in an interpreted activation. -/
def lockOf (g : Guard) : Option Ref := if g.missing then none else g.owner

/-- Take the values of an activation out of a compiled frame. -/
def ofScope (f : CompiledFrame) (t : Restored) (s : Scope) : Checked Packed := do
  let monitors ← f.guards t s
  let locals ← f.resolveAll t s.locals
  let expressions ← f.resolveAll t s.expressions
  return { method := s.method, bci := s.bci, reexecute := s.reexecute, locals, expressions
           monitors := monitors.map lockOf }

/-- The shape of the interpreted activation above a given callee. -/
def activation (p : Packed) (calleeParameters calleeLocals : Nat) (isTop : Bool) (extra : Nat) :
    Activation :=
  { maxStack := p.method.maxStack, temps := p.expressions.length + calleeParameters, extra
    monitors := p.monitors.length, calleeParameters, calleeLocals, isTop }

/-- The bytes of each of a chain of activations, innermost first, the first of which calls a method
with the given parameters and locals. -/
def sizesFrom (calleeParameters calleeLocals : Nat) (isTop : Bool) (extra : Nat) :
    List Packed → Checked (List Nat)
  | [] => return []
  | p :: ps => do
    let words ← (p.activation calleeParameters calleeLocals isTop extra).words
    let bytes ← checkedMul wordBytes words
    return bytes :: (← sizesFrom p.method.parameters p.method.locals false 0 ps)

/-- The bytes of each of a chain of activations, innermost first. -/
def sizes (extra : Nat) (ps : List Packed) : Checked (List Nat) := sizesFrom 0 0 true extra ps

def withoutMonitors (p : Packed) : Packed := { p with monitors := [], released := true }

end Packed
end Bailout
