import Bailout.Activation.Mode
import Bailout.Activation.Packed

/-!
# Layouts and plans

A layout says how the interpreted activations go on the stack in place of a compiled frame: their
sizes, where each resumes, and how much the caller has to be extended for locals that it did not
provide. A plan is a layout together with the packed activations and the place they go to.
-/

namespace Bailout

/-- How interpreted activations replace a compiled frame. Sizes are in bytes. -/
structure Layout where
  /-- The size of the compiled frame. -/
  replaced : Nat
  /-- By how much the caller is extended. -/
  callerAdjustment : Nat
  /-- The parameters that an interpreted caller passed. -/
  callerParameters : Option Nat
  /-- The sizes of the activations, outermost first. -/
  sizes : List Nat
  /-- Where the caller and each activation resume, outermost first. -/
  pcs : List Nat
  registers : Array Word
  /-- The kind of the value that the innermost activation waits for. -/
  returnType : BasicType
  mode : Mode
  /-- All sizes and the adjustment together. -/
  total : Nat
  /-- The reference that the compiled frame saved for the innermost activation. -/
  savedResult : Option Ref
  deriving DecidableEq, Repr, Inhabited

namespace Layout

/-- The words of each activation, outermost first. -/
def frameWords (l : Layout) : List Nat := l.sizes.map (· / wordBytes)

def text (l : Layout) : String :=
  s!"UnrollBlock\n  size_of_deoptimized_frame = {l.replaced}\n  frame_sizes:" ++
    String.join (l.sizes.map fun s => s!" {s}")

/-- The value that the innermost activation gets for its call, if the call returns one. -/
def result? (l : Layout) : Option Word :=
  match l.returnType with
  | .void | .illegal => none
  | t =>
    if t.isReference then some (.ref l.savedResult)
    else some (.raw ((l.registers[0]?.map Word.bits).getD 0))

end Layout

/-- What is to replace a compiled frame. -/
structure Plan where
  /-- The thread that the frame belongs to. -/
  owner : Nat
  /-- The id of the compiled frame. -/
  deoptee : Nat
  /-- Where the compiled code stands. -/
  pc : Nat
  sp : Nat
  callerSp : Nat
  /-- The activations, innermost first. -/
  frames : List Packed
  /-- Some eliminated object could not be restored. -/
  failed : Bool
  layout : Layout
  deriving DecidableEq, Repr, Inhabited

def Plan.frameWords (p : Plan) : Nat := p.callerSp - p.sp

end Bailout
