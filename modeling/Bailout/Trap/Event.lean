import Bailout.Activation.Mode
import Bailout.Trap.Action
import Bailout.Trap.Reason

/-!
# Events

What the runtime reports to an observer: a trap, a patched frame, a planned unwind, restored
objects.
-/

namespace Bailout

/-- What happened. -/
inductive EventKind where
  | uncommonTrap
  | frameDeoptimized
  | unrolled (mode : Mode)
  | objectsDeoptimized
  deriving DecidableEq, Repr, Inhabited

def EventKind.text : EventKind → String
  | uncommonTrap => "UncommonTrap"
  | frameDeoptimized => "FrameDeoptimized"
  | unrolled m => s!"Unrolled({m.title})"
  | objectsDeoptimized => "ObjectsDeoptimized"

/-- One report. -/
structure Event where
  kind : EventKind
  reason : Reason
  action : Action
  /-- The qualified name of the method, empty if none is concerned. -/
  method : String
  bci : Option Nat := none
  compileId : Option Nat := none
  thread : Nat
  deriving DecidableEq, Repr, Inhabited

/-- The report on one line. -/
def Event.text (e : Event) : String :=
  s!"{e.kind.text} thread={e.thread} reason={e.reason.name} action={e.action.name} " ++
    s!"method={e.method}"
    ++ (match e.bci with | some b => s!" bci={b}" | none => "")
    ++ (match e.compileId with | some i => s!" compile_id={i}" | none => "")

end Bailout
