import Bailout.Stack.Thread

/-!
# Checking unpacked frames

The check compares the newest frames of a thread with the plan that was carried out last: their
number, the words that they take, which activation each is, and how deep its expression stack is.
-/

namespace Bailout.Unwind

/-- Whether an expression stack has a depth that its bytecode allows. Before a bytecode that is
executed again it is the depth known for the bytecode. The arguments of a call in progress are gone;
the newest activation has the result of its call already when the frame returned normally, and
nothing at all when it throws. -/
def depthFits (f : InterpretedFrame) (isTop : Bool) (mode : Mode) : Bool :=
  match f.method.depth? f.bci with
  | none => true
  | some declared =>
    let depth := f.expressions.length
    if f.reexecute || depth == declared then depth == declared
    else if isTop && mode = .exception && depth == 0 then true
    else match f.method.call? f.bci with
      | none => false
      | some call =>
        let rest := declared - call.parameters
        let returns := decide (call.result ≠ .void ∧ call.result ≠ .illegal)
        depth == rest || (isTop && mode = .plain && returns && depth == rest + 1)

/-- Check one frame against the activation that was planned for it. -/
def checkFrame (mode : Mode) (i : Nat) (p : Packed) (f : Frame) : Checked Unit :=
  match f.kind.interpreted? with
  | none => fatal (.notInterpreted f.id)
  | some a => do
    guarantee (a.method.ref = p.method.ref ∧ a.bci = p.bci)
      (.wrongActivation i a.method.qualifiedName a.bci p.method.qualifiedName p.bci)
    guarantee (depthFits a (i = 0) mode)
      (.wrongDepth a.method.qualifiedName a.expressions.length a.bci)

/-- Check frames, newest first, against activations, innermost first. -/
def checkFrames (mode : Mode) (i : Nat) : List Packed → List Frame → Checked Unit
  | p :: ps, f :: fs => do
    checkFrame mode i p f
    checkFrames mode (i + 1) ps fs
  | _, _ => return ()

/-- Check the newest frames of a thread against a plan. -/
def check (t : Thread) (p : Plan) (mode : Mode) : Checked Unit := do
  guarantee (p.frames.length ≤ t.stack.length) (.fewFrames p.frames.length t.stack.length)
  let planned := p.layout.total / wordBytes
  guarantee (t.sp + planned = p.callerSp) (.occupied (p.callerSp - t.sp) planned)
  checkFrames mode 0 p.frames t.stack

end Bailout.Unwind
