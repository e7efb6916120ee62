import Bailout.Object.Reachable
import Bailout.Stack.Thread

/-!
# Roots

The values through which a thread holds on to objects: those in its frames, oldest frame first, and
those of the activations that it plans to unpack.
-/

namespace Bailout

def FrameKind.values : FrameKind → List Word
  | .interpreted f => f.locals ++ f.expressions ++ f.monitors.map Word.ref
  | .compiled f => f.slots.toList ++ f.registers.toList
  | _ => []

def Thread.values (t : Thread) : List Word :=
  t.stack.reverse.flatMap (fun f => f.kind.values) ++
    ((t.plan.map Plan.frames).getD []).flatMap fun p => p.locals ++ p.expressions

def Thread.reachable (t : Thread) (s : Store) : List Ref :=
  s.reachable (t.values.filterMap Word.object?)

end Bailout
