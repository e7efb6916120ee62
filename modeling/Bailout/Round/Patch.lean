import Bailout.Compiled.Cache
import Bailout.Stack.Frame
import Bailout.Trap.Histogram

/-!
# Patching frames

A frame whose code must not go on is patched to return into its handler. Every frame that is patched
counts as one trap without a bytecode.
-/

namespace Bailout

/-- Patch a compiled frame that is not patched yet, and count that. The result says whether the
frame changed. -/
def Frame.deoptimize (f : Frame) (h : Histogram) (r : Reason) :
    Checked (Bool × Histogram × Frame) :=
  match f.kind.compiled? with
  | none => return (false, h, f)
  | some c =>
    if c.heldPc.isSome then return (false, h, f)
    else do
      let (b, f) ← f.patch
      return (b, h.gather r .leave none, f)

namespace CodeCache

/-- Whether a frame belongs to code that must not go on. -/
def condemns (c : CodeCache) (f : Frame) : Bool :=
  f.kind.compiled?.any fun a => (c.state a.region.ref).needsPatching

/-- Patch a frame if its code must not go on. -/
def patchFrame (c : CodeCache) (h : Histogram) (f : Frame) : Checked (Histogram × Frame) :=
  if c.condemns f then do
    let (_, h, f) ← f.deoptimize h .constraint
    return (h, f)
  else return (h, f)

/-- Patch the frames of a stack whose code must not go on. -/
def patchStack (c : CodeCache) (h : Histogram) : List Frame → Checked (Histogram × List Frame)
  | [] => return (h, [])
  | f :: fs => do
    let (h, f) ← c.patchFrame h f
    let (h, fs) ← c.patchStack h fs
    return (h, f :: fs)

end CodeCache
end Bailout
