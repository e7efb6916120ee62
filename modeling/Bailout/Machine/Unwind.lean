import Bailout.Machine.Basic
import Bailout.Unwind.Fetch

/-!
# Taking frames apart

Planning, unpacking and patching on the whole machine. A plan is reported when it is made, and a
frame when it is patched on request.
-/

namespace Bailout.Machine

/-- Plan the replacement of the newest compiled frame of a thread. -/
def fetch (m : Machine) (t : Nat) (mode : Mode) : Checked (Layout × Machine) := do
  let (l, memory, thread) ← Unwind.fetch m.supply m.memory (m.thread t) mode
  let m := { m with memory }.setThread t thread
  return (l, m.report {
    kind := .unrolled l.mode, reason := .unspecified, action := .leave, method := ""
    thread := thread.id })

/-- Carry out the plan of a thread. -/
def unpack (m : Machine) (t : Nat) (mode : Mode) : Checked (BasicType × Machine) := do
  let (type, thread) ← Unwind.unpack m.unpacker m.config.verifyStack (m.thread t) mode
  return (type, m.setThread t thread)

/-- Retire the plan of a thread without carrying it out. -/
def retirePlan (m : Machine) (t : Nat) : Checked Machine := do
  return m.setThread t (← Unwind.retire (m.thread t))

/-- Patch a frame and say whether it changed; there may be no such frame. -/
def patchFrame (m : Machine) (t frame : Nat) : Checked (Option Bool × Machine) :=
  match (m.thread t).frame? frame with
  | none => return (none, m)
  | some f => do
    let (b, f) ← f.patch
    return (some b, m.setThread t ((m.thread t).setFrame f))

/-- Patch a frame for a reason, count and report that, and say whether the frame changed. -/
def deoptimizeFrame (m : Machine) (t frame : Nat) (r : Reason) : Checked (Bool × Machine) :=
  match (m.thread t).frame? frame with
  | none => return (false, m)
  | some f => do
    let (changed, histogram, g) ← f.deoptimize m.histogram r
    let m := { m with histogram }.setThread t ((m.thread t).setFrame g)
    if changed then
      let region := f.kind.compiled?.map CompiledFrame.region
      return (true, m.report {
        kind := .frameDeoptimized, reason := r, action := .leave
        method := (region.map fun x => x.method.qualifiedName).getD ""
        compileId := region.map Region.compileId, thread := (m.thread t).id })
    else return (false, m)

end Bailout.Machine
