import Bailout.Machine.Basic
import Bailout.Restore.Group

/-!
# Restoring objects for an inspector

An inspector that wants to see the objects of a compiled frame has them restored before the frame is
taken apart. The frame is patched then, and the restored objects are remembered for the day when it
is. When an object is refused, nothing is remembered and no monitor is entered.
-/

namespace Bailout

/-- What an inspection came to. -/
inductive Inspection where
  | nothingEliminated
  | restored
  | refused
  deriving DecidableEq, Repr, Inhabited

def Inspection.name : Inspection → String
  | nothingEliminated => "nothing_eliminated"
  | restored => "restored"
  | refused => "realloc_failed"

namespace Machine

/-- The frame of a thread that an inspector names, which must be compiled. -/
def inspected (t : Thread) (id : Nat) : Checked (Frame × CompiledFrame) :=
  match t.frame? id with
  | none => fatal (.frameNotFound id t.name)
  | some f =>
    match f.kind.compiled? with
    | none => fatal (.frameNotCompiled id t.name)
    | some c => return (f, c)

/-- A compiled frame of a thread and the record of the place where it stands. Reading a frame does
not ask whether that place lies in the code. -/
def recordOf (m : Machine) (t id : Nat) : Checked (CompiledFrame × DebugRecord) := do
  let (f, c) ← inspected (m.thread t) id
  return (c, ← c.region.recordAt f.logicalPc)

/-- Allocate and fill the eliminated objects of a compiled frame, and leave the frame alone. -/
def restoreObjects (m : Machine) (t id : Nat) (mode : Mode) (pending : Option Thrown) :
    Checked (Restore.Outcome × Machine) := do
  let (f, record) ← m.recordOf t id
  let _ ← f.scopes record
  let o ← Restore.objects m.supply m.memory pending mode f record.objects
  return (o, { m with memory := o.memory })

/-- Restore the objects and monitors of a compiled frame for an inspector, and leave the frame
alone. -/
def restoreAll (m : Machine) (t id : Nat) (pending : Option Thrown) :
    Checked (Restore.Outcome × Machine) := do
  let (f, record) ← m.recordOf t id
  let scopes ← f.scopes record
  let (o, thread) ←
    Restore.inspect m.supply m.memory (m.thread t) pending f scopes record.objects
  return (o, { m with memory := o.memory }.setThread t thread)

/-- Enter the eliminated ones of some monitors for a thread, and say whether there are any. -/
def relock (m : Machine) (t : Nat) (mode : Mode) (failed : Bool) (gs : List Guard) :
    Checked (Bool × Machine) := do
  let (b, store, thread) ← Restore.relock mode failed (m.store, m.thread t) gs
  return (b, (m.setStore store).setThread t thread)

/-- Patch an inspected frame, remember its objects, and report that. -/
def remember (m : Machine) (t : Nat) (f : Frame) (c : CompiledFrame) (innermost : Scope)
    (table : Restored) : Checked Machine := do
  let (_, histogram, f) ← f.deoptimize m.histogram .constraint
  let thread := (m.thread t).setFrame f
  let m := { m with histogram }.setThread t
    { thread with restored := thread.restored.set f.id table }
  return m.report {
    kind := .objectsDeoptimized, reason := .constraint, action := .leave
    method := c.region.method.qualifiedName, bci := some innermost.bci
    compileId := some c.region.compileId, thread := thread.id }

/-- Restore the objects of a compiled frame. -/
def deoptimizeObjects (m : Machine) (t id : Nat) : Checked (Inspection × Machine) := do
  let thread := m.thread t
  if thread.isRestored id then return (.restored, m)
  let (f, _) ← inspected thread id
  let (c, record) ← f.record
  let scopes ← c.scopes record
  if record.objects.isEmpty && !record.hasEliminatedMonitor then
    return (.nothingEliminated, m)
  let (o, thread) ← Restore.inspect m.supply m.memory thread none c scopes record.objects
  let m := { m with memory := o.memory }.setThread t thread
  if o.failed then return (.refused, m)
  return (.restored, ← m.remember t f c (scopes.headD default) o.table)

end Machine
end Bailout
