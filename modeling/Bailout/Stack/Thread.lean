import Bailout.Activation.Layout

/-!
# Threads

A thread with its stack and what is noted about it while frames are taken apart: the exceptions on
their way, the plan that waits to be carried out, and the objects that were restored early for a
frame.
-/

namespace Bailout

/-- What a thread throws. -/
inductive Thrown where
  /-- An eliminated object could not be restored. -/
  | outOfMemory
  | object (object : Ref)
  deriving DecidableEq, Repr, Inhabited

/-- What is thrown, in words. -/
def Thrown.text (s : Store) : Thrown → String
  | outOfMemory => "OutOfMemoryError(realloc_objects)"
  | object r => s.text r

/-- A thread. -/
structure Thread where
  id : Nat
  name : String
  /-- The frames, newest first. -/
  stack : List Frame := []
  /-- The id that was given to a frame last. -/
  lastFrameId : Nat := 0
  /-- The exception that waits to be thrown. -/
  pending : Option Thrown := none
  /-- The exception that goes into the newest activation. -/
  exception : Option Thrown := none
  /-- The plan to be carried out. -/
  plan : Option Plan := none
  /-- The plan that was carried out last. -/
  lastPlan : Option Plan := none
  /-- How many activations are not going to run because objects could not be restored. -/
  framesToPop : Nat := 0
  /-- The words of arguments that a forced re-execution keeps. -/
  preservedWords : Nat := 0
  /-- The newest activation is forced to execute its call again. -/
  forcesReexecution : Bool := false
  /-- The objects that were restored before their frame is taken apart, by frame id. -/
  restored : Table Nat Restored := {}
  /-- The object in whose monitor the thread waits. -/
  waitingOn : Option Ref := none
  /-- How often the monitor that is waited for is to be entered again after the wait. -/
  deferredRelocks : Nat := 0
  /-- How many deoptimizations the thread is in. -/
  handlerDepth : Nat := 0
  deriving DecidableEq, Repr, Inhabited

namespace Thread

/-- The address behind the oldest frame, in words. -/
def stackBase : Nat := 1 <<< 20

/-- The address of the newest word on the stack. -/
def sp (t : Thread) : Nat := (t.stack.head?.map Frame.sp).getD stackBase

def push (t : Thread) (words pc : Nat) (kind : FrameKind) : Checked Thread := do
  let sp ← checkedSub t.sp words
  let id := t.lastFrameId + 1
  return { t with stack := { id, sp, words, pc, kind } :: t.stack, lastFrameId := id }

/-- Take the newest frame off the stack. -/
def pop (t : Thread) : Option Frame × Thread := (t.stack.head?, { t with stack := t.stack.tail })

/-- The frame with an id. -/
def frame? (t : Thread) (id : Nat) : Option Frame := t.stack.find? (·.id = id)

/-- The position of the frame with an id, counted from the oldest frame. -/
def frameIndex? (t : Thread) (id : Nat) : Option Nat := t.stack.reverse.findIdx? (·.id = id)

/-- Put a frame in place of the one with the same id. -/
def setFrame (t : Thread) (f : Frame) : Thread :=
  { t with stack := t.stack.map fun g => if g.id = f.id then f else g }

/-- Take off the stubs above the newest real frame. -/
def dropStubs (t : Thread) : Thread :=
  { t with stack := t.stack.dropWhile (·.kind.isStub) }

/-- Whether the objects of a frame were restored early. -/
def isRestored (t : Thread) (frame : Nat) : Bool := t.restored.contains frame

/-- Whether the thread waits in the monitor of an object. -/
def isWaitingOn (t : Thread) (r : Ref) : Bool := t.waitingOn = some r

/-- Forget a request to execute a call again. -/
def clearForcedReexecution (t : Thread) : Thread :=
  { t with preservedWords := 0, forcesReexecution := false }

def enterHandler (t : Thread) : Thread := { t with handlerDepth := t.handlerDepth + 1 }

def leaveHandler (t : Thread) : Checked Thread := do
  ensure (0 < t.handlerDepth) .unbalancedHandler
  return { t with handlerDepth := t.handlerDepth - 1 }

def text (t : Thread) : String :=
  let name := Text.quoted t.name
  s!"ExecThread \x7b id: {threadText t.id}, name: {name}, .. \x7d"

end Thread
end Bailout
