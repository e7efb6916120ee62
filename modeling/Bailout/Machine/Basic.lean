import Bailout.Restore.Allocate
import Bailout.Round.Commit
import Bailout.Trap.Event
import Bailout.Unwind.Unpack

/-!
# The machine

The whole runtime: programs, threads and rounds, the memory from which objects are restored, the
configuration, and the reports for observers.
-/

namespace Bailout

/-- The runtime. -/
structure Machine extends Rounds where
  config : Config
  memory : Memory := {}
  boxes : BoxCaches := {}
  /-- The classes that traps can resolve. -/
  classes : ClassTable := {}
  /-- Who puts interpreted frames on the stack. -/
  unpacker : Unwind.Unpacker := .faithful
  /-- The reports that nobody has read yet, oldest first. -/
  events : List Event := []
  deriving DecidableEq, Repr

namespace Machine

instance : Inhabited Machine := ⟨{ config := {} }⟩

def thread (m : Machine) (t : Nat) : Thread := m.roster.thread t

def setThread (m : Machine) (t : Nat) (thread : Thread) : Machine :=
  { m with roster := m.roster.set t thread }

def store (m : Machine) : Store := m.memory.store

def setStore (m : Machine) (s : Store) : Machine :=
  { m with memory := { m.memory with store := s } }

/-- What restored objects are taken from. -/
def supply (m : Machine) : Restore.Supply := { config := m.config, boxes := m.boxes }

/-- The number of invalidations after which a method is given up. -/
def cutoff (m : Machine) : Nat := m.config.perMethodRecompilationCutoff

def report (m : Machine) (e : Event) : Machine := { m with events := m.events ++ [e] }

/-- The unread reports, which are then read. -/
def takeEvents (m : Machine) : List Event × Machine := (m.events, { m with events := [] })

def setCode (m : Machine) (code : CodeCache) : Machine :=
  { m with program := { m.program with code } }

def modifyMethod (m : Machine) (ref : Nat) (f : MethodState → MethodState) : Machine :=
  { m with program := m.program.modifyMethod ref f }

/-- Load a method; its position is the next free one. -/
def addMethod (m : Machine) (method : Method) (pool : Pool) : Machine :=
  { m with program := { m.program with methods := m.program.methods.push { method, pool } } }

def updateMonitor (m : Machine) (r : Ref) (f : Monitor → Checked Monitor) : Checked Machine := do
  return m.setStore (m.store.setMonitor r (← f (m.store.monitor r)))

/-- Let a thread come back from a wait in the monitor of an object. -/
def reacquire (m : Machine) (t : Nat) (r : Ref) : Checked Machine := do
  let thread := m.thread t
  let m ← m.updateMonitor r (·.reacquire thread.id thread.deferredRelocks)
  return m.setThread t { thread with deferredRelocks := 0 }

/-- Make a region not entrant, and say whether it could be entered before. -/
def invalidate (m : Machine) (region : Nat) : Checked (Bool × Machine) := do
  let (b, program) ← m.program.invalidate region m.cutoff
  return (b, { m with program })

def commit (m : Machine) (b : Batch) : Checked Machine := do
  return { m with toRounds := ← m.toRounds.commit m.cutoff b }

/-- Commit batches one after the other, in whatever order they are listed: the first round that is
needed satisfies the others. -/
def commitAll (m : Machine) (bs : List Batch) : Checked Machine := bs.foldlM commit m

/-- Deoptimize all code that was marked in a generation or earlier. -/
def deoptimizeMarked (m : Machine) (generation : Nat) : Checked Machine := do
  return { m with toRounds := ← m.toRounds.deoptimizeMarked m.cutoff generation }

def text (m : Machine) : String :=
  s!"Deoptimizer \x7b config: {m.config.text}, generation: {m.generations.text}, " ++
    s!"traps: {m.histogram.total}, .. \x7d"

end Machine
end Bailout
