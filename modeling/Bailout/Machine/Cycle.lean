import Bailout.Machine.Trap
import Bailout.Stack.Call

/-!
# Trap cycles

A thread calls compiled code, traps in it and goes on in the interpreter until it returns: the whole
life of one activation that traps.
-/

namespace Bailout.Machine

/-- One trap at an offset of a region, from the call to the return. -/
def trapCycle (m : Machine) (t region offset : Nat) (q : Request) :
    Checked (BasicType × Machine) := do
  let r := m.program.code.region region
  let thread ← (m.thread t).pushEntry
  let thread ← thread.pushCompiled r {} r.frameWords (← r.pcAt offset)
  let thread ← thread.pushStub .uncommonTrap
  let (l, m) ← (m.setThread t thread).uncommonTrap t q
  let (type, m) ← m.unpack t l.mode
  return (type, m.setThread t { m.thread t with stack := [] })

/-- A number of traps one after the other, at least one; the type and the reports are those of the
last, and what the others reported counts as read. -/
def trapCycles (m : Machine) (t region offset : Nat) (q : Request) :
    Nat → Checked (BasicType × Machine)
  | 0 => m.trapCycle t region offset q
  | n + 1 => do
    let (_, m) ← m.trapCycle t region offset q
    m.takeEvents.2.trapCycles t region offset q n

end Bailout.Machine
