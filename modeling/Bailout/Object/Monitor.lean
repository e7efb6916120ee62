import Bailout.Fault

/-!
# Monitors

Every object carries a monitor that one thread at a time can hold, any number of times. A thread
that waits gives its monitor up; relocks that were put off while it waited are made good when it
comes back.
-/

namespace Bailout

/-- A monitor: the thread that holds it, and how often beyond the first time. -/
structure Monitor where
  owner : Option Nat := none
  recursions : Nat := 0
  deriving DecidableEq, Repr, Inhabited

namespace Monitor

def isOwnedBy (m : Monitor) (t : Nat) : Bool := m.owner == some t

/-- How often a thread holds the monitor. -/
def holdCount (m : Monitor) (t : Nat) : Nat := if m.owner = some t then m.recursions + 1 else 0

def deepen (m : Monitor) (n : Nat) : Checked Monitor :=
  if m.recursions + n < counterLimit then .ok { m with recursions := m.recursions + n }
  else .error .overflow

/-- Enter the monitor if it is free or already held by the thread. -/
def tryEnter (m : Monitor) (t : Nat) : Checked (Option Monitor) :=
  match m.owner with
  | none => .ok (some { owner := some t, recursions := 0 })
  | some o => if o = t then some <$> m.deepen 1 else .ok none

/-- Enter the monitor; a thread that finds it held by another one waits for good. -/
def enter (m : Monitor) (t : Nat) : Checked Monitor := do
  match ← m.tryEnter t with
  | some m => .ok m
  | none => .error .blocked

/-- Leave the monitor once, if the thread holds it. -/
def exit? (m : Monitor) (t : Nat) : Option Monitor :=
  if m.owner = some t then
    if 0 < m.recursions then some { m with recursions := m.recursions - 1 }
    else some { m with owner := none }
  else none

/-- Come back from a wait, with the relocks that were put off meanwhile. -/
def reacquire (m : Monitor) (t deferred : Nat) : Checked Monitor := do
  (← m.enter t).deepen deferred

/-- The monitor once a contender has it: the thread that held it left as often as it held it. -/
def handOver (m : Monitor) (t : Nat) : Checked Monitor :=
  if m.isOwnedBy t then m.enter t else (enter {} t)

end Monitor
end Bailout
