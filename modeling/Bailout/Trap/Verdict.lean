import Bailout.Config.Basic
import Bailout.Trap.Action
import Bailout.Trap.History

/-!
# Verdicts

What a trap does to the code it came from and to the method. The action that the compiler asked for
is the start; the trap history can only escalate it. A bytecode that keeps trapping for one reason
gets its code invalidated, and a method that traps too often for one reason gets its code
invalidated wherever the traps come from.
-/

namespace Bailout

/-- The effects of one trap. -/
structure Verdict where
  /-- Invalidate the code. -/
  invalidate : Bool := false
  /-- Never compile the method again. -/
  giveUp : Bool := false
  /-- Reset the counters, so that the method is profiled again. -/
  reprofile : Bool := false
  /-- Count a recompilation that the bytecode caused again. -/
  countRecompile : Bool := false
  deriving DecidableEq, Repr, Inhabited

namespace Verdict

def ofAction : Action → Verdict
  | .leave | .maybeRecompile => {}
  | .reinterpret => { invalidate := true, reprofile := true }
  | .makeNotEntrant => { invalidate := true }
  | .makeNotCompilable => { invalidate := true, giveUp := true }

/-- Whether the history of the bytecode, or the lack of one, asks for invalidation. -/
def locally (r : Reason) (a : Action) (s : Snapshot) (c : Config) : Bool :=
  if r.standIn?.isSome then s.maybePriorTrap && decide (c.perBytecodeTrapLimit < s.count)
  else decide (a ≠ .leave)

/-- Combine the action that was asked for with the trap history, if traps are profiled. -/
def decide (r : Reason) (a : Action) (history : Option Snapshot) (c : Config) : Verdict :=
  let asked := ofAction a
  match history with
  | none => asked
  | some s =>
    let here := asked.invalidate || locally r a s c
    let repeated := s.maybePriorRecompile && s.maybePriorTrap
    let invalidate := here || Decidable.decide (c.methodLimit r < s.count)
    { invalidate
      giveUp := asked.giveUp
      reprofile := asked.reprofile || (invalidate && repeated)
      countRecompile := r.standIn?.isSome && here && repeated }

def action (v : Verdict) (asked : Action) : Action :=
  if v.giveUp then .makeNotCompilable
  else if v.invalidate && v.reprofile then .reinterpret
  else if v.invalidate then .makeNotEntrant
  else asked

end Verdict
end Bailout
