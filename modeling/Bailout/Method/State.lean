import Bailout.Method.Basic
import Bailout.Method.Pool
import Bailout.Trap.History

/-!
# The state of methods

What changes about a method while it runs: its constant pool, how often it was invoked and looped,
its profile once it has one, and whether it may still be compiled.
-/

namespace Bailout

/-- A method and what changes about it. -/
structure MethodState where
  method : Method
  pool : Pool := {}
  notCompilable : Bool := false
  invocations : Nat := 0
  backedges : Nat := 0
  /-- The profile, once something was recorded about the method. -/
  profile : Option Profile := none
  deriving DecidableEq, Repr, Inhabited

namespace MethodState

/-- Never compile the method again. -/
def giveUp (s : MethodState) : MethodState := { s with notCompilable := true }

/-- Count invocations and backward jumps; the counters start again after 32 bits. -/
def record (s : MethodState) (invocations backedges : Nat) : MethodState :=
  { s with
    invocations := (s.invocations + invocations) % counterLimit
    backedges := (s.backedges + backedges) % counterLimit }

/-- Start counting invocations and backward jumps anew. -/
def resetCounters (s : MethodState) : MethodState := { s with invocations := 0, backedges := 0 }

/-- The profile, or the one that the method would get. -/
def profileWith (s : MethodState) (capacity : Nat) : Profile :=
  s.profile.getD (.empty s.method.id capacity)

/-- Give the method a profile unless it has one. -/
def ensureProfile (s : MethodState) (capacity : Nat) : MethodState :=
  { s with profile := some (s.profileWith capacity) }

/-- Change the profile, if there is one. -/
def mapProfile (s : MethodState) (f : Profile → Profile) : MethodState :=
  { s with profile := s.profile.map f }

/-- Change the trap history, if there is a profile. -/
def mapHistory (s : MethodState) (f : History → History) : MethodState :=
  s.mapProfile fun p => { p with history := f p.history }

/-- Charge the method for one invalidation of its code. A method with a profile that was charged
more often than the cutoff allows is given up. -/
def charge (s : MethodState) (cutoff : Nat) : Checked MethodState :=
  match s.profile with
  | none => .ok s
  | some p => do
    let p ← p.countDecompile
    let s := { s with profile := some p }
    return if cutoff < p.decompiles then s.giveUp else s

end MethodState
end Bailout
