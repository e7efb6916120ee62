import Bailout.Compiled.Cache
import Bailout.Method.State

/-!
# Programs

Methods together with their compiled code. Making a region not entrant charges its method for the
invalidation, unless the region was marked as not to be counted.
-/

namespace Bailout

/-- The methods and the code compiled for them. -/
structure Program where
  /-- The methods, by position. -/
  methods : Array MethodState := #[]
  code : CodeCache := {}
  deriving DecidableEq, Repr, Inhabited

namespace Program

def method (p : Program) (ref : Nat) : MethodState := p.methods.getD ref default

def modifyMethod (p : Program) (ref : Nat) (f : MethodState → MethodState) : Program :=
  { p with methods := p.methods.modify ref f }

/-- Charge the method of a region for its invalidation, unless the region is marked otherwise. -/
def charge (p : Program) (ref cutoff : Nat) : Checked Program :=
  if (p.code.state ref).mark = .uncounted then .ok p
  else do
    let m := (p.code.region ref).method.ref
    let s ← (p.method m).charge cutoff
    return p.modifyMethod m fun _ => s

/-- Make a region not entrant, and say whether it could be entered before. -/
def invalidate (p : Program) (ref cutoff : Nat) : Checked (Bool × Program) := do
  let (news, code) := p.code.close ref
  if news then
    let p ← { p with code := { code with invalidations := code.invalidations + 1 } }.charge ref
      cutoff
    return (true, p)
  else return (false, p)

/-- Make a marked region not entrant and note that it is deoptimized. -/
def retire (p : Program) (cutoff ref : Nat) : Checked Program := do
  let (_, p) ← p.invalidate ref cutoff
  return { p with code := p.code.modify ref fun s => { s with mark := .deoptimized } }

/-- Retire every region with a pending mark of a generation or an earlier one, and say how many
there were. -/
def retireMarked (p : Program) (generation cutoff : Nat) : Checked (Nat × Program) := do
  let marked := p.code.markedRegions generation
  let p ← marked.foldlM (fun p ref => p.retire cutoff ref) p
  return (marked.length, { p with
    code := { p.code with deoptimizations := p.code.deoptimizations + marked.length } })

/-- Forget how often methods were invoked and looped. -/
def reprofile (p : Program) (methods : List Method) : Program :=
  methods.foldl (fun p m => p.modifyMethod m.ref MethodState.resetCounters) p

/-! ### Laws -/

@[simp] theorem code_modifyMethod (p : Program) (ref : Nat) (f : MethodState → MethodState) :
    (p.modifyMethod ref f).code = p.code := rfl

theorem method_modifyMethod_self (p : Program) {ref : Nat} (f : MethodState → MethodState)
    (h : ref < p.methods.size) : (p.modifyMethod ref f).method ref = f (p.method ref) := by
  simp [modifyMethod, method, Array.getElem_modify, h]

theorem method_modifyMethod_of_ne (p : Program) {ref q : Nat} (f : MethodState → MethodState)
    (h : q ≠ ref) : (p.modifyMethod ref f).method q = p.method q := by
  simp [modifyMethod, method, Array.getElem?_modify, Ne.symm h]

end Program
end Bailout
