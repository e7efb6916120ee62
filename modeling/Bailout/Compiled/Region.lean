import Bailout.Compiled.Record
import Bailout.Text.Hex
import Bailout.Text.Quoted

/-!
# Regions

A region is the compiled code of one method: where it lies, how large its frames are, where a
patched frame returns to, and its debug records. None of that changes. What changes is kept apart:
whether the region can still be entered, and how far its deoptimization has come.
-/

namespace Bailout

/-- Compiled code. -/
structure Region where
  /-- The position of the region among all regions that were ever installed. -/
  ref : Nat
  /-- The number of the compilation. A later region can have the same and then replaces it. -/
  compileId : Nat
  method : Method
  /-- The first address of the code. -/
  start : Nat
  size : Nat
  /-- The distance of the handler, to which patched frames return, from the start. -/
  handlerOffset : Nat
  frameWords : Nat := 4
  /-- Injected fields are among the fields that the code knows. -/
  seesInjected : Bool := false
  debug : DebugInfo := {}
  deriving DecidableEq, Repr, Inhabited

namespace Region

/-- Where the handler is, unless a region says otherwise. -/
def usualHandlerOffset (size : Nat) : Nat := size - 16

/-- The offset of the handler; one that is given must lie in the code. -/
def handlerOffsetOf (size : Nat) (given : Option Nat) : Checked Nat :=
  match given with
  | none => .ok (usualHandlerOffset size)
  | some o => do
    ensure (o < size) .precondition
    return o

def contains (r : Region) (pc : Nat) : Checked Bool :=
  if r.start ≤ pc then do
    let stop ← checkedAdd r.start r.size
    return pc < stop
  else return false

def pcAt (r : Region) (offset : Nat) : Checked Nat := checkedAdd r.start offset

def handler (r : Region) : Checked Nat := checkedAdd r.start r.handlerOffset

/-- The debug record for an address. It is looked up by the distance from the start, as 32 bits hold
it, and the address need not lie in the code. -/
def recordAt (r : Region) (pc : Nat) : Checked DebugRecord := do
  let offset := (← checkedSub pc r.start) % counterLimit
  match r.debug.find? offset with
  | some record => return record
  | none => fatal (.noDebugRecord offset r.method.qualifiedName)

end Region

/-- How far the deoptimization of a region has come. -/
inductive Mark where
  | notMarked
  /-- Marked, and the invalidation counts against the method. -/
  | counted
  /-- Marked, and the invalidation does not count. -/
  | uncounted
  | deoptimized
  deriving DecidableEq, Repr, Inhabited

def Mark.text : Mark → String
  | notMarked => "NotMarked"
  | counted => "Deoptimize"
  | uncounted => "DeoptimizeNoUpdate"
  | deoptimized => "Deoptimized"

/-- Whether the deoptimization was asked for and not yet done. -/
def Mark.isPending : Mark → Bool
  | counted | uncounted => true
  | _ => false

/-- What changes about a region. -/
structure RegionState where
  /-- The region can be entered. -/
  inUse : Bool := true
  mark : Mark := .notMarked
  /-- The generation in which the region was marked. -/
  generation : Nat := 0
  deriving DecidableEq, Repr, Inhabited

namespace RegionState

def pendingGeneration? (s : RegionState) : Option Nat :=
  if s.mark.isPending then some s.generation else none

/-- Whether frames of the region have to be patched. -/
def needsPatching (s : RegionState) : Bool := s.mark = .deoptimized || s.mark.isPending

def withMark (s : RegionState) (counts : Bool) (generation : Nat) : RegionState :=
  { s with mark := if counts then .counted else .uncounted, generation }

/-- Whether the region can be entered, in words. -/
def entryText (s : RegionState) : String := if s.inUse then "InUse" else "NotEntrant"

end RegionState

def Region.text (r : Region) (s : RegionState) : String :=
  let method := Text.quoted r.method.qualifiedName
  s!"CompiledRegion \x7b compile_id: {r.compileId}, method: {method}, " ++
    s!"code_begin: {Text.hex r.start}, state: {s.entryText}, status: {s.mark.text}, " ++
    s!"generation: {s.generation} \x7d"

end Bailout
