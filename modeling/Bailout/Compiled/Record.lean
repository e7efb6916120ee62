import Bailout.Compiled.Location
import Bailout.Method.Basic
import Bailout.Object.Store

/-!
# Debug records

What the compiler notes about a place in its code: the activations that are inlined there, innermost
first, and where each of their values comes from. Objects and monitors that the compiler eliminated
are described, so that they can be made good.
-/

namespace Bailout

/-- Where a value comes from. -/
inductive Source where
  | int (value : Int32)
  | long (value : Int64)
  /-- A double, by its bits. -/
  | double (bits : Int64)
  /-- A constant reference. -/
  | reference (object : Option Ref)
  /-- A register or a stack slot. -/
  | located (location : Location)
  /-- An eliminated object, by the id of its description. -/
  | eliminated (id : Nat)
  /-- The place of a byte that belongs to the source before. -/
  | marker
  | illegal
  deriving DecidableEq, Repr, Inhabited

namespace Source

/-- Whether the source supplies 64 bits. -/
def isWide : Source → Bool
  | long _ | double _ => true
  | located l => l.reading.isWide
  | _ => false

/-- Whether the source is a constant of 32 bits. -/
def isInt : Source → Bool
  | int _ => true
  | _ => false

/-- Whether the source is a constant of 64 bits. -/
def isWideConstant : Source → Bool
  | long _ | double _ => true
  | _ => false

def isMarker : Source → Bool
  | marker => true
  | _ => false

end Source

/-- The description of an eliminated object. -/
structure Description where
  id : Nat
  klass : Klass
  /-- Where the fields or elements come from. -/
  sources : List Source
  /-- The object is a box that the compiler made by itself. -/
  autoBox : Bool := false
  deriving DecidableEq, Repr, Inhabited

/-- A monitor that an activation holds. -/
structure HeldMonitor where
  owner : Source
  /-- The compiler left out entering it. -/
  eliminated : Bool
  deriving DecidableEq, Repr, Inhabited

/-- One inlined activation. -/
structure Scope where
  method : Method
  bci : Nat
  /-- The bytecode is executed again. -/
  reexecute : Bool := false
  locals : List Source := []
  expressions : List Source := []
  monitors : List HeldMonitor := []
  deriving DecidableEq, Repr, Inhabited

/-- What is known about one place in compiled code. -/
structure DebugRecord where
  /-- The distance of the place from the start of the code. -/
  offset : Nat
  /-- The activations, innermost first. -/
  scopes : List Scope
  /-- The eliminated objects. -/
  objects : List Description := []
  /-- The call that the code waits for returns a reference. -/
  returnsReference : Bool := false
  /-- The exception on the expression stack is thrown again. -/
  rethrows : Bool := false
  deriving DecidableEq, Repr, Inhabited

/-- Whether any monitor of a record was eliminated. -/
def DebugRecord.hasEliminatedMonitor (r : DebugRecord) : Bool :=
  r.scopes.any fun s => s.monitors.any HeldMonitor.eliminated

/-- The records of one piece of code in the order of their offsets, one for each offset. -/
structure DebugInfo where
  records : List DebugRecord := []
  deriving DecidableEq, Repr, Inhabited

namespace DebugInfo

/-- Put a record in its place, unless there is one for its offset. -/
def insertIn (r : DebugRecord) : List DebugRecord → List DebugRecord
  | [] => [r]
  | q :: qs =>
    if r.offset < q.offset then r :: q :: qs
    else if r.offset = q.offset then q :: qs
    else q :: insertIn r qs

/-- Put a list of records in order; of several for one offset the first counts. -/
def ofList (rs : List DebugRecord) : DebugInfo := ⟨rs.foldl (fun qs r => insertIn r qs) []⟩

/-- The record for an offset in an ordered list. -/
def findIn (offset : Nat) : List DebugRecord → Option DebugRecord
  | [] => none
  | q :: qs =>
    if q.offset = offset then some q
    else if offset < q.offset then none
    else findIn offset qs

def find? (d : DebugInfo) (offset : Nat) : Option DebugRecord := findIn offset d.records

end DebugInfo
end Bailout
