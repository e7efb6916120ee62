import Bailout.Restore.Restored
import Bailout.Stack.Frame

/-!
# Logical frames

The values of the activations that are inlined into a compiled frame. A value is read from the
frame, is a constant, or is an eliminated object that was restored.
-/

namespace Bailout

/-- A monitor of an activation, with its owner found. -/
structure Guard where
  owner : Option Ref
  eliminated : Bool
  /-- The owner is an eliminated object that was not restored. -/
  missing : Bool
  deriving DecidableEq, Repr, Inhabited

/-- Read a word as a location says. A zero read as a reference is null. -/
def Reading.interpret (r : Reading) (p : Place) (w : Word) : Checked Word :=
  match r, w with
  | .reference, .ref o => return .ref o
  | .reference, .raw b => if b = 0 then return .null else fatal (.rawReference p b)
  | .int, w => return .raw w.bits.toInt32.toInt64
  | _, w => return .raw w.bits

namespace CompiledFrame

def word? (f : CompiledFrame) : Place → Option Word
  | .register i => f.registers[i]?
  | .stack i => f.slots[i]?

/-- The value at a location. A dead value is zero wherever it was. -/
def read (f : CompiledFrame) (l : Location) : Checked Word :=
  match l.reading with
  | .invalid => return .zero
  | r =>
    match f.word? l.place with
    | some w => r.interpret l.place w
    | none => fatal (.outsideFrame l.place f.region.method.qualifiedName)

def resolve (f : CompiledFrame) (t : Restored) : Source → Checked Word
  | .int v => return .raw v.toInt64
  | .long v => return .raw v
  | .double b => return .raw b
  | .reference o => return .ref o
  | .located l => f.read l
  | .eliminated id => return .ref (t.get id)
  | .marker | .illegal => return .zero

def resolveAll (f : CompiledFrame) (t : Restored) (ss : List Source) : Checked (List Word) :=
  ss.mapM (f.resolve t)

/-- A monitor with its owner found. -/
def guard (f : CompiledFrame) (t : Restored) (m : HeldMonitor) : Checked Guard :=
  match m.owner with
  | .eliminated id =>
    return { owner := t.get id, eliminated := m.eliminated, missing := (t.get id).isNone }
  | s => do
    return { owner := (← f.resolve t s).object?, eliminated := m.eliminated, missing := false }

/-- The monitors of an activation with their owners found. -/
def guards (f : CompiledFrame) (t : Restored) (s : Scope) : Checked (List Guard) :=
  s.monitors.mapM (f.guard t)

/-- The activations of a record, innermost first; there must be one. -/
def scopes (f : CompiledFrame) (r : DebugRecord) : Checked (List Scope) := do
  guarantee (!r.scopes.isEmpty) (.noScopes r.offset f.region.method.qualifiedName)
  return r.scopes

end CompiledFrame
end Bailout
