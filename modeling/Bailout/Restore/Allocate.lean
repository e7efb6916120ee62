import Bailout.Activation.Logical
import Bailout.Config.Basic
import Bailout.Object.BoxCache

/-!
# Allocating eliminated objects

Each eliminated object gets an object to stand for it: a shared box where the compiler made a box of
a small value, else a new object from the heap. The objects are filled in only when all of them
exist, because they may refer to each other. A refusal leaves one entry empty and does not keep
later objects from being allocated.
-/

namespace Bailout.Restore

/-- What allocation takes its objects from. -/
structure Supply where
  config : Config
  boxes : BoxCaches
  deriving DecidableEq, Repr, Inhabited

/-- How far allocation has come. -/
structure Progress where
  memory : Memory
  table : Restored := {}
  /-- Some object was refused. -/
  failed : Bool := false
  deriving DecidableEq, Repr, Inhabited

/-- The position of the source of a boxed value. A long comes second, behind a dummy. -/
def boxedSource (t : BasicType) : Nat := if t = .long then 1 else 0

def sharedBox (boxes : BoxCaches) (f : CompiledFrame) (t : Restored) (d : Description) :
    Checked BoxLookup :=
  match d.klass.box? with
  | none => return .miss
  | some ty =>
    match d.sources[boxedSource ty]? with
    | none => return .miss
    | some s => do return boxes.lookup ty (← f.resolve t s).bits

/-- What the box caches say about a described object, if they are to be asked. -/
def lookup (s : Supply) (f : CompiledFrame) (t : Restored) (d : Description) : Checked BoxLookup :=
  if d.klass.isInstance && d.autoBox && s.config.eliminateAutoBox then sharedBox s.boxes f t d
  else return .miss

/-- How many sources one element of a primitive array has. -/
def sourcesPerElement (t : BasicType) : Nat := max 1 t.slots

def arrayLength (d : Description) : Checked Nat :=
  match d.klass.element? with
  | some t => do
    guarantee (d.sources.length % sourcesPerElement t = 0) (.unevenArray d.id)
    return d.sources.length / sourcesPerElement t
  | none => return d.sources.length

def newObject (m : Memory) (d : Description) : Checked (Except HeapExhausted (Ref × Memory)) :=
  if d.klass.isInstance then m.allocateInstance d.klass
  else do m.allocateArray d.klass (← arrayLength d)

/-- Note that an object was refused. -/
def Progress.refuse (p : Progress) (d : Description) : Progress :=
  { p with table := p.table.insert d.id none, failed := true }

/-- Allocate one described object. -/
def allocateOne (s : Supply) (f : CompiledFrame) (p : Progress) (d : Description) :
    Checked Progress := do
  guarantee (!p.table.contains d.id) (.reallocatedTwice d.id)
  match ← lookup s f p.table d with
  | .hit r => return { p with table := (p.table.markCached d.id).insert d.id (some r) }
  | .unavailable => return p.refuse d
  | .miss =>
    match ← newObject p.memory d with
    | .ok (r, memory) => return { p with memory, table := p.table.insert d.id (some r) }
    | .error _ => return p.refuse d

def allocate (s : Supply) (m : Memory) (f : CompiledFrame) (ds : List Description) :
    Checked Progress :=
  ds.foldlM (allocateOne s f) { memory := m }

end Bailout.Restore
