import Bailout.Restore.Allocate
import Bailout.Restore.Fill
import Bailout.Restore.Relock

/-!
# Restoring the objects of a frame

The objects and monitors that were eliminated from a compiled frame are restored together. When an
object is refused, an out-of-memory error takes the place of whatever exception was pending, except
while inspecting, where the inspector learns of it and the thread does not.
-/

namespace Bailout.Restore

/-- What restoring objects came to. -/
structure Outcome where
  memory : Memory
  table : Restored := {}
  /-- Some object was refused. -/
  failed : Bool := false
  /-- Something was restored for an inspector. -/
  changed : Bool := false
  pending : Option Thrown
  deriving DecidableEq, Repr, Inhabited

/-- The exception that is pending after objects were allocated. -/
def pendingAfter (mode : Mode) (failed : Bool) (pending : Option Thrown) : Option Thrown :=
  if failed then (if mode = .inspect then none else some .outOfMemory) else pending

/-- Allocate and fill the eliminated objects of a frame. -/
def objects (s : Supply) (m : Memory) (pending : Option Thrown) (mode : Mode) (f : CompiledFrame)
    (ds : List Description) : Checked Outcome :=
  if ds.isEmpty then return { memory := m, pending }
  else do
    let p ← allocate s m f ds
    let store ← fill f p.table p.memory.store ds
    return { memory := { p.memory with store }, table := p.table, failed := p.failed
             changed := mode = .inspect
             pending := pendingAfter mode p.failed pending }

/-- Whether eliminated objects are restored at all. -/
def Supply.restoresObjects (s : Supply) : Bool :=
  s.config.eliminateAllocations || s.config.eliminateAutoBox

/-- Allocate and fill the eliminated objects of a frame, if they are restored at all. -/
def objectsIfEnabled (s : Supply) (m : Memory) (pending : Option Thrown) (mode : Mode)
    (f : CompiledFrame) (ds : List Description) : Checked Outcome :=
  if s.restoresObjects then objects s m pending mode f ds else return { memory := m, pending }

/-- Restore the objects of a frame for an inspector, and then its monitors unless an object was
refused. -/
def inspect (s : Supply) (m : Memory) (t : Thread) (pending : Option Thrown) (f : CompiledFrame)
    (scopes : List Scope) (ds : List Description) : Checked (Outcome × Thread) := do
  let o ← objectsIfEnabled s m pending .inspect f ds
  if s.config.eliminateLocks && !o.failed then
    let (relocked, store, t) ←
      relockAll f o.table .inspect o.failed (o.memory.store, t) scopes.reverse
    return ({ o with memory := { o.memory with store }, changed := o.changed || relocked }, t)
  else return (o, t)

end Bailout.Restore
