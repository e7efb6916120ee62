import Bailout.Object.Store
import Bailout.Table

/-!
# Restored objects

Which object stands for each eliminated one. The entry of an object that could not be restored is
there and empty.
-/

namespace Bailout

/-- The objects that stand for eliminated ones, by the ids of their descriptions. -/
structure Restored where
  objects : Table Nat (Option Ref) := {}
  /-- The ids whose object is a shared box. -/
  cached : List Nat := []
  deriving DecidableEq, Repr, Inhabited

namespace Restored

/-- The object that stands for an eliminated one; there is none if it was not or could not be
restored. -/
def get (t : Restored) (id : Nat) : Option Ref := (t.objects.get? id).join

/-- Whether restoring an object was tried. -/
def contains (t : Restored) (id : Nat) : Bool := t.objects.contains id

/-- Let an object stand for an eliminated one, or note that none could. -/
def insert (t : Restored) (id : Nat) (o : Option Ref) : Restored :=
  { t with objects := t.objects.set id o }

/-- Note that a shared box stands for an eliminated one. -/
def markCached (t : Restored) (id : Nat) : Restored := { t with cached := id :: t.cached }

/-- Whether a shared box stands for an eliminated object. -/
def isCached (t : Restored) (id : Nat) : Bool := t.cached.contains id

/-- How many objects could not be restored. -/
def failures (t : Restored) : Nat := (t.objects.values.filter Option.isNone).length

/-- How many objects there are, restored or not. -/
def size (t : Restored) : Nat := t.objects.size

/-! ### Laws -/

theorem get_insert (t : Restored) (i j : Nat) (o : Option Ref) :
    (t.insert i o).get j = if j = i then o else t.get j := by
  by_cases h : j = i
  · simp [insert, get, Table.get?_set, h]
  · simp [insert, get, Table.get?_set, h]

@[simp] theorem get_markCached (t : Restored) (i j : Nat) : (t.markCached i).get j = t.get j := rfl

end Restored
end Bailout
