import Bailout.Object.Heap
import Bailout.Table

/-!
# Box caches

Boxes of small values are shared: for each primitive type there may be one box for every value in a
range. A cache that could not be filled makes the boxes of its type unavailable.
-/

namespace Bailout

/-- The shared boxes of one primitive type. -/
inductive BoxCache where
  /-- One box for each value from `low` on. -/
  | ready (low : Int) (boxes : Array Ref)
  | failed
  deriving DecidableEq, Repr, Inhabited

/-- What a cache says about a value. -/
inductive BoxLookup where
  | hit (box : Ref)
  /-- The type has no cache, or the value is outside its range. -/
  | miss
  /-- The cache of the type could not be filled. -/
  | unavailable
  deriving DecidableEq, Repr, Inhabited

/-- The box caches of all primitive types. -/
structure BoxCaches where
  caches : Table BasicType BoxCache := {}
  deriving DecidableEq, Repr, Inhabited

namespace BoxCaches

def lookup (c : BoxCaches) (t : BasicType) (w : Int64) : BoxLookup :=
  match c.caches.get? t with
  | none => .miss
  | some .failed => .unavailable
  | some (.ready low boxes) =>
    if w.toInt < low then .miss
    else match boxes[(w.toInt - low).toNat]? with
      | some r => .hit r
      | none => .miss

/-- Note that the cache of a type could not be filled. -/
def markFailed (c : BoxCaches) (t : BasicType) : BoxCaches := ⟨c.caches.set t .failed⟩

/-- The slot of the value in a box: the first field of the boxed type. -/
def valueSlot (k : Klass) (t : BasicType) : Nat :=
  ((k.slots.find? (fun f => f.1.type = t)).map Prod.snd).getD 0

def setValue (s : Store) (r : Ref) (slot : Nat) (w : Int64) : Store :=
  match s.body r with
  | .fields ss => s.setBody r (.fields (ss.setIfInBounds slot (some (.raw w))))
  | _ => s

/-- Allocate a box for each value of a list, as long as there is memory. -/
def fill (m : Memory) (k : Klass) (slot : Nat) (boxes : Array Ref) :
    List Int → Checked (Except HeapExhausted (Array Ref) × Memory)
  | [] => return (.ok boxes, m)
  | v :: vs => do
    match ← m.allocateInstance k with
    | .error e => return (.error e, m)
    | .ok (r, m) =>
      let m := { m with store := setValue m.store r slot (Int64.ofInt v) }
      fill m k slot (boxes.push r) vs

/-- The numbers from `low` to `high`. -/
def range (low high : Int) : List Int :=
  (List.range (high - low + 1).toNat).map fun (i : Nat) => low + (i : Int)

/-- Fill the cache of the type that a class boxes. When memory runs out the cache has failed, and
the boxes that were made stay allocated. -/
def install (c : BoxCaches) (m : Memory) (k : Klass) :
    Checked (Option HeapExhausted × BoxCaches × Memory) := do
  match k.box? with
  | none => return (none, c, m)
  | some t =>
    match t.sharedRange? with
    | none => return (none, c, m)
    | some (low, high) =>
      match ← fill m k (valueSlot k t) #[] (range low high) with
      | (.ok boxes, m) => return (none, ⟨c.caches.set t (.ready low boxes)⟩, m)
      | (.error e, m) => return (some e, c.markFailed t, m)

end BoxCaches
end Bailout
