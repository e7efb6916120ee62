import Bailout.Object.Klass
import Bailout.Object.Monitor

/-!
# Objects

Machine words, objects and the store that holds them. An object is known by its reference, the
position at which the store keeps it, and nothing is ever taken out of the store. Every object also
has a number of its own, which the heap gave it and which its text shows.
-/

namespace Bailout

/-- A reference to an object: its position in the store. -/
structure Ref where
  index : Nat
  deriving DecidableEq, Repr, Inhabited

/-- What one slot of a frame, a register or a field holds: a word or a reference, which may be
null. -/
inductive Word where
  | raw (bits : Int64)
  | ref (object : Option Ref)
  deriving DecidableEq, Repr

namespace Word

/-- The word zero. -/
def zero : Word := .raw 0

/-- The null reference. -/
def null : Word := .ref none

instance : Inhabited Word := ⟨zero⟩

/-- The word itself; a reference reads as zero. -/
def bits : Word → Int64
  | raw w => w
  | ref _ => 0

/-- The object that is referred to; a word and the null reference have none. -/
def object? : Word → Option Ref
  | raw _ => none
  | ref o => o

end Word

/-- The storage of an object. -/
inductive Body where
  /-- The slots of an instance; a slot that was never written holds nothing. -/
  | fields (slots : Array (Option Word))
  | primitives (elements : Array Int64)
  | references (elements : Array (Option Ref))
  deriving DecidableEq, Repr, Inhabited

namespace Body

def length? : Body → Option Nat
  | fields _ => none
  | primitives es => some es.size
  | references es => some es.size

/-- What a slot of an instance holds; there is nothing beyond the slots and in arrays. -/
def field (b : Body) (slot : Nat) : Option Word :=
  match b with
  | fields ss => ss[slot]?.join
  | _ => none

def primitive? (b : Body) (i : Nat) : Option Int64 :=
  match b with
  | primitives es => es[i]?
  | _ => none

/-- The object that an element of a reference array refers to. -/
def reference? (b : Body) (i : Nat) : Option Ref :=
  match b with
  | references es => es[i]?.join
  | _ => none

/-- The objects that a body refers to, in order. -/
def targets : Body → List Ref
  | fields ss => ss.toList.filterMap fun s => s.bind Word.object?
  | primitives _ => []
  | references es => es.toList.filterMap id

/-- The largest number of bytes that one array can take. -/
def addressable : Nat := 1 <<< 63 - 1

/-- The body of a new object, all zero or null. -/
def fresh (k : Klass) (length : Nat) : Checked Body :=
  match k with
  | .primitiveArray .. =>
    if 8 * length ≤ addressable then .ok (primitives (Array.replicate length 0))
    else .error .capacityOverflow
  | .referenceArray .. =>
    if 8 * length ≤ addressable then .ok (references (Array.replicate length none))
    else .error .capacityOverflow
  | _ => .ok (fields (Array.replicate k.slotCount none))

end Body

/-- An object. -/
structure Object where
  /-- The number that its heap gave it. -/
  serial : Nat
  klass : Klass
  body : Body
  monitor : Monitor := {}
  deriving DecidableEq, Repr, Inhabited

def Object.text (o : Object) : String := s!"{o.klass.name}@{o.serial}"

/-- Every object there is. -/
structure Store where
  objects : Array Object := #[]
  deriving DecidableEq, Repr, Inhabited

namespace Store

def get (s : Store) (r : Ref) : Object := s.objects.getD r.index default

def add (s : Store) (o : Object) : Ref × Store := (⟨s.objects.size⟩, ⟨s.objects.push o⟩)

def modify (s : Store) (r : Ref) (f : Object → Object) : Store := ⟨s.objects.modify r.index f⟩

def setBody (s : Store) (r : Ref) (b : Body) : Store := s.modify r fun o => { o with body := b }

def setMonitor (s : Store) (r : Ref) (m : Monitor) : Store :=
  s.modify r fun o => { o with monitor := m }

def monitor (s : Store) (r : Ref) : Monitor := (s.get r).monitor

def body (s : Store) (r : Ref) : Body := (s.get r).body

def text (s : Store) (r : Ref) : String := (s.get r).text

/-- A word in words: hexadecimal, `null`, or class and number of an object. -/
def wordText (s : Store) : Word → String
  | .raw w => Bailout.Text.hexWord w
  | .ref none => "null"
  | .ref (some r) => s.text r

/-- The content of an instance slot in words: decimal, `null`, or class and number of an object. -/
def fieldText (s : Store) : Option Word → String
  | none => "0"
  | some (.raw w) => toString w.toInt
  | some (.ref none) => "null"
  | some (.ref (some r)) => s.text r

/-! ### Laws -/

theorem get_add_self (s : Store) (o : Object) : (s.add o).2.get (s.add o).1 = o := by
  simp [add, get]

theorem get_add_of_lt (s : Store) (o : Object) {r : Ref} (h : r.index < s.objects.size) :
    (s.add o).2.get r = s.get r := by
  simp [add, get, Array.getElem?_push, Nat.ne_of_lt h]

theorem get_modify_self (s : Store) {r : Ref} (f : Object → Object) (h : r.index < s.objects.size) :
    (s.modify r f).get r = f (s.get r) := by
  simp [modify, get, Array.getElem_modify, h]

theorem get_modify_of_ne (s : Store) {r q : Ref} (f : Object → Object) (h : q ≠ r) :
    (s.modify r f).get q = s.get q := by
  have : r.index ≠ q.index := fun e => h (by cases r; cases q; simp_all)
  simp [modify, get, Array.getElem?_modify, this]

@[simp] theorem size_modify (s : Store) (r : Ref) (f : Object → Object) :
    (s.modify r f).objects.size = s.objects.size := by
  simp [modify]

end Store
end Bailout
