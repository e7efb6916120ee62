import Bailout.Fault

/-!
# Classes

A class is an instance class, possibly below a superclass, an array of primitives or an array of
references. The body of an instance has one slot for each field of the class and its ancestors that
is not static, ancestors first, each class in the order of its declarations.
-/

namespace Bailout

/-- A field as a class declares it. -/
structure Field where
  name : String
  type : BasicType
  /-- A static field has no slot in an instance. -/
  isStatic : Bool := false
  /-- An injected field was added by the runtime; compiled code may be unable to see it. -/
  isInjected : Bool := false
  deriving DecidableEq, Repr, Inhabited

/-- A loaded class. The last component is the primitive type that instances box, if they do. -/
inductive Klass where
  | base (name : String) (declared : List Field) (box : Option BasicType)
  | derived (name : String) (superclass : Klass) (declared : List Field) (box : Option BasicType)
  | primitiveArray (element : BasicType) (box : Option BasicType)
  | referenceArray (name : String) (box : Option BasicType)
  deriving DecidableEq, Repr

namespace Klass

instance : Inhabited Klass := ⟨.base "" [] none⟩

/-- An instance class, below a superclass if one is given. -/
def instanceOf (name : String) (superclass : Option Klass) (declared : List Field)
    (box : Option BasicType) : Klass :=
  match superclass with
  | some k => derived name k declared box
  | none => base name declared box

def name : Klass → String
  | base n _ _ => n
  | derived n _ _ _ => n
  | primitiveArray t _ => "[" ++ t.title
  | referenceArray n _ => n

/-- The primitive type that instances of the class box. -/
def box? : Klass → Option BasicType
  | base _ _ b => b
  | derived _ _ _ b => b
  | primitiveArray _ b => b
  | referenceArray _ b => b

def isInstance : Klass → Bool
  | base .. | derived .. => true
  | _ => false

def element? : Klass → Option BasicType
  | primitiveArray t _ => some t
  | _ => none

/-- The fields with a slot in an instance, in the order of the slots. -/
def layout : Klass → List Field
  | base _ fs _ => fs.filter (!·.isStatic)
  | derived _ k fs _ => k.layout ++ fs.filter (!·.isStatic)
  | _ => []

/-- The fields of an instance, each with its slot. -/
def slots (k : Klass) : List (Field × Nat) := k.layout.zipIdx

def slotCount (k : Klass) : Nat := k.layout.length

/-- The bytes of an object that are not its slots or elements. -/
def headerBytes : Nat := 16

/-- The bytes that an instance takes, or an array of a given length. -/
def allocationBytes (k : Klass) (length : Nat) : Checked Nat :=
  match k with
  | primitiveArray t _ => do checkedAdd headerBytes (← checkedMul length t.elementBytes)
  | referenceArray .. => do checkedAdd headerBytes (← checkedMul length 8)
  | _ => do checkedAdd headerBytes (← checkedMul 8 k.slotCount)

/-! ### Laws -/

/-- The fields of a superclass come first. -/
theorem layout_derived (n : String) (k : Klass) (fs : List Field) (b : Option BasicType) :
    (derived n k fs b).layout = k.layout ++ fs.filter (!·.isStatic) := rfl

@[simp] theorem length_slots (k : Klass) : k.slots.length = k.slotCount := by
  simp [slots, slotCount]

/-- The slots are numbered from zero, in their order. -/
theorem map_snd_slots (k : Klass) : k.slots.map Prod.snd = List.range k.slotCount := by
  rw [slots, List.zipIdx_map_snd, List.range_eq_range', slotCount]

end Klass
end Bailout
