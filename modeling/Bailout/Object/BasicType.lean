/-!
# Basic types

The kinds of value an interpreter slot, a field or an array element can have.
-/

namespace Bailout

/-- The kind of a value. -/
inductive BasicType where
  | boolean
  | char
  | float
  | double
  | byte
  | short
  | int
  | long
  | object
  | array
  | void
  | illegal
  deriving DecidableEq, Repr, Inhabited

namespace BasicType

def all : List BasicType :=
  [boolean, char, float, double, byte, short, int, long, object, array, void, illegal]

def name : BasicType → String
  | boolean => "boolean"
  | char => "char"
  | float => "float"
  | double => "double"
  | byte => "byte"
  | short => "short"
  | int => "int"
  | long => "long"
  | object => "object"
  | array => "array"
  | void => "void"
  | illegal => "illegal"

/-- The type with a given lower-case name. -/
def ofName? (s : String) : Option BasicType := all.find? (·.name == s)

/-- The name with a capital, as messages and array class names spell it. -/
def title (t : BasicType) : String := t.name.capitalize

/-- How many interpreter slots a value takes. -/
def slots : BasicType → Nat
  | long | double => 2
  | void | illegal => 0
  | _ => 1

def isReference : BasicType → Bool
  | object | array => true
  | _ => false

/-- How many bytes an array element takes. -/
def elementBytes : BasicType → Nat
  | boolean | byte => 1
  | char | short => 2
  | int | float => 4
  | long | double | object | array => 8
  | void | illegal => 0

/-- The word that a field or an array element of the type keeps of `w`. -/
def truncate (t : BasicType) (w : Int64) : Int64 :=
  match t with
  | boolean => w &&& 1
  | byte => w.toInt8.toInt64
  | char => Int64.ofNat w.toUInt64.toUInt16.toNat
  | short => w.toInt16.toInt64
  | int | float => w.toInt32.toInt64
  | _ => w

/-- The values for which a box of the type is shared, if boxes of it are shared at all. -/
def sharedRange? : BasicType → Option (Int × Int)
  | int | long | short | byte => some (-128, 127)
  | char => some (0, 127)
  | boolean => some (0, 1)
  | _ => none

end BasicType
end Bailout
