/-!
# Locations

Where compiled code keeps a value, and how the bits found there are read.
-/

namespace Bailout

/-- A register or a stack slot of a compiled frame. -/
inductive Place where
  | register (index : Nat)
  | stack (index : Nat)
  deriving DecidableEq, Repr, Inhabited

/-- How the word at a place is to be read. -/
inductive Reading where
  /-- A whole machine word. -/
  | normal
  /-- A reference. -/
  | reference
  /-- The low half, as a signed integer. -/
  | int
  /-- A whole long. -/
  | long
  /-- The bits of a double. -/
  | double
  /-- Nothing: the value is dead. -/
  | invalid
  deriving DecidableEq, Repr, Inhabited

/-- Where a value is and how to read it. -/
structure Location where
  place : Place
  reading : Reading
  deriving DecidableEq, Repr, Inhabited

def Place.text : Place → String
  | .register r => s!"Register({r})"
  | .stack i => s!"Stack({i})"

def Reading.name : Reading → String
  | .normal => "normal"
  | .reference => "oop"
  | .int => "int"
  | .long => "lng"
  | .double => "dbl"
  | .invalid => "invalid"

/-- The reading with a given name. -/
def Reading.ofName? (s : String) : Option Reading :=
  [normal, reference, int, long, double, invalid].find? (·.name == s)

/-- Whether the reading supplies 64 bits. -/
def Reading.isWide : Reading → Bool
  | .long | .double => true
  | _ => false

end Bailout
