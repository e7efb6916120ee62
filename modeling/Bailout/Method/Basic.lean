import Bailout.Fault
import Bailout.Method.Opcode
import Bailout.Text.Quoted

/-!
# Methods

What never changes about a method: its names, the shape of its interpreted frames, its code, and
how deep the expression stack is before each bytecode, where that is known.
-/

namespace Bailout

/-- A method. -/
structure Method where
  /-- The position of the method among all methods. It tells methods apart; ids need not. -/
  ref : Nat
  id : Nat
  holder : String
  name : String
  parameters : Nat
  locals : Nat
  maxStack : Nat
  /-- Parameters are locals. -/
  parameters_le_locals : parameters ≤ locals
  code : List Instruction := []
  /-- The depth of the expression stack before each bytecode. -/
  depths : Option (List Nat) := none
  deriving DecidableEq, Repr

namespace Method

instance : Inhabited Method :=
  ⟨{ ref := 0, id := 0, holder := "", name := "", parameters := 0, locals := 0, maxStack := 0
     parameters_le_locals := Nat.le_refl 0 }⟩

/-- Make a method; its parameters have to be among its locals. -/
def make (ref id : Nat) (holder name : String) (parameters locals maxStack : Nat)
    (code : List Instruction) (depths : Option (List Nat)) : Checked Method :=
  if h : parameters ≤ locals then
    .ok { ref, id, holder, name, parameters, locals, maxStack, parameters_le_locals := h, code
          depths }
  else .error (.assertion .precondition)

/-- The name of the method behind that of its holder. -/
def qualifiedName (m : Method) : String := s!"{m.holder}.{m.name}"

def instruction? (m : Method) (bci : Nat) : Option Instruction := m.code[bci]?

/-- The call that the method makes at a bytecode index, if it makes one there. -/
def call? (m : Method) (bci : Nat) : Option Call := (m.instruction? bci).bind Instruction.call?

/-- The depth of the expression stack before a bytecode index, if it is known. -/
def depth? (m : Method) (bci : Nat) : Option Nat := m.depths.bind (·[bci]?)

def text (m : Method) : String :=
  let name := Text.quoted m.qualifiedName
  s!"Method \x7b id: MethodId({m.id}), name: {name}, parameters: {m.parameters}, " ++
    s!"locals: {m.locals}, max_stack: {m.maxStack}, .. \x7d"

end Method
end Bailout
