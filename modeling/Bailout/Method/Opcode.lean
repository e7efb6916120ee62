import Bailout.Object.BasicType

/-!
# Opcodes and instructions

The bytecode operations, as far as leaving compiled code has to tell them apart. Codes start at 1,
so that 0 is no operation.
-/

namespace Bailout

/-- A bytecode operation. -/
inductive Opcode where
  | nop
  | const
  | load
  | store
  | arith
  | arrayLoad
  | arrayStore
  | getField
  | putField
  | getStatic
  | putStatic
  | newObject
  | newArray
  | checkCast
  | instanceOf
  | loadConstant
  | invoke
  | branch
  | jump
  | return
  | throw
  | monitorEnter
  | monitorExit
  deriving DecidableEq, Repr, Inhabited

namespace Opcode

/-- Every operation, in the order of the codes. -/
def all : List Opcode :=
  [nop, const, load, store, arith, arrayLoad, arrayStore, getField, putField, getStatic, putStatic,
    newObject, newArray, checkCast, instanceOf, loadConstant, invoke, branch, jump, .return, .throw,
    monitorEnter, monitorExit]

def code (o : Opcode) : Nat := all.idxOf o + 1

/-- The operation with a given code. -/
def ofCode? (n : Nat) : Option Opcode := if n = 0 then none else all[n - 1]?

def name : Opcode → String
  | nop => "nop"
  | const => "const"
  | load => "load"
  | store => "store"
  | arith => "arith"
  | arrayLoad => "array_load"
  | arrayStore => "array_store"
  | getField => "getfield"
  | putField => "putfield"
  | getStatic => "getstatic"
  | putStatic => "putstatic"
  | newObject => "new"
  | newArray => "newarray"
  | checkCast => "checkcast"
  | instanceOf => "instanceof"
  | loadConstant => "ldc"
  | invoke => "invoke"
  | branch => "if"
  | jump => "goto"
  | .return => "return"
  | .throw => "throw"
  | monitorEnter => "monitorenter"
  | monitorExit => "monitorexit"

/-- The operation with a given mnemonic. -/
def ofName? (s : String) : Option Opcode := all.find? (·.name == s)

/-- A code is the code of one operation only. -/
@[simp] theorem ofCode?_code (o : Opcode) : ofCode? o.code = some o := by
  cases o <;> rfl

end Opcode

/-- What an instruction says about a call. -/
structure Call where
  /-- The argument slots taken off the stack, receiver included. -/
  parameters : Nat
  /-- The kind of the result. -/
  result : BasicType
  /-- The call passes one more argument, the name of a member. -/
  passesMember : Bool
  deriving DecidableEq, Repr, Inhabited

/-- A bytecode instruction. -/
inductive Instruction where
  | plain (op : Opcode)
  /-- An instruction that names an entry of the constant pool. -/
  | indexed (op : Opcode) (index : Nat)
  | call (call : Call)
  deriving DecidableEq, Repr, Inhabited

namespace Instruction

def opcode : Instruction → Opcode
  | plain op => op
  | indexed op _ => op
  | call _ => .invoke

/-- The call that an instruction makes, if it makes one. -/
def call? : Instruction → Option Call
  | call c => some c
  | _ => none

end Instruction
end Bailout
