import Bailout.Compiled.Location
import Bailout.Object.BasicType
import Bailout.Text.Hex
import Bailout.Text.Line
import Bailout.Trap.Reason

/-!
# Faults

What stops the runtime for good: a violated guarantee, a failed assertion, arithmetic outside its
width, a request that no memory can hold. A fault is a cause with the data it speaks of;
`Violation.message` and `Assertion.message?` put it into words. Every operation that can stop
returns a `Checked` value.
-/

namespace Bailout

/-- A violated guarantee of the runtime. -/
inductive Violation where
  | handshakeAtSafepoint
  | walkOutsideSafepoint
  | outsideFrame (place : Place) (method : String)
  | rawReference (place : Place) (word : Int64)
  | noScopes (offset : Nat) (method : String)
  | reallocatedTwice (object : Nat)
  | unevenArray (object : Nat)
  | noSource (object : Nat) (klass : String) (index : Nat)
  | fieldType (field klass : String) (type : BasicType)
  | byteRun (count element : Nat)
  | elementType (type : BasicType)
  | deopteeNotCompiled (frame : Nat)
  | pcOutside (pc : Nat) (method : String)
  | noDebugRecord (offset : Nat) (method : String)
  | nothingToDeoptimize (thread : String)
  | noCaller (frame : Nat)
  | nothingThrown
  | nullThrown
  | planPending (thread : String)
  | noPendingException
  | noPlan (thread : String)
  | nothingToRetire (thread : String)
  | wrongTop (found : Option Nat) (expected : Nat)
  | fewFrames (planned found : Nat)
  | occupied (words planned : Nat)
  | notInterpreted (frame : Nat)
  | wrongActivation (index : Nat) (found : String) (foundBci : Nat) (planned : String)
      (plannedBci : Nat)
  | wrongDepth (method : String) (depth bci : Nat)
  | trapWithoutFrame (thread : String)
  | trapWithoutScope (offset : Nat)
  | frameNotFound (frame : Nat) (thread : String)
  | frameNotCompiled (frame : Nat) (thread : String)
  | generationBelow (committed required : Nat)
  | generationNotAhead (active committed : Nat)
  deriving DecidableEq, Repr, Inhabited

def frameText (id : Nat) : String := s!"FrameId({id})"

def objectText (id : Nat) : String := s!"ObjectId({id})"

def threadText (id : Nat) : String := s!"ThreadId({id})"

def optionText (o : Option String) : String :=
  match o with
  | some s => s!"Some({s})"
  | none => "None"

def Violation.message : Violation → String
  | handshakeAtSafepoint => "handshake requested from inside a safepoint"
  | walkOutsideSafepoint => "threads_do outside of a safepoint"
  | outsideFrame p m => s!"location {p.text} outside frame of {m}"
  | rawReference p w => s!"reference location {p.text} holds raw word {Text.hexWord w}"
  | noScopes o m => s!"no scopes at pc offset {Text.hex o} of {m}"
  | reallocatedTwice i => s!"redundant reallocation of object {objectText i}"
  | unevenArray i => s!"non-integral array length for {objectText i}"
  | noSource i k n => s!"object {objectText i} of {k} has no value source {n}"
  | fieldType f k t => s!"field {f} of {k} has type {t.title}"
  | byteRun n i => s!"invalid byte run of {n} at element {i}"
  | elementType t => s!"unexpected array element type {t.title}"
  | deopteeNotCompiled f => s!"deoptee {frameText f} is not a compiled frame"
  | pcOutside p m => s!"pc {Text.hex p} outside code of {m}"
  | noDebugRecord o m => s!"no debug info at pc offset {Text.hex o} of {m}"
  | nothingToDeoptimize t => s!"thread {t} has no frame to deoptimize"
  | noCaller f => s!"compiled frame {frameText f} has no caller"
  | nothingThrown => "must have exception to throw"
  | nullThrown => "exception oop can not be null"
  | planPending t => s!"pending deoptimization on thread {t}"
  | noPendingException => "failed reallocation left no exception"
  | noPlan t => s!"no deoptimization in progress on {t}"
  | nothingToRetire t => s!"no frame array to clean up on {t}"
  | wrongTop found f =>
    s!"top frame {optionText (found.map frameText)} is not the deoptimized frame {frameText f}"
  | fewFrames n found => s!"expected {n} unpacked frames, stack has {found}"
  | occupied w n => s!"unpacked frames occupy {w} words, planned {n}"
  | notInterpreted f => s!"unpacked frame {frameText f} is not interpreted"
  | wrongActivation i m b n c => s!"unpacked frame {i} is {m}@{b}, expected {n}@{c}"
  | wrongDepth m d b =>
    s!"wrong number of expression stack elements during deopt: {m} has {d} at bci {b}"
  | trapWithoutFrame t => s!"uncommon trap on {t} without a frame"
  | trapWithoutScope o => s!"uncommon trap at pc offset {Text.hex o} without scope"
  | frameNotFound f t => s!"frame {frameText f} not found on {t}"
  | frameNotCompiled f t => s!"frame {frameText f} of {t} is not compiled"
  | generationBelow c r => s!"committed generation {c} below required {r}"
  | generationNotAhead a c => s!"active generation {a} not ahead of committed {c}"

/-- A failed assertion: a misuse that only a checked build notices. -/
inductive Assertion where
  | notPerBytecode (reason : Reason)
  | unbalancedHandler
  | monitorNotHeld (object : String) (thread : Nat)
  | unusedSources (object : Nat)
  | ownerMissing
  | scopeDropped
  | precondition
  deriving DecidableEq, Repr, Inhabited

/-- The assertion in words, on one line; an unnamed precondition has none. -/
def Assertion.message? : Assertion → Option String
  | notPerBytecode r => some s!"{r.name} is not per-bytecode"
  | unbalancedHandler => some "unbalanced deopt handler exit"
  | monitorNotHeld o t => some (Text.firstLine s!"monitor of {o} not held by {threadText t}")
  | unusedSources i => some s!"unused value sources for {objectText i}"
  | ownerMissing => some "eliminated owner was not reallocated"
  | scopeDropped => some "deoptimization scope dropped without commit"
  | precondition => none

/-- Why the runtime stopped. -/
inductive Fault where
  | fatal (violation : Violation)
  | assertion (assertion : Assertion)
  /-- Arithmetic left its width. -/
  | overflow
  /-- An array was asked for that no address space can hold. -/
  | capacityOverflow
  /-- A monitor was entered that another thread holds and nobody is left to release. -/
  | blocked
  deriving DecidableEq, Repr, Inhabited

/-- A result, or the fault that stopped the runtime. -/
abbrev Checked := Except Fault

/-- Stop with a violated guarantee. -/
def fatal {α : Type} (v : Violation) : Checked α := .error (.fatal v)

/-- Stop unless a guarantee holds. -/
def guarantee (holds : Bool) (v : Violation) : Checked Unit :=
  if holds then .ok () else fatal v

/-- Stop unless an assertion holds. -/
def ensure (holds : Bool) (a : Assertion) : Checked Unit :=
  if holds then .ok () else .error (.assertion a)

/-! ### Arithmetic on 64-bit addresses and sizes -/

/-- One more than the largest address, size or count. -/
def wordLimit : Nat := 1 <<< 64

/-- The sum, if it fits. -/
def checkedAdd (a b : Nat) : Checked Nat :=
  if a + b < wordLimit then .ok (a + b) else .error .overflow

/-- The product, if it fits. -/
def checkedMul (a b : Nat) : Checked Nat :=
  if a * b < wordLimit then .ok (a * b) else .error .overflow

/-- The difference, if it is not negative. -/
def checkedSub (a b : Nat) : Checked Nat :=
  if b ≤ a then .ok (a - b) else .error .overflow

/-- One more than the largest 32-bit counter. -/
def counterLimit : Nat := 1 <<< 32

/-- The next value of a 32-bit counter that stays at its top. -/
def saturatingNext (n : Nat) : Nat := min (n + 1) (counterLimit - 1)

/-! ### Laws -/

theorem checkedAdd_of_lt {a b : Nat} (h : a + b < wordLimit) : checkedAdd a b = .ok (a + b) :=
  if_pos h

theorem checkedSub_of_le {a b : Nat} (h : b ≤ a) : checkedSub a b = .ok (a - b) :=
  if_pos h

theorem checkedMul_of_lt {a b : Nat} (h : a * b < wordLimit) : checkedMul a b = .ok (a * b) :=
  if_pos h

end Bailout
