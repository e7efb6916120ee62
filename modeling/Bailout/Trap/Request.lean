import Bailout.Trap.Action
import Bailout.Trap.Reason

/-!
# Trap requests

Compiled code names a trap by one 32-bit word. A negative word is the complement of a packed reason
and action; any other word is the constant-pool index of a class that was not loaded when the code
was compiled.
-/

namespace Bailout

/-- A trap request, as compiled code emits it. -/
structure Request where
  /-- The word itself. -/
  raw : Int32
  deriving DecidableEq, Repr, Inhabited

namespace Request

/-- How many bits the action takes; the reason stands above them. -/
def actionBits : Nat := 3

/-- How many bits the reason takes. -/
def reasonBits : Nat := 5

def pack (r : Reason) (a : Action) : Request :=
  ⟨~~~(Int32.ofNat (r.code <<< actionBits + a.code))⟩

/-- A trap on the class at a constant-pool index, of which the low 31 bits are kept. -/
def unloaded (index : Nat) : Request := ⟨Int32.ofNat (index % 1 <<< 31)⟩

/-- The packed bits of a negative word. -/
def bits (raw : Int32) : Nat := (~~~raw).toInt.toNat

def reasonCode (raw : Int32) : Nat := bits raw >>> actionBits % 1 <<< reasonBits

def actionCode (raw : Int32) : Nat := bits raw % 1 <<< actionBits

/-- Read a word back, if the reason and the action it packs exist. Bits above the reason are
ignored. -/
def ofRaw? (raw : Int32) : Option Request :=
  if 0 ≤ raw then some ⟨raw⟩
  else if (Reason.ofCode? (reasonCode raw)).isSome && (Action.ofCode? (actionCode raw)).isSome then
    some ⟨raw⟩
  else none

def reason (q : Request) : Reason :=
  if 0 ≤ q.raw then .unloaded else (Reason.ofCode? (reasonCode q.raw)).getD .unspecified

/-- What the code asks for. A class that was not loaded asks to reinterpret. -/
def action (q : Request) : Action :=
  if 0 ≤ q.raw then .reinterpret else (Action.ofCode? (actionCode q.raw)).getD .leave

/-- The constant-pool index of the class that was not loaded, if the request names one. -/
def classIndex? (q : Request) : Option Nat :=
  if 0 ≤ q.raw then some q.raw.toInt.toNat else none

def text (q : Request) : String :=
  s!"reason='{q.reason.name}' action='{q.action.name}'" ++
    match q.classIndex? with
    | some i => s!" index='{i}'"
    | none => ""

end Request
end Bailout
