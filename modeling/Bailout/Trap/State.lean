import Bailout.Fault

/-!
# Trap states

What a profile remembers about one bytecode: no trap, traps for one known reason, or traps for
several, and whether the bytecode ever caused a recompilation. The states form a lattice with
several reasons at the bottom; from there every question is answered conservatively. A state packs
into five bits.
-/

namespace Bailout

/-- Which reasons were recorded at a bytecode. -/
inductive Seen where
  | nothing
  | one (reason : Reason)
  | many
  deriving DecidableEq, Repr, Inhabited

/-- The trap state of one bytecode. -/
structure TrapState where
  seen : Seen := .nothing
  recompiled : Bool := false
  deriving DecidableEq, Repr, Inhabited

/-- Whether a reason was recorded. -/
inductive Answer where
  | no
  | yes
  /-- Several reasons were recorded, so this one may be among them. -/
  | conservatively
  deriving DecidableEq, Repr, Inhabited

namespace Seen

/-- The code of several reasons. -/
def manyCode : Nat := 15

/-- The four bits of the recorded reasons. -/
def code : Seen → Nat
  | nothing => 0
  | one r => r.code
  | many => manyCode

/-- Read four bits back. -/
def ofCode (n : Nat) : Seen :=
  if n = 0 then nothing
  else if n = manyCode then many
  else match Reason.ofCode? n with
    | some r => one r
    | none => many

/-- Record one more reason. -/
def add (s : Seen) (r : Reason) : Seen :=
  match s with
  | nothing => one r
  | one q => if q = r then one q else many
  | many => many

def name : Seen → String
  | nothing => "none"
  | one r => r.name
  | many => "many"

end Seen

/-- The answer as a truth value; a conservative answer counts as yes. -/
def Answer.toBool : Answer → Bool
  | no => false
  | _ => true

def Answer.name : Answer → String
  | no => "no"
  | yes => "yes"
  | conservatively => "conservatively"

namespace TrapState

/-- The weight of the recompilation bit. -/
def recompiledBit : Nat := 16

/-- The five bits of a state. -/
def bits (s : TrapState) : Nat := s.seen.code + if s.recompiled then recompiledBit else 0

/-- The state that five bits stand for; higher bits are ignored. -/
def ofBits (n : Nat) : TrapState := ⟨.ofCode (n % 16), n / 16 % 2 = 1⟩

/-- Whether a reason was recorded here. -/
def has (s : TrapState) (r : Reason) : Answer :=
  match s.seen with
  | .nothing => .no
  | .one q => if q = r then .yes else .no
  | .many => .conservatively

/-- Record a reason here; the recompilation bit stays. -/
def add (s : TrapState) (r : Reason) : TrapState := { s with seen := s.seen.add r }

def addMany (s : TrapState) : TrapState :=
  { s with seen := .many }

def setRecompiled (s : TrapState) (b : Bool) : TrapState := { s with recompiled := b }

/-- Rebuild a state from what it says. Only reasons that are recorded per bytecode survive. -/
def reencode (s : TrapState) : TrapState :=
  match s.seen with
  | .one r => if r.perBytecode then s else { s with seen := .nothing }
  | _ => s

/-- The state in words, or its bits where they do not decode cleanly. -/
def text (s : TrapState) : String :=
  if s.reencode ≠ s then s!"#{s.bits}"
  else s.seen.name ++ if s.recompiled then " recompiled" else ""

/-- Ask for a reason that must be recorded per bytecode. -/
def has? (s : TrapState) (r : Reason) : Checked Answer := do
  ensure r.perBytecode (.notPerBytecode r)
  return s.has r

/-- Record a reason that must be recorded per bytecode. -/
def add? (s : TrapState) (r : Reason) : Checked TrapState := do
  ensure r.perBytecode (.notPerBytecode r)
  return s.add r

/-! ### Laws -/

@[simp] theorem add_recompiled (s : TrapState) (r : Reason) :
    (s.add r).recompiled = s.recompiled := rfl

@[simp] theorem setRecompiled_seen (s : TrapState) (b : Bool) :
    (s.setRecompiled b).seen = s.seen := rfl

theorem add_add_self (s : TrapState) (r : Reason) : (s.add r).add r = s.add r := by
  obtain ⟨seen, recompiled⟩ := s
  cases seen with
  | nothing => simp [add, Seen.add]
  | one q => by_cases h : q = r <;> simp [add, Seen.add, h]
  | many => rfl

/-- A recorded reason is never denied. -/
theorem has_add (s : TrapState) (r : Reason) : (s.add r).has r ≠ .no := by
  obtain ⟨seen, recompiled⟩ := s
  cases seen with
  | nothing => simp [add, Seen.add, has]
  | one q => by_cases h : q = r <;> simp [add, Seen.add, has, h]
  | many => simp [add, Seen.add, has]

end TrapState
end Bailout
