import Bailout.Stack.Thread

/-!
# Calls

Putting the usual frames on a stack: the bottom of the managed frames, activations in the
interpreter and in compiled code, and the stubs above them.
-/

namespace Bailout.Thread

def pushEntry (t : Thread) (words : Nat := 4) (pc : Nat := 0x40) : Checked Thread :=
  t.push words pc .entry

def pushStub (t : Thread) (s : Stub) (words : Nat := 2) (pc : Nat := 0x90) : Checked Thread :=
  t.push words pc (.stub s)

/-- Put an activation in the interpreter on the stack. -/
def pushInterpreted (t : Thread) (f : InterpretedFrame) (words : Nat := 12) (pc : Nat := 0x44) :
    Checked Thread :=
  t.push words pc (.interpreted f)

/-- What a call leaves in a frame of compiled code. -/
structure Contents where
  /-- The stack slots; all zero if nothing is known of them. -/
  slots : Option (Array Word) := none
  registers : Array Word := #[]
  savedResult : Option Ref := none
  deriving DecidableEq, Repr, Inhabited

/-- How many stack slots there are, for a frame of a region. -/
def Contents.slotCount (c : Contents) (r : Region) : Nat :=
  (c.slots.map Array.size).getD r.frameWords

/-- The words of a frame of a region: as many as the code asks for, or more to hold all slots. -/
def Contents.words (c : Contents) (r : Region) : Nat := max (c.slotCount r) r.frameWords

/-- Put a frame of compiled code on the stack. Its slots must fit into memory even when other slots
take their place. -/
def pushCompiled (t : Thread) (r : Region) (c : Contents) (words pc : Nat) : Checked Thread :=
  if Body.addressable < 16 * r.frameWords then .error .capacityOverflow
  else do
    let _ ← checkedSub t.sp words
    t.push words pc (.compiled {
      region := r, slots := c.slots.getD (Array.replicate r.frameWords .zero)
      registers := c.registers, savedResult := c.savedResult })

end Bailout.Thread
