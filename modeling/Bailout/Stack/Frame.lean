import Bailout.Compiled.Region

/-!
# Frames

The frames of a thread's stack. Compiled code leaves a compiled frame through its handler once the
frame is patched: its return address is then the handler's, and the address where the code really
stands is kept beside it.
-/

namespace Bailout

/-- The runtime's own code that stands above a frame while the frame is taken apart. -/
inductive Stub where
  | deoptimization
  | uncommonTrap
  deriving DecidableEq, Repr, Inhabited

def Stub.text : Stub → String
  | deoptimization => "DeoptBlob"
  | uncommonTrap => "UncommonTrapBlob"

/-- An activation in the interpreter. -/
structure InterpretedFrame where
  method : Method
  bci : Nat
  locals : List Word
  expressions : List Word := []
  /-- The objects whose monitors the activation holds. -/
  monitors : List (Option Ref) := []
  /-- The bytecode is executed again. -/
  reexecute : Bool := false
  deriving DecidableEq, Repr, Inhabited

/-- Fill locals up with zeros to the number that a method has. -/
def padded (locals : List Word) (n : Nat) : List Word :=
  locals ++ List.replicate (n - locals.length) .zero

/-- An activation that has just begun, all locals zero. -/
def InterpretedFrame.start (m : Method) (bci : Nat) (expressions : List Word) (reexecute : Bool) :
    InterpretedFrame :=
  { method := m, bci, locals := padded [] m.locals, expressions, reexecute }

/-- An activation in compiled code, with all that is inlined into it. -/
structure CompiledFrame where
  region : Region
  /-- The stack slots. -/
  slots : Array Word
  registers : Array Word := #[]
  /-- The reference that a call returned, if it was saved. -/
  savedResult : Option Ref := none
  /-- The address where the code stands, held here while the frame is patched. -/
  heldPc : Option Nat := none
  deriving DecidableEq, Repr, Inhabited

/-- What a frame belongs to. -/
inductive FrameKind where
  /-- The bottom of the managed frames. -/
  | entry
  | stub (stub : Stub)
  | interpreted (frame : InterpretedFrame)
  | compiled (frame : CompiledFrame)
  deriving DecidableEq, Repr, Inhabited

namespace FrameKind

def isStub : FrameKind → Bool
  | stub _ => true
  | _ => false

/-- The activation in compiled code, if the frame is one. -/
def compiled? : FrameKind → Option CompiledFrame
  | compiled f => some f
  | _ => none

/-- The activation in the interpreter, if the frame is one. -/
def interpreted? : FrameKind → Option InterpretedFrame
  | interpreted f => some f
  | _ => none

end FrameKind

/-- A frame on a stack. The stack grows towards smaller addresses. -/
structure Frame where
  id : Nat
  /-- The address of the newest word of the frame, in words. -/
  sp : Nat
  words : Nat
  pc : Nat
  kind : FrameKind
  deriving DecidableEq, Repr, Inhabited

namespace Frame

/-- The address of the newest word of the caller. -/
def callerSp (f : Frame) : Nat := f.sp + f.words

/-- The address where the code of a frame stands. -/
def logicalPc (f : Frame) : Nat :=
  match f.kind with
  | .compiled c => c.heldPc.getD f.pc
  | _ => f.pc

/-- Make a compiled frame return to the handler, unless it already does. The result says whether the
frame changed. -/
def patch (f : Frame) : Checked (Bool × Frame) :=
  match f.kind with
  | .compiled c =>
    match c.heldPc with
    | some _ => return (false, f)
    | none => do
      let handler ← c.region.handler
      return (true, { f with pc := handler, kind := .compiled { c with heldPc := some f.pc } })
  | _ => return (false, f)

/-- The debug record of the place where a compiled frame stands, which must lie in the code. -/
def record (f : Frame) : Checked (CompiledFrame × DebugRecord) :=
  match f.kind with
  | .compiled c => do
    let pc := f.logicalPc
    guarantee (← c.region.contains pc) (.pcOutside pc c.region.method.qualifiedName)
    return (c, ← c.region.recordAt pc)
  | _ => fatal (.deopteeNotCompiled f.id)

/-! ### Laws -/

/-- Patching leaves a frame where its code stands. -/
theorem logicalPc_patch {f g : Frame} {b : Bool} (h : f.patch = .ok (b, g)) :
    g.logicalPc = f.logicalPc := by
  obtain ⟨id, sp, words, pc, kind⟩ := f
  cases kind with
  | compiled c =>
    obtain ⟨region, slots, registers, saved, held⟩ := c
    cases held with
    | none =>
      simp only [patch] at h
      cases hr : region.handler with
      | error e => rw [hr] at h; cases h
      | ok a => rw [hr] at h; cases h; rfl
    | some q => cases h; rfl
  | _ => cases h; rfl

end Frame
end Bailout
