import Bailout.Unwind.Check

/-!
# Unpacking

Unpacking carries out a plan: the compiled frame goes, and the interpreted activations take its
place. The work is done by an *unpacker*. The faithful one follows the plan; the defective ones
break it in one way each, which the check of unpacked frames has to notice.
-/

namespace Bailout.Unwind

/-- Whether the innermost activation executes its bytecode again. -/
def reexecutes (p : Packed) (isTop : Bool) (mode : Mode) : Bool :=
  p.reexecute || (isTop && mode = .reexecute)

/-- The result that an activation gets for its call: only the newest one has a call that returned,
and only when the compiled frame was left by returning. -/
def resultFor (l : Layout) (p : Packed) (isTop : Bool) (mode : Mode) : List Word :=
  if isTop && mode = .plain && !reexecutes p isTop mode then l.result?.toList else []

/-- The interpreted activation for a packed one. -/
def activate (l : Layout) (p : Packed) (isTop : Bool) (mode : Mode) : InterpretedFrame :=
  { method := p.method, bci := p.bci
    locals := padded p.locals p.method.locals
    expressions := p.expressions ++ resultFor l p isTop mode
    monitors := p.monitors
    reexecute := reexecutes p isTop mode }

/-- The words of each activation, outermost first. The outermost one takes the extension of its
caller. -/
def rooms (l : Layout) : List Nat :=
  match l.frameWords with
  | [] => []
  | w :: ws => (w + l.callerAdjustment / wordBytes) :: ws

/-- Put activations on the stack, outermost first, each with its words and where it resumes. -/
def lay (l : Layout) (mode : Mode) (t : Thread) : List (Packed × Nat × Nat) → Checked Thread
  | [] => return t
  | (p, words, pc) :: rest => do
    let t ← t.push words pc (.interpreted (activate l p rest.isEmpty mode))
    lay l mode t rest

/-- Take the compiled frame of a plan off the stack, with the stubs above it. -/
def dropDeoptee (t : Thread) (p : Plan) : Checked Thread := do
  let (top, t) := t.dropStubs.pop
  guarantee (top.any (·.id = p.deoptee)) (.wrongTop (top.map Frame.id) p.deoptee)
  return t

/-- Replace the compiled frame as planned. -/
def replace (t : Thread) (p : Plan) (mode : Mode) : Checked Thread := do
  let t ← dropDeoptee t p
  lay p.layout mode t (p.frames.reverse.zip ((rooms p.layout).zip p.layout.pcs.tail))

/-- Who carries a plan out. -/
inductive Unpacker where
  | faithful
  /-- Does nothing. -/
  | lazy
  /-- Takes all frames off afterwards. -/
  | empty
  /-- Takes the newest frame off afterwards. -/
  | short
  /-- Moves the newest activation one bytecode on afterwards. -/
  | skewed
  /-- Turns the newest frame into an entry frame afterwards. -/
  | entry
  deriving DecidableEq, Repr, Inhabited

def Unpacker.name : Unpacker → String
  | faithful => "faithful"
  | lazy => "lazy"
  | empty => "empty"
  | short => "short"
  | skewed => "skew"
  | entry => "entry"

/-- The unpacker with a given name. -/
def Unpacker.ofName? (s : String) : Option Unpacker :=
  [faithful, lazy, empty, short, skewed, entry].find? (·.name == s)

/-- What an unpacker that keeps a record writes down: the activations that it puts on the stack,
outermost first. -/
def Unpacker.notes (u : Unpacker) (p : Plan) (mode : Mode) : List String :=
  match u with
  | lazy => []
  | _ => p.frames.reverse.map fun f => s!"{f.method.qualifiedName}@{f.bci} {mode.name}"

/-- Change the kind of the newest frame. -/
def onTop (t : Thread) (f : FrameKind → Checked FrameKind) : Checked Thread :=
  match t.stack with
  | [] => return t
  | top :: rest => do return { t with stack := { top with kind := ← f top.kind } :: rest }

/-- Move an interpreted activation one bytecode on. -/
def skew : FrameKind → Checked FrameKind
  | .interpreted a =>
    if a.bci + 1 < counterLimit then return .interpreted { a with bci := a.bci + 1 }
    else .error .overflow
  | k => return k

def Unpacker.run (u : Unpacker) (t : Thread) (p : Plan) (mode : Mode) : Checked Thread :=
  match u with
  | faithful => replace t p mode
  | lazy => return t
  | empty => do return { ← replace t p mode with stack := [] }
  | short => do return (← replace t p mode).pop.2
  | skewed => do onTop (← replace t p mode) skew
  | entry => do onTop (← replace t p mode) fun _ => return .entry

/-- Note that the plan of a thread was carried out. -/
def retire (t : Thread) : Checked Thread := do
  guarantee t.plan.isSome (.nothingToRetire t.name)
  { t with plan := none, lastPlan := t.plan }.clearForcedReexecution.leaveHandler

/-- The kind of the value that goes into the newest activation. -/
def returned (l : Layout) (mode : Mode) : BasicType :=
  if mode = .exception then .object else l.returnType

/-- Carry out the plan of a thread. -/
def unpack (u : Unpacker) (verify : Bool) (t : Thread) (mode : Mode) :
    Checked (BasicType × Thread) :=
  match t.plan with
  | none => fatal (.noPlan t.name)
  | some p => do
    let t ← retire (← u.run t p mode)
    if verify then check t p mode
    return (returned p.layout mode, t)

end Bailout.Unwind
