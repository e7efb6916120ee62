import Bailout.Restore.Group

/-!
# Planning

Planning takes the newest compiled frame of a thread, restores what was eliminated from it, packs
its activations, and lays out the interpreted activations that are to replace it. The frame itself
stays on the stack. When objects were refused, the activations are not going to run: their monitors
are released, and an out-of-memory error is raised in their place.
-/

namespace Bailout.Unwind

/-- Where every unpacked activation resumes. -/
def interpreterEntry : Nat := 0x100000

/-- The newest frame that is no stub, and its caller. -/
def target (t : Thread) : Checked (Frame × Frame) :=
  match t.dropStubs.stack with
  | [] => fatal (.nothingToDeoptimize t.name)
  | [f] => fatal (.noCaller f.id)
  | f :: caller :: _ => return (f, caller)

/-- What restoring came to for a frame that is to be replaced. -/
structure Recovery where
  memory : Memory
  thread : Thread
  table : Restored
  failed : Bool
  deriving DecidableEq, Repr, Inhabited

/-- Restore what was eliminated from a frame, unless that was done early for an inspector. -/
def recover (s : Restore.Supply) (m : Memory) (t : Thread) (mode : Mode) (id : Nat)
    (f : CompiledFrame) (r : DebugRecord) : Checked Recovery :=
  match t.restored.get? id with
  | some table =>
    return { memory := m, thread := { t with restored := t.restored.erase id }, table
             failed := false }
  | none => do
    let o ← Restore.objectsIfEnabled s m t.pending mode f r.objects
    let t := { t with pending := o.pending }
    if s.config.eliminateLocks then
      let (_, store, t) ←
        Restore.relockAll f o.table mode o.failed (o.memory.store, t) r.scopes.reverse
      return { memory := { o.memory with store }, thread := t, table := o.table
               failed := o.failed }
    else return { memory := o.memory, thread := t, table := o.table, failed := o.failed }

/-- The reference that the frame saved, if the innermost activation is going to take it. -/
def savedResult (t : Thread) (mode : Mode) (f : CompiledFrame) (r : DebugRecord) : Option Ref :=
  if r.returnsReference && !t.forcesReexecution && mode = .plain then f.savedResult else none

/-- The exception that the innermost activation throws again. -/
def rethrown (f : CompiledFrame) (table : Restored) (r : DebugRecord) (innermost : Scope) :
    Checked (Option Thrown) :=
  if r.rethrows then do
    let es ← f.resolveAll table innermost.expressions
    match es.getLast? with
    | none => fatal .nothingThrown
    | some w =>
      match w.object? with
      | some o => return some (.object o)
      | none => fatal .nullThrown
  else return none

/-- Leave the monitor of an object, which the thread must hold. -/
def leave (t : Nat) (s : Store) (r : Ref) : Checked Store :=
  match (s.monitor r).exit? t with
  | some m => return s.setMonitor r m
  | none => .error (.assertion (.monitorNotHeld (s.text r) t))

/-- Leave the monitors of one activation, the one entered last first. -/
def releaseOne (t : Nat) (s : Store) (p : Packed) : Checked Store :=
  (p.monitors.reverse.filterMap id).foldlM (leave t) s

/-- Leave the monitors of all activations, innermost first. -/
def release (t : Nat) (s : Store) (ps : List Packed) : Checked Store := ps.foldlM (releaseOne t) s

/-- Give up the activations if objects were refused. -/
def abandon (failed : Bool) (s : Store) (t : Thread) (ps : List Packed) :
    Checked (Store × Thread × List Packed) :=
  if failed then do
    let s ← release t.id s ps
    return (s, { t with framesToPop := ps.length }, ps.map Packed.withoutMonitors)
  else return (s, t, ps)

/-- Put the exceptions in place and settle the mode. -/
def raise (t : Thread) (mode : Mode) (thrown : Option Thrown) : Checked (Thread × Mode) := do
  let (t, mode) :=
    if thrown.isSome then ({ t with exception := thrown }, .exception) else (t, mode)
  if 0 < t.framesToPop ∧ mode ≠ .uncommonTrap then
    guarantee t.pending.isSome .noPendingException
    return ({ t with exception := t.pending, pending := none }, .exception)
  else return (t, mode)

/-- Whether an interpreted caller stands at a call that passes a member. -/
def passesMember (caller : Frame) : Bool :=
  caller.kind.interpreted?.any fun f => (f.method.call? f.bci).any Call.passesMember

/-- The parameters of the outermost activation that its caller keeps: an interpreted caller keeps
them on its expression stack, unless it passes a member as well. -/
def keptParameters (caller : Frame) (outermost : Method) : Option Nat :=
  if caller.kind.interpreted?.isSome then
    some (if passesMember caller then 0 else outermost.parameters)
  else none

/-- By how many words the caller is extended for locals of the outermost activation. -/
def callerExtension (caller : Frame) (outermost : Method) : Nat :=
  Activation.extraLocals ((keptParameters caller outermost).getD 0) outermost.locals

/-- The kind of the value that an activation waits for. -/
def awaited (p : Packed) : BasicType := ((p.method.call? p.bci).map Call.result).getD .illegal

/-- Lay out activations with known sizes, which are listed innermost first. -/
def layout (caller : Frame) (frame : Frame) (f : CompiledFrame) (saved : Option Ref) (mode : Mode)
    (innermost : Packed) (outermost : Method) (sizes : List Nat) : Checked Layout := do
  let adjustment ← checkedMul (callerExtension caller outermost) wordBytes
  let total ← checkedAdd adjustment (← sizes.foldrM checkedAdd 0)
  return {
    replaced := frame.words * wordBytes
    callerAdjustment := adjustment
    callerParameters := keptParameters caller outermost
    sizes := sizes.reverse
    pcs := caller.pc :: List.replicate sizes.length interpreterEntry
    registers := f.registers
    returnType := awaited innermost
    mode, total
    savedResult := saved }

/-- The words of arguments for a call that is forced to be executed again. -/
def extraWords (t : Thread) : Nat := if t.forcesReexecution then t.preservedWords else 0

/-- Plan the replacement of the newest compiled frame. -/
def fetch (s : Restore.Supply) (m : Memory) (t : Thread) (mode : Mode) :
    Checked (Layout × Memory × Thread) := do
  let t := t.enterHandler
  let (frame, caller) ← target t
  let (f, record) ← frame.record
  let scopes ← f.scopes record
  let saved := savedResult t mode f record
  let got ← recover s m t mode frame.id f record
  let thrown ← rethrown f got.table record (scopes.headD default)
  let packed ← scopes.mapM (Packed.ofScope f got.table)
  let (store, t, packed) ← abandon got.failed got.memory.store got.thread packed
  guarantee t.plan.isNone (.planPending t.name)
  let sizes ← Packed.sizes (extraWords t) packed
  let (t, mode) ← raise t mode thrown
  let l ← layout caller frame f saved mode (packed.headD default)
    (packed.getLastD default).method sizes
  let plan : Plan :=
    { owner := t.id, deoptee := frame.id, pc := frame.logicalPc, sp := frame.sp
      callerSp := frame.callerSp, frames := packed, failed := got.failed, layout := l }
  return (l, { got.memory with store }, { t with plan := some plan })

end Bailout.Unwind
