import Bailout.Machine.Unwind
import Bailout.Trap.Request
import Bailout.Trap.Verdict

/-!
# Uncommon traps

Compiled code that cannot go on traps. The trap is counted and recorded in the profile of the method
that trapped, the verdict on it is carried out, and the frame is planned to be replaced. The method
that trapped may be inlined into the one that the code belongs to.
-/

namespace Bailout

/-- Where a trap fired. -/
structure Site where
  region : Region
  /-- The activation that trapped. -/
  scope : Scope
  /-- The methods of all activations there, innermost first. -/
  methods : List Method
  deriving DecidableEq, Repr, Inhabited

namespace Site

def find (t : Thread) : Checked Site :=
  match t.dropStubs.stack with
  | [] => fatal (.trapWithoutFrame t.name)
  | f :: _ => do
    let (c, record) ← f.record
    match record.scopes with
    | [] => fatal (.trapWithoutScope record.offset)
    | s :: _ => return { region := c.region, scope := s, methods := record.scopes.map Scope.method }

def trapped (s : Site) : Nat := s.scope.method.ref

/-- The position of the method that the code belongs to. -/
def compiled (s : Site) : Nat := s.region.method.ref

def opcode? (s : Site) : Option Opcode :=
  (s.scope.method.instruction? s.scope.bci).map Instruction.opcode

end Site

namespace MethodState

/-- Resolve the class that a trap could not find. The interpreter tries again if that fails. -/
def resolveFor (s : MethodState) (classes : ClassTable) (q : Request) : MethodState :=
  match q.classIndex? with
  | none => s
  | some i =>
    if s.pool.isResolved i then s
    else match s.pool.resolve classes i with
      | .ok (_, pool) => { s with pool }
      | .error _ => s

/-- Give the method a profile, if traps are profiled. -/
def profiled (s : MethodState) (c : Config) : MethodState :=
  if c.profileTraps then s.ensureProfile c.extraDataSlots else s

/-- Whether a trap is recorded in the profile. -/
def records (r : Reason) (a : Action) : Bool := r ≠ .tenured && a ≠ .leave

/-- Record a trap and return what was known before. A trap that asks for nothing is only looked up,
and code that grew too old has no history. -/
def consult (s : MethodState) (bci : Nat) (r : Reason) (a : Action) :
    Option Snapshot × MethodState :=
  match s.profile with
  | none => (none, s)
  | some p =>
    if records r a then
      let (h, snapshot) := p.history.query p.decompiles bci r true
      (some snapshot, { s with profile := some { p with history := h } })
    else if r ≠ .tenured then (some (p.history.peek p.decompiles bci r), s)
    else (none, s)

/-- Note in the profile that a trap invalidated code. -/
def noteInvalidation (s : MethodState) (bci : Nat) (r : Reason) (a : Action) : MethodState :=
  s.mapHistory fun h =>
    let h :=
      if records r a then
        (h.update? bci fun rec => { rec with state := rec.state.setRecompiled true }).getD h
      else h
    if r = .tenured then h.countTenure else h

def recordInterpreted (s : MethodState) (c : Config) (bci : Nat) (r : Reason) : MethodState :=
  (s.profiled c).mapProfile (·.recordInterpreted bci r)

end MethodState

namespace Machine

/-- Record a trap that the interpreter took in a method. -/
def recordInterpreted (m : Machine) (method bci : Nat) (r : Reason) : Machine :=
  m.modifyMethod method (·.recordInterpreted m.config bci r)

def reportTrap (m : Machine) (thread : Nat) (s : Site) (r : Reason) (a : Action) : Machine :=
  m.report {
    kind := .uncommonTrap, reason := r, action := a
    method := s.scope.method.qualifiedName, bci := some s.scope.bci
    compileId := some s.region.compileId, thread }

/-- Count a recompilation that a bytecode caused again. Beyond the cutoff the verdict gives the
compiled method up, if it is the one that trapped; a method that is inlined is given up by itself,
and the method around it keeps its chance. -/
def countRecompile (m : Machine) (s : Site) (v : Verdict) : Verdict × Machine :=
  if v.countRecompile && (m.program.method s.trapped).profile.isSome then
    let m := m.modifyMethod s.trapped (·.mapHistory History.countOverflow)
    let count := ((m.program.method s.trapped).profile.map fun p =>
      p.history.overflowRecompiles).getD 0
    if m.config.perBytecodeRecompilationCutoff < count then
      if s.trapped = s.compiled then ({ v with giveUp := true }, m)
      else (v, m.modifyMethod s.trapped MethodState.giveUp)
    else (v, m)
  else (v, m)

/-- Carry out what a verdict asks for beyond the invalidation. -/
def carryOut (m : Machine) (s : Site) (v : Verdict) : Checked Machine := do
  let m := if v.reprofile then { m with program := m.program.reprofile s.methods } else m
  if v.giveUp && !(m.program.method s.compiled).notCompilable then
    ensure v.invalidate .precondition
    return m.modifyMethod s.compiled MethodState.giveUp
  else return m

/-- Note that the handler of an exception was entered, if the trap stands at the start of one. -/
def noteHandler (m : Machine) (s : Site) : Machine :=
  m.modifyMethod s.trapped (·.mapHistory fun h => (h.enterHandler? s.scope.bci).getD h)

/-- Count and record a trap, and judge it. -/
def judge (m : Machine) (s : Site) (q : Request) : Verdict × Machine :=
  let m := m.modifyMethod s.trapped (·.resolveFor m.classes q)
  let m := { m with histogram := m.histogram.gather q.reason q.action s.opcode? }
  let m := m.modifyMethod s.trapped (·.profiled m.config)
  let (snapshot, state) := (m.program.method s.trapped).consult s.scope.bci q.reason q.action
  let m := m.modifyMethod s.trapped fun _ => state
  (Verdict.decide q.reason q.action snapshot m.config, m)

/-- Carry a verdict out. Code that another trap invalidated already is left alone, and so are the
profile and the method. -/
def execute (m : Machine) (thread : Nat) (s : Site) (q : Request) (v : Verdict) :
    Checked Machine := do
  let (late, m) ←
    if v.invalidate then do
      let (news, m) ← m.invalidate s.region.ref
      if news then
        pure (false,
          m.modifyMethod s.trapped (·.noteInvalidation s.scope.bci q.reason q.action))
      else pure (true, m)
    else pure (false, m)
  if late then return m.reportTrap thread s q.reason (v.action q.action)
  let (v, m) := m.countRecompile s v
  let m ← m.carryOut s v
  return (m.noteHandler s).reportTrap thread s q.reason (v.action q.action)

/-- Handle a trap on a thread, up to the plan for its frame. -/
def handleTrap (m : Machine) (t : Nat) (q : Request) : Checked Machine := do
  let s ← Site.find (m.thread t)
  let (v, m) := m.judge s q
  m.execute (m.thread t).id s q v

/-- Handle a trap on a thread, and plan the replacement of the frame that trapped. -/
def uncommonTrap (m : Machine) (t : Nat) (q : Request) : Checked (Layout × Machine) := do
  (← m.handleTrap t q).fetch t .uncommonTrap

end Machine
end Bailout
