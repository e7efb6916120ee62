import Bailout.Trap.Reason

/-!
# Configuration

The limits at which traps escalate and the switches of what is restored when compiled code is left.
A configuration is accepted if each limit is positive and traps are profiled only with room to
record them.
-/

namespace Bailout

/-- Trap limits and elimination switches. -/
structure Config where
  /-- Traps at one bytecode for one reason before the code is invalidated. -/
  perBytecodeTrapLimit : Nat := 4
  /-- Traps in one method for one reason before the code is invalidated wherever they come from. -/
  perMethodTrapLimit : Nat := 100
  /-- The same for speculative reasons. -/
  perMethodSpecTrapLimit : Nat := 5000
  /-- Recompilations caused by one bytecode before its method is given up. -/
  perBytecodeRecompilationCutoff : Nat := 200
  /-- Invalidations of one method's code before the method is given up. -/
  perMethodRecompilationCutoff : Nat := 400
  /-- Whether traps create and update profiles. -/
  profileTraps : Bool := true
  /-- Whether eliminated objects are allocated again. -/
  eliminateAllocations : Bool := true
  /-- Whether eliminated monitors are entered again. -/
  eliminateLocks : Bool := true
  /-- Whether eliminated boxes come from the box caches. -/
  eliminateAutoBox : Bool := true
  /-- Whether unpacked frames are checked against their plan. -/
  verifyStack : Bool := false
  /-- How many bytecodes of one method can have a trap record. -/
  extraDataSlots : Nat := 32
  deriving DecidableEq, Repr, Inhabited

/-- Why a configuration was refused. -/
inductive ConfigError where
  /-- The document could not be read. -/
  | unreadable
  /-- The document is malformed, or an entry of it has no place or the wrong type. -/
  | malformed
  /-- A value is out of range. -/
  | range (name : String) (value : Nat) (reason : String)
  /-- An override is not a number. -/
  | override (key value : String)
  deriving DecidableEq, Repr, Inhabited

/-- The refusal in words; a malformed or unreadable document has none of its own. -/
def ConfigError.message? : ConfigError → Option String
  | unreadable => none
  | malformed => none
  | range n v r => some s!"config value `{n}` = {v} is out of range: {r}"
  | override k v => some s!"environment override {k}={v} is not a valid value"

namespace Config

/-- Small limits, so that short runs reach every escalation. -/
def small : Config where
  perBytecodeTrapLimit := 2
  perMethodTrapLimit := 8
  perMethodSpecTrapLimit := 16
  perBytecodeRecompilationCutoff := 3
  perMethodRecompilationCutoff := 6
  verifyStack := true
  extraDataSlots := 8

/-- A numeric setting. -/
inductive Limit where
  | perBytecodeTrap
  | perMethodTrap
  | perMethodSpecTrap
  | perBytecodeRecompilation
  | perMethodRecompilation
  | extraDataSlots
  deriving DecidableEq, Repr, Inhabited

/-- A switch. -/
inductive Switch where
  | profileTraps
  | eliminateAllocations
  | eliminateLocks
  | eliminateAutoBox
  | verifyStack
  deriving DecidableEq, Repr, Inhabited

namespace Limit

/-- Every numeric setting, in the order in which overrides are read and ranges are checked. -/
def all : List Limit :=
  [perBytecodeTrap, perMethodTrap, perMethodSpecTrap, perBytecodeRecompilation,
    perMethodRecompilation, extraDataSlots]

def key : Limit → String
  | perBytecodeTrap => "per_bytecode_trap_limit"
  | perMethodTrap => "per_method_trap_limit"
  | perMethodSpecTrap => "per_method_spec_trap_limit"
  | perBytecodeRecompilation => "per_bytecode_recompilation_cutoff"
  | perMethodRecompilation => "per_method_recompilation_cutoff"
  | extraDataSlots => "extra_data_slots"

def get (l : Limit) (c : Config) : Nat :=
  match l with
  | perBytecodeTrap => c.perBytecodeTrapLimit
  | perMethodTrap => c.perMethodTrapLimit
  | perMethodSpecTrap => c.perMethodSpecTrapLimit
  | perBytecodeRecompilation => c.perBytecodeRecompilationCutoff
  | perMethodRecompilation => c.perMethodRecompilationCutoff
  | extraDataSlots => c.extraDataSlots

def set (l : Limit) (n : Nat) (c : Config) : Config :=
  match l with
  | perBytecodeTrap => { c with perBytecodeTrapLimit := n }
  | perMethodTrap => { c with perMethodTrapLimit := n }
  | perMethodSpecTrap => { c with perMethodSpecTrapLimit := n }
  | perBytecodeRecompilation => { c with perBytecodeRecompilationCutoff := n }
  | perMethodRecompilation => { c with perMethodRecompilationCutoff := n }
  | extraDataSlots => { c with extraDataSlots := n }

/-- Why zero is refused for a numeric setting, if the configuration refuses it. -/
def zeroRefused? (l : Limit) (c : Config) : Option String :=
  match l with
  | extraDataSlots => if c.profileTraps then some "trap profiling needs at least one slot" else none
  | _ => some "must be positive"

end Limit

namespace Switch

/-- Every switch, in the order in which overrides are read. -/
def all : List Switch :=
  [profileTraps, eliminateAllocations, eliminateLocks, eliminateAutoBox, verifyStack]

def key : Switch → String
  | profileTraps => "profile_traps"
  | eliminateAllocations => "eliminate_allocations"
  | eliminateLocks => "eliminate_locks"
  | eliminateAutoBox => "eliminate_auto_box"
  | verifyStack => "verify_stack"

def get (s : Switch) (c : Config) : Bool :=
  match s with
  | profileTraps => c.profileTraps
  | eliminateAllocations => c.eliminateAllocations
  | eliminateLocks => c.eliminateLocks
  | eliminateAutoBox => c.eliminateAutoBox
  | verifyStack => c.verifyStack

def set (s : Switch) (b : Bool) (c : Config) : Config :=
  match s with
  | profileTraps => { c with profileTraps := b }
  | eliminateAllocations => { c with eliminateAllocations := b }
  | eliminateLocks => { c with eliminateLocks := b }
  | eliminateAutoBox => { c with eliminateAutoBox := b }
  | verifyStack => { c with verifyStack := b }

end Switch

/-- Refuse the first numeric setting that is zero and must not be. -/
def validateFrom (c : Config) : List Limit → Except ConfigError Config
  | [] => .ok c
  | l :: ls =>
    match l.get c, l.zeroRefused? c with
    | 0, some reason => .error (.range l.key 0 reason)
    | _, _ => c.validateFrom ls

/-- Accept a configuration whose limits are positive. -/
def validate (c : Config) : Except ConfigError Config := c.validateFrom Limit.all

def text (c : Config) : String :=
  s!"DeoptConfig \x7b per_bytecode_trap_limit: {c.perBytecodeTrapLimit}, " ++
    s!"per_method_trap_limit: {c.perMethodTrapLimit}, " ++
    s!"per_method_spec_trap_limit: {c.perMethodSpecTrapLimit}, " ++
    s!"per_bytecode_recompilation_cutoff: {c.perBytecodeRecompilationCutoff}, " ++
    s!"per_method_recompilation_cutoff: {c.perMethodRecompilationCutoff}, " ++
    s!"profile_traps: {c.profileTraps}, eliminate_allocations: {c.eliminateAllocations}, " ++
    s!"eliminate_locks: {c.eliminateLocks}, eliminate_auto_box: {c.eliminateAutoBox}, " ++
    s!"verify_stack: {c.verifyStack}, extra_data_slots: {c.extraDataSlots} \x7d"

/-- How many traps for a reason one method may take. -/
def methodLimit (c : Config) (r : Reason) : Nat :=
  if r.speculative then c.perMethodSpecTrapLimit else c.perMethodTrapLimit

end Config
end Bailout
