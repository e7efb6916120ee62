import Bailout.Table
import Bailout.Trap.State

/-!
# Trap history

What one method's profile keeps about traps: a count per reason, a record per bytecode while there
is room, which exception handlers were entered, and two counters of recompilations. A trap is
judged by a *snapshot* of the history: `History.query` records the trap and returns the snapshot,
`History.peek` only looks.
-/

namespace Bailout

/-- What is recorded at one bytecode. -/
structure Record where
  state : TrapState := {}
  exceptionSeen : Bool := false
  deriving DecidableEq, Repr, Inhabited

/-- The trap history of one method. -/
structure History where
  /-- How often each reason trapped; a count stays at its top. -/
  counts : Vector Nat Reason.card := Vector.replicate _ 0
  /-- The records, by bytecode index. -/
  records : Table Nat Record := {}
  /-- How many records there may be. -/
  capacity : Nat
  /-- The bytecodes that start exception handlers, and whether each was entered. -/
  handlers : Table Nat Bool := {}
  overflowRecompiles : Nat := 0
  tenureTraps : Nat := 0
  deriving DecidableEq, Repr

/-- What the history says about one trap. -/
structure Snapshot where
  /-- Traps for the reason in the method, this one included if it was counted. -/
  count : Nat := 0
  /-- The bytecode may have trapped for the reason before. -/
  maybePriorTrap : Bool := false
  /-- The bytecode may have caused a recompilation before. -/
  maybePriorRecompile : Bool := false
  /-- The bytecode has a record. -/
  hasRecord : Bool := false
  deriving DecidableEq, Repr, Inhabited

namespace History

instance : Inhabited History := ⟨{ capacity := 0 }⟩

/-- The history of a method that never trapped. -/
def empty (capacity : Nat) : History := { capacity }

def count (h : History) (r : Reason) : Nat := getElem h.counts r.code r.code_lt

def countTrap (h : History) (r : Reason) : History :=
  { h with counts := h.counts.set r.code (saturatingNext (h.count r)) r.code_lt }

/-- How many traps there were for all reasons together. -/
def total (h : History) : Nat := h.counts.foldl (· + ·) 0

def record? (h : History) (bci : Nat) : Option Record := h.records.get? bci

/-- Whether a bytecode has a record or can get one. -/
def hasRoom (h : History) (bci : Nat) : Bool :=
  h.records.contains bci || h.records.size < h.capacity

/-- The record of a bytecode, or the one it would get. -/
def record (h : History) (bci : Nat) : Record := (h.record? bci).getD {}

/-- Change the record of a bytecode, made if there is room. -/
def update? (h : History) (bci : Nat) (f : Record → Record) : Option History :=
  if h.hasRoom bci then some { h with records := h.records.set bci (f (h.record bci)) } else none

/-- Note a bytecode that starts an exception handler. -/
def registerHandler (h : History) (bci : Nat) : History :=
  if h.handlers.contains bci then h else { h with handlers := h.handlers.set bci false }

/-- Note that the handler at a bytecode was entered, if one starts there. -/
def enterHandler? (h : History) (bci : Nat) : Option History :=
  if h.handlers.contains bci then some { h with handlers := h.handlers.set bci true } else none

/-- Whether the handler at a bytecode was entered. -/
def handlerEntered (h : History) (bci : Nat) : Bool := (h.handlers.get? bci).getD false

/-- Count a recompilation that a bytecode caused again. -/
def countOverflow (h : History) : History :=
  { h with overflowRecompiles := saturatingNext h.overflowRecompiles }

def countTenure (h : History) : History :=
  { h with tenureTraps := saturatingNext h.tenureTraps }

/-! ### Snapshots -/

def estimate (count prior decompiles : Nat) : Snapshot :=
  { count, maybePriorTrap := prior ≠ 0, maybePriorRecompile := decompiles ≠ 0 }

/-- Sharpen a snapshot by what a record says about a reason. -/
def Snapshot.sharpen (s : Snapshot) (rec : Record) (r : Reason) : Snapshot :=
  { s with
    maybePriorTrap := s.maybePriorTrap && (rec.state.has r).toBool
    maybePriorRecompile := s.maybePriorRecompile && rec.state.recompiled
    hasRecord := true }

/-- Record a trap at a bytecode and return what was known before. A trap that is not counted leaves
the method's count alone and is judged by nothing but its record. -/
def query (h : History) (decompiles bci : Nat) (r : Reason) (counted : Bool) : History × Snapshot :=
  let prior := h.count r
  let h := if counted then h.countTrap r else h
  let s := if counted then estimate (h.count r) prior decompiles else {}
  match r.standIn? with
  | none => (h, s)
  | some q =>
    match h.update? bci (fun rec => { rec with state := rec.state.add q }) with
    | none => (h, s)
    | some next => (next, Snapshot.sharpen s (h.record bci) q)

/-- Look at the history for a trap that is not recorded. Without a record, a reason that would have
one counts as new at this bytecode. -/
def peek (h : History) (decompiles bci : Nat) (r : Reason) : Snapshot :=
  let s := estimate (h.count r) (h.count r) decompiles
  match r.standIn? with
  | none => s
  | some q =>
    match h.record? bci with
    | none => { s with maybePriorTrap := false, maybePriorRecompile := false }
    | some rec => Snapshot.sharpen s rec q

/-! ### Laws -/

theorem count_countTrap (h : History) (r s : Reason) :
    (h.countTrap r).count s = if s = r then saturatingNext (h.count r) else h.count s := by
  by_cases hs : s = r
  · subst hs
    simp [countTrap, count]
  · have hv : r.code ≠ s.code := fun e => hs (Reason.index_injective (Fin.ext e)).symm
    simp [countTrap, count, hs, Vector.getElem_set_ne _ _ hv]

end History

/-! ### Profiles -/

/-- The profile of one method: its trap history and how often its code was invalidated. -/
structure Profile where
  /-- The id of the method. -/
  method : Nat
  history : History
  decompiles : Nat := 0
  deriving DecidableEq, Repr, Inhabited

namespace Profile

/-- The profile of a method that never trapped. -/
def empty (method capacity : Nat) : Profile := { method, history := .empty capacity }

def countDecompile (p : Profile) : Checked Profile :=
  if p.decompiles + 1 < counterLimit then .ok { p with decompiles := p.decompiles + 1 }
  else .error .overflow

/-- Record a trap that the interpreter took; it does not count against the method. -/
def recordInterpreted (p : Profile) (bci : Nat) (r : Reason) : Profile :=
  { p with history := (p.history.query p.decompiles bci r false).1 }

end Profile
end Bailout
