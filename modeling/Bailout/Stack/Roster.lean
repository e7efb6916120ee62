import Bailout.Stack.Thread

/-!
# The roster of threads

Every thread that was ever started, and which of them are registered. All registered threads can be
visited one after the other: by a handshake, or at a safepoint, which one party holds at a time. A
handshake is refused while a safepoint is held.
-/

namespace Bailout

/-- The threads. -/
structure Roster where
  /-- Every thread there ever was, by position. -/
  threads : Array Thread := #[]
  /-- The positions of the registered threads. -/
  registered : List Nat := []
  /-- The runtime has started. -/
  initialized : Bool := false
  /-- A safepoint is held. -/
  atSafepoint : Bool := false
  handshakes : Nat := 0
  safepoints : Nat := 0
  /-- How many threads were visited by handshakes and at safepoints. -/
  visits : Nat := 0
  deriving DecidableEq, Repr, Inhabited

namespace Roster

def thread (r : Roster) (ref : Nat) : Thread := r.threads.getD ref default

def set (r : Roster) (ref : Nat) (t : Thread) : Roster :=
  { r with threads := r.threads.setIfInBounds ref t }

def register (r : Roster) (id : Nat) (name : String) : Roster :=
  { r with
    threads := r.threads.push { id, name }
    registered := r.registered ++ [r.threads.size] }

/-- Take out the element at an index of a list; the last element takes its place. -/
def swapRemove {α : Type} (l : List α) (i : Nat) : List α :=
  match l.getLast? with
  | none => l
  | some last => (l.set i last).dropLast

/-- The index among the registered threads of the first with an id. -/
def index? (r : Roster) (id : Nat) : Option Nat :=
  r.registered.findIdx? fun ref => (r.thread ref).id = id

/-- Take the first registered thread with an id off the register, and say whether there was one. -/
def unregister (r : Roster) (id : Nat) : Bool × Roster :=
  match r.index? id with
  | some i => (true, { r with registered := swapRemove r.registered i })
  | none => (false, r)

def list (r : Roster) : List Thread := r.registered.map r.thread

/-- The first registered thread with an id. -/
def get? (r : Roster) (id : Nat) : Option Thread := r.list.find? (·.id = id)

def beginSafepoint (r : Roster) : Checked Roster :=
  if r.atSafepoint then .error .blocked
  else return { r with atSafepoint := true, safepoints := r.safepoints + 1 }

def endSafepoint (r : Roster) : Roster := { r with atSafepoint := false }

/-- Visit one thread. -/
def visit {σ : Type} (f : σ → Thread → Checked (σ × Thread)) (s : σ × Roster) (ref : Nat) :
    Checked (σ × Roster) := do
  let (a, t) ← f s.1 (s.2.thread ref)
  return (a, { s.2.set ref t with visits := s.2.visits + 1 })

/-- Visit the registered threads in order. -/
def visitAll {σ : Type} (f : σ → Thread → Checked (σ × Thread)) (a : σ) (r : Roster) :
    Checked (σ × Roster) :=
  r.registered.foldlM (visit f) (a, r)

/-- Visit the registered threads in a handshake. -/
def handshake {σ : Type} (f : σ → Thread → Checked (σ × Thread)) (a : σ) (r : Roster) :
    Checked (σ × Roster) := do
  guarantee (!r.atSafepoint) .handshakeAtSafepoint
  visitAll f a { r with handshakes := r.handshakes + 1 }

/-- Visit the registered threads at the safepoint that is held. -/
def walk {σ : Type} (f : σ → Thread → Checked (σ × Thread)) (a : σ) (r : Roster) :
    Checked (σ × Roster) := do
  guarantee r.atSafepoint .walkOutsideSafepoint
  visitAll f a r

/-- Visit the registered threads in whichever way is open. -/
def visitThreads {σ : Type} (f : σ → Thread → Checked (σ × Thread)) (a : σ) (r : Roster) :
    Checked (σ × Roster) :=
  if r.atSafepoint then r.walk f a else r.handshake f a

/-! ### Laws -/

theorem thread_set_self (r : Roster) {ref : Nat} (t : Thread) (h : ref < r.threads.size) :
    (r.set ref t).thread ref = t := by
  simp [set, thread, h]

theorem thread_set_of_ne (r : Roster) {ref q : Nat} (t : Thread) (h : q ≠ ref) :
    (r.set ref t).thread q = r.thread q := by
  simp [set, thread, Ne.symm h]

end Roster
end Bailout
