import Bailout.Object.Store

/-!
# Heaps

A heap hands out objects within a budget of bytes and a budget of allocations. It only keeps count:
the objects themselves go into the store. A heap numbers its objects from 1 in the order in which it
hands them out, and a request that it refuses changes nothing.
-/

namespace Bailout

/-- The budget of a heap and what was used of it. -/
structure Heap where
  /-- The most bytes that may be used. -/
  capacity : Nat := wordLimit - 1
  /-- The most objects that may be handed out. -/
  limit : Nat := wordLimit - 1
  used : Nat := 0
  allocations : Nat := 0
  deriving DecidableEq, Repr, Inhabited

/-- The refusal of a request. -/
structure HeapExhausted where
  klass : String
  bytes : Nat
  deriving DecidableEq, Repr, Inhabited

def HeapExhausted.message (e : HeapExhausted) : String :=
  s!"heap exhausted while allocating {e.klass} ({e.bytes} bytes)"

namespace Heap

/-- Use a number of bytes for one more object, if both budgets allow it. -/
def reserve? (h : Heap) (bytes : Nat) : Option Heap :=
  if h.allocations < h.limit ∧ h.used + bytes ≤ h.capacity then
    some { h with used := h.used + bytes, allocations := h.allocations + 1 }
  else none

end Heap

/-- A heap together with the store that its objects go to. -/
structure Memory where
  heap : Heap := {}
  store : Store := {}
  deriving DecidableEq, Repr, Inhabited

namespace Memory

/-- Hand out an object of a class; arrays have the given length. -/
def allocate (m : Memory) (k : Klass) (length : Nat) :
    Checked (Except HeapExhausted (Ref × Memory)) := do
  let bytes ← k.allocationBytes length
  match m.heap.reserve? bytes with
  | none => return .error ⟨k.name, bytes⟩
  | some heap =>
    let body ← Body.fresh k length
    let (r, store) := m.store.add { serial := heap.allocations, klass := k, body }
    return .ok (r, { heap, store })

def allocateInstance (m : Memory) (k : Klass) : Checked (Except HeapExhausted (Ref × Memory)) := do
  ensure k.isInstance .precondition
  m.allocate k 0

def allocateArray (m : Memory) (k : Klass) (length : Nat) :
    Checked (Except HeapExhausted (Ref × Memory)) := do
  ensure (!k.isInstance) .precondition
  m.allocate k length

end Memory
end Bailout
