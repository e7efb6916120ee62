import Bailout.Fault

/-!
# Generations

Requests to deoptimize code are numbered by generations. Code that is marked now carries the
*active* generation. A round of work claims the active generation and makes the next one active;
once the round has gone through all threads, its generation is *committed*. Only one round that was
claimed is under way at a time.
-/

namespace Bailout

/-- Where the generations stand. -/
structure Generations where
  /-- All code marked in this generation or earlier ones is deoptimized. -/
  committed : Nat := 0
  /-- The generation that marks get now. -/
  active : Nat := 1
  /-- A claimed round is under way. -/
  inFlight : Bool := false
  deriving DecidableEq, Repr, Inhabited

/-- What happens when a round is claimed. -/
inductive Claim where
  /-- The generation is committed already. -/
  | satisfied
  /-- Another round is under way. -/
  | busy
  /-- The round is to bring code of a generation, and earlier ones, to an end. -/
  | claimed (target : Nat)
  deriving DecidableEq, Repr, Inhabited

namespace Generations

/-- The generation after the active one. -/
def next (g : Generations) : Checked Nat := checkedAdd g.active 1

/-- Claim a round on behalf of a request for a generation. -/
def claim (g : Generations) (required : Nat) : Checked (Claim × Generations) :=
  if required ≤ g.committed then return (.satisfied, g)
  else if g.inFlight then return (.busy, g)
  else do
    let active ← g.next
    return (.claimed g.active, { g with active, inFlight := true })

/-- End a round that was claimed. -/
def finish (g : Generations) (target : Nat) : Checked Generations := do
  let committed := max g.committed target
  ensure (committed < g.active) .precondition
  return { g with committed, inFlight := false }

/-- Commit the active generation at once, while a safepoint is held. -/
def advance (g : Generations) : Checked (Nat × Generations) := do
  let active ← g.next
  return (g.active, { g with committed := g.active, active })

def text (g : Generations) : String :=
  s!"GenerationState \x7b committed: {g.committed}, active: {g.active}, " ++
    s!"in_flight: {g.inFlight} \x7d"

end Generations
end Bailout
