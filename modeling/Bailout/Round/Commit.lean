import Bailout.Compiled.Program
import Bailout.Round.Batch
import Bailout.Round.Patch
import Bailout.Stack.Roster

/-!
# Committing

A batch is committed by a round: marked regions are retired one by one, and then every registered
thread is visited and its frames of condemned code are patched. A batch whose generation was
committed by another round needs none of its own. At a safepoint the round runs at once and takes
everything that was marked so far.
-/

namespace Bailout

/-- All that a round works on. -/
structure Rounds where
  generations : Generations := {}
  program : Program := {}
  roster : Roster := {}
  histogram : Histogram := {}
  /-- How many rounds there were. -/
  count : Nat := 0
  deriving DecidableEq, Repr, Inhabited

namespace Rounds

/-- Patch the frames of one thread whose code must not go on. -/
def visit (c : CodeCache) (h : Histogram) (t : Thread) : Checked (Histogram × Thread) := do
  let (h, stack) ← c.patchStack h t.stack
  return (h, { t with stack })

/-- Retire the regions that were marked in a generation or earlier, and patch the frames of all
registered threads. -/
def deoptimizeMarked (r : Rounds) (cutoff generation : Nat) : Checked Rounds := do
  let (_, program) ← r.program.retireMarked generation cutoff
  let (histogram, roster) ← r.roster.visitThreads (visit program.code) r.histogram
  return { r with program, roster, histogram, count := r.count + 1 }

/-- Commit a batch. Before the runtime has started there is nothing to be done. -/
def commit (r : Rounds) (cutoff : Nat) (b : Batch) : Checked Rounds :=
  if !r.roster.initialized then return r
  else if r.roster.atSafepoint then do
    let (target, generations) ← r.generations.advance
    { r with generations }.deoptimizeMarked cutoff target
  else do
    match ← r.generations.claim b.required with
    | (.satisfied, _) => return r
    | (.busy, _) => .error .blocked
    | (.claimed target, generations) =>
      let r ← { r with generations }.deoptimizeMarked cutoff target
      let generations ← r.generations.finish target
      guarantee (b.required ≤ generations.committed)
        (.generationBelow generations.committed b.required)
      return { r with generations }

end Rounds
end Bailout
