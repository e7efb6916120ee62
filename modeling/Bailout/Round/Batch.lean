import Bailout.Compiled.Cache
import Bailout.Round.Generation

/-!
# Batches

A batch collects marks on code that is to be deoptimized together. It knows the generation that has
to be committed before its marks have taken effect.
-/

namespace Bailout

/-- Marks that are committed together. -/
structure Batch where
  /-- The generation that has to be committed. -/
  required : Nat
  deriving DecidableEq, Repr, Inhabited

namespace Batch

/-- A batch without marks. -/
def start (g : Generations) : Batch := ⟨g.committed⟩

def await (b : Batch) (generation : Nat) : Batch := ⟨max b.required generation⟩

/-- Mark a region, if it can be entered. A region that is marked already keeps its mark. -/
def mark (b : Batch) (g : Generations) (c : CodeCache) (ref : Nat) (counts : Bool) :
    Checked (Batch × CodeCache) :=
  let s := c.state ref
  if !s.inUse then return (b, c)
  else if s.mark.isPending then return (b.await s.generation, c)
  else do
    guarantee (g.committed < g.active) (.generationNotAhead g.active g.committed)
    return (⟨g.active⟩, c.modify ref fun s => s.withMark counts g.active)

/-- Wait for the mark of a region that was marked elsewhere. -/
def dependOn (b : Batch) (c : CodeCache) (ref : Nat) : Batch := b.await (c.state ref).generation

/-- Give a batch up, which is a mistake. -/
def drop (_ : Batch) : Checked Unit := .error (.assertion .scopeDropped)

end Batch
end Bailout
