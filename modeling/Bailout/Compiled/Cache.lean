import Bailout.Compiled.Region
import Bailout.Table

/-!
# The code cache

Hands out addresses for compiled code and keeps every region that was ever installed, together with
its state. A region can be looked up as long as neither a removal nor a later region of the same
compilation id took it out of the cache; frames of it may remain after that.
-/

namespace Bailout

/-- Compiled code and where it lies. -/
structure CodeCache where
  /-- Every region ever installed, by position. -/
  regions : Array (Region × RegionState) := #[]
  /-- The positions of the regions in the cache, by compilation id. -/
  installed : Table Nat Nat := {}
  /-- The next address to be handed out. -/
  nextAddress : Nat := 0x100000
  /-- How many regions were installed. -/
  installs : Nat := 0
  /-- How many regions were made not entrant. -/
  invalidations : Nat := 0
  /-- How many regions were deoptimized. -/
  deoptimizations : Nat := 0
  deriving DecidableEq, Repr, Inhabited

namespace CodeCache

/-- Code starts and ends on multiples of this. -/
def alignment : Nat := 16

/-- The bytes set aside for code of a size; even empty code gets some. -/
def alignedSize (size : Nat) : Nat := max alignment ((size + 15) / 16 * 16)

/-- Set aside addresses for code of a size. -/
def reserve (c : CodeCache) (size : Nat) : Checked (Nat × CodeCache) :=
  if alignedSize size < wordLimit then
    .ok (c.nextAddress, { c with nextAddress := (c.nextAddress + alignedSize size) % wordLimit })
  else .error .overflow

def region (c : CodeCache) (ref : Nat) : Region := (c.regions.getD ref default).1

def state (c : CodeCache) (ref : Nat) : RegionState := (c.regions.getD ref default).2

def modify (c : CodeCache) (ref : Nat) (f : RegionState → RegionState) : CodeCache :=
  { c with regions := c.regions.modify ref fun e => (e.1, f e.2) }

/-- Install a region; its position is the next free one. -/
def install (c : CodeCache) (r : Region) : CodeCache :=
  { c with
    regions := c.regions.push ({ r with ref := c.regions.size }, {})
    installed := c.installed.set r.compileId c.regions.size
    installs := c.installs + 1 }

/-- Install new code and say at which position. Addresses are set aside for it unless it says where
it starts. -/
def add (c : CodeCache) (compileId : Nat) (method : Method) (size : Nat) (start : Option Nat)
    (handler : Option Nat) (frameWords : Nat) (seesInjected : Bool) (debug : DebugInfo) :
    Checked (Nat × CodeCache) := do
  let (start, c) ← match start with
    | some a => pure (a, c)
    | none => c.reserve size
  let handlerOffset ← Region.handlerOffsetOf size handler
  return (c.regions.size, c.install {
    ref := c.regions.size, compileId, method, start, size, handlerOffset, frameWords
    seesInjected, debug })

/-- The position of the region with a compilation id. -/
def get? (c : CodeCache) (compileId : Nat) : Option Nat := c.installed.get? compileId

/-- Take the region with a compilation id out of the cache. -/
def remove (c : CodeCache) (compileId : Nat) : CodeCache :=
  { c with installed := c.installed.erase compileId }

/-- The first of some regions that contains an address. -/
def findIn (c : CodeCache) (pc : Nat) : List Nat → Checked (Option Nat)
  | [] => return none
  | r :: rs => do
    if ← (c.region r).contains pc then return some r else c.findIn pc rs

def findByPc (c : CodeCache) (pc : Nat) : Checked (Option Nat) := c.findIn pc c.installed.values

/-- The installed regions of the methods with an id. -/
def regionsFor (c : CodeCache) (method : Nat) : List Nat :=
  c.installed.values.filter fun r => (c.region r).method.id = method

/-- Whether a region has a pending mark of a generation or an earlier one. -/
def isMarkedUpTo (c : CodeCache) (generation ref : Nat) : Bool :=
  (c.state ref).pendingGeneration?.any (· ≤ generation)

/-- The installed regions with a pending mark of a generation or an earlier one. -/
def markedRegions (c : CodeCache) (generation : Nat) : List Nat :=
  c.installed.values.filter (c.isMarkedUpTo generation)

/-- Forbid entering a region, and say whether that was news. -/
def close (c : CodeCache) (ref : Nat) : Bool × CodeCache :=
  if (c.state ref).inUse then (true, c.modify ref fun s => { s with inUse := false })
  else (false, c)

/-! ### Laws -/

theorem size_modify (c : CodeCache) (ref : Nat) (f : RegionState → RegionState) :
    (c.modify ref f).regions.size = c.regions.size := by
  simp [modify]

theorem state_modify_self (c : CodeCache) {ref : Nat} (f : RegionState → RegionState)
    (h : ref < c.regions.size) : (c.modify ref f).state ref = f (c.state ref) := by
  simp [modify, state, Array.getElem_modify, h]

theorem state_modify_of_ne (c : CodeCache) {ref q : Nat} (f : RegionState → RegionState)
    (h : q ≠ ref) : (c.modify ref f).state q = c.state q := by
  simp [modify, state, Array.getElem?_modify, Ne.symm h]

/-- What a region is never changes. -/
theorem region_modify (c : CodeCache) (ref q : Nat) (f : RegionState → RegionState) :
    (c.modify ref f).region q = c.region q := by
  by_cases h : ref = q
  · subst h
    by_cases hr : ref < c.regions.size
    · simp [modify, region, Array.getElem_modify, hr]
    · simp [modify, region, hr]
  · simp [modify, region, Array.getElem?_modify, h]

end CodeCache
end Bailout
