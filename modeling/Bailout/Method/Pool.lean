import Bailout.Object.Klass
import Bailout.Table

/-!
# Constant pools

The classes that the code of a method names. An entry that names an unresolved class turns into the
class itself once the class is found; a failed resolution leaves the pool as it was.
-/

namespace Bailout

/-- The classes that can be found by name. -/
abbrev ClassTable := Table String Klass

/-- Make a class known under its name. -/
def ClassTable.define (t : ClassTable) (k : Klass) : ClassTable := t.set k.name k

/-- An entry of a constant pool. -/
inductive PoolEntry where
  | unresolved (name : String)
  | resolved (klass : Klass)
  /-- Something that is no class. -/
  | other
  deriving DecidableEq, Repr, Inhabited

/-- Why a class could not be resolved. -/
inductive ResolutionError where
  | noSuchClass (name : String)
  | notAClass (index : Nat)
  deriving DecidableEq, Repr, Inhabited

def ResolutionError.message : ResolutionError → String
  | noSuchClass n => s!"class `{n}` could not be resolved: no such class"
  | notAClass i => s!"class `#{i}` could not be resolved: not a class entry"

/-- The constant pool of a method. -/
structure Pool where
  entries : List PoolEntry := []
  deriving DecidableEq, Repr, Inhabited

namespace Pool

/-- Whether the entry at an index is a class that was resolved. -/
def isResolved (p : Pool) (i : Nat) : Bool :=
  match p.entries[i]? with
  | some (.resolved _) => true
  | _ => false

/-- The class at an index, resolved now if it was not before. -/
def resolve (p : Pool) (t : ClassTable) (i : Nat) : Except ResolutionError (Klass × Pool) :=
  match p.entries[i]? with
  | some (.resolved k) => .ok (k, p)
  | some (.unresolved n) =>
    match t.get? n with
    | some k => .ok (k, ⟨p.entries.set i (.resolved k)⟩)
    | none => .error (.noSuchClass n)
  | _ => .error (.notAClass i)

end Pool
end Bailout
