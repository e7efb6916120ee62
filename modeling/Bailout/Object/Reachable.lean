import Bailout.Object.Store

/-!
# Reachable objects

The objects that can be reached from a list of references, breadth first and each once.
-/

namespace Bailout.Store

/-- The references of a list that were not seen before, each once and in order. -/
def unseen (seen : List Ref) : List Ref → List Ref
  | [] => []
  | r :: rs => if r ∈ seen then unseen seen rs else r :: unseen (r :: seen) rs

/-- Add what can be reached in one step, `fuel` times or until nothing is new. -/
def reachFrom (s : Store) : Nat → List Ref → List Ref → List Ref
  | 0, seen, _ => seen
  | fuel + 1, seen, frontier =>
    match unseen seen frontier with
    | [] => seen
    | fresh => s.reachFrom fuel (seen ++ fresh) (fresh.flatMap fun r => (s.body r).targets)

/-- The objects reachable from the roots. Each round but the last finds an object, so as many rounds
as there are objects are enough. -/
def reachable (s : Store) (roots : List Ref) : List Ref :=
  s.reachFrom (s.objects.size + 1) [] roots

end Bailout.Store
