import Bailout.Activation.Logical

/-!
# Views of a compiled frame

What a compiled frame looks like with some objects restored, one view for each activation that is
inlined into it.
-/

namespace Bailout

/-- The values of an activation. -/
structure View where
  scope : Scope
  locals : List Word
  expressions : List Word
  monitors : List Guard
  deriving DecidableEq, Repr, Inhabited

namespace CompiledFrame

/-- The values of one activation. -/
def view (f : CompiledFrame) (t : Restored) (s : Scope) : Checked View := do
  let locals ← f.resolveAll t s.locals
  let expressions ← f.resolveAll t s.expressions
  return { scope := s, locals, expressions, monitors := ← f.guards t s }

/-- The values of every activation, innermost first. -/
def views (f : CompiledFrame) (t : Restored) (r : DebugRecord) : Checked (List View) := do
  (← f.scopes r).mapM (f.view t)

end CompiledFrame
end Bailout
