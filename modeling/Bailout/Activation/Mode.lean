/-!
# Modes

How the interpreter goes on once compiled code was left.
-/

namespace Bailout

/-- How execution goes on after a deoptimization. -/
inductive Mode where
  /-- A patched frame returned into its handler. -/
  | plain
  /-- An exception is on its way into the frame. -/
  | exception
  /-- Compiled code trapped. -/
  | uncommonTrap
  /-- The newest frame executes its bytecode again. -/
  | reexecute
  /-- Nothing is unwound: objects are restored for an inspecting thread. -/
  | inspect
  deriving DecidableEq, Repr, Inhabited

namespace Mode

def all : List Mode := [plain, exception, uncommonTrap, reexecute, inspect]

def name : Mode → String
  | plain => "plain"
  | exception => "exception"
  | uncommonTrap => "uncommon_trap"
  | reexecute => "reexecute"
  | inspect => "none"

def title : Mode → String
  | plain => "Plain"
  | exception => "Exception"
  | uncommonTrap => "UncommonTrap"
  | reexecute => "Reexecute"
  | inspect => "None"

/-- The mode with a given name. -/
def ofName? (s : String) : Option Mode := all.find? (·.name == s)

end Mode
end Bailout
