/-!
# Actions

What the compiler asks to be done with its code when a trap fires. The trap policy can only
strengthen the request.
-/

namespace Bailout

/-- What to do with compiled code after a trap. -/
inductive Action where
  /-- Interpret and leave the code as it is. -/
  | leave
  /-- Recompile the method if its counters warrant it. -/
  | maybeRecompile
  /-- Invalidate the code and profile again before recompiling. -/
  | reinterpret
  /-- Invalidate the code and recompile. -/
  | makeNotEntrant
  /-- Invalidate the code and never compile the method again. -/
  | makeNotCompilable
  deriving DecidableEq, Repr, Inhabited

namespace Action

/-- Every action, in the order of the codes. -/
def all : List Action := [leave, maybeRecompile, reinterpret, makeNotEntrant, makeNotCompilable]

abbrev card : Nat := 5

def index : Action → Fin card
  | leave => 0
  | maybeRecompile => 1
  | reinterpret => 2
  | makeNotEntrant => 3
  | makeNotCompilable => 4

def code (a : Action) : Nat := a.index.val

/-- The action with a given code. -/
def ofCode? (n : Nat) : Option Action := all[n]?

def name : Action → String
  | leave => "none"
  | maybeRecompile => "maybe_recompile"
  | reinterpret => "reinterpret"
  | makeNotEntrant => "make_not_entrant"
  | makeNotCompilable => "make_not_compilable"

/-- The action with a given diagnostic name. -/
def ofName? (s : String) : Option Action := all.find? (·.name == s)

/-! ### Laws -/

@[simp] theorem ofCode?_code (a : Action) : ofCode? a.code = some a := by
  cases a <;> rfl

theorem code_lt (a : Action) : a.code < card := a.index.isLt

theorem mem_all (a : Action) : a ∈ all := by
  cases a <;> decide

theorem index_inj {a b : Action} : a.index = b.index ↔ a = b := by
  refine ⟨fun h => ?_, congrArg _⟩
  have := congrArg (fun i : Fin card => ofCode? i.val) h
  simpa [code] using (ofCode?_code a).symm.trans (this.trans (ofCode?_code b))

end Action
end Bailout
