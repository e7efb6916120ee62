import Bailout.Method.Opcode
import Bailout.Text.Percent
import Bailout.Trap.Action
import Bailout.Trap.Reason

/-!
# Histogram

How often traps fired, by reason, action and bytecode operation. Each pair of a reason and an action
has four cells. A cell names one operation and counts its traps; a trap whose operation has no cell
takes the first empty one, and when there is none the last cell forgets its operation and counts
everything else. Traps are also counted per reason and in total.
-/

namespace Bailout

/-- A counter of traps at one operation, or at any if it names none. -/
structure Cell where
  opcode : Option Opcode := none
  count : Nat := 0
  deriving DecidableEq, Repr, Inhabited

namespace Cell

/-- The count of a cell starts again at this value. -/
def limit : Nat := 1 <<< 24

/-- Whether a cell was never used. -/
def isEmpty (c : Cell) : Bool := c.opcode.isNone && c.count == 0

/-- Count one trap for an operation, or for none in particular. -/
def bump (c : Cell) (op : Option Opcode) : Cell := { opcode := op, count := (c.count + 1) % limit }

end Cell

/-- The cells of one reason and one action. -/
abbrev Cells := Vector Cell 4

namespace Cells

/-- The cell that counts an operation: the one that names it, else the first empty one. -/
def slot? (cs : Cells) (op : Opcode) : Option (Fin 4) :=
  ((List.finRange 4).find? (fun i => cs[i].opcode = some op)).or
    ((List.finRange 4).find? (fun i => cs[i].isEmpty))

/-- Count one trap. -/
def gather (cs : Cells) (op : Option Opcode) : Cells :=
  match op.bind cs.slot? with
  | some i => cs.set i (cs[i].bump op)
  | none => cs.set 3 (cs[3].bump none)

def total (cs : Cells) : Nat := (cs.toList.map Cell.count).foldl (· + ·) 0

end Cells

/-- How often traps fired. -/
structure Histogram where
  /-- The cells of each reason and action. -/
  cells : Vector (Vector Cells Action.card) Reason.card :=
    Vector.replicate _ (Vector.replicate _ (Vector.replicate _ {}))
  /-- The count of each reason; that of the unspecified reason counts every trap. -/
  counts : Vector Nat Reason.card := Vector.replicate _ 0
  deriving DecidableEq, Repr

namespace Histogram

instance : Inhabited Histogram := ⟨{}⟩

def cellsOf (h : Histogram) (r : Reason) (a : Action) : Cells := h.cells[r.index][a.index]

def reasonCount (h : Histogram) (r : Reason) : Nat := h.counts[r.index]

def total (h : Histogram) : Nat := h.reasonCount .unspecified

/-- Add one to the count of a reason. -/
def countReason (h : Histogram) (r : Reason) : Histogram :=
  { h with counts := h.counts.set r.index (h.reasonCount r + 1) }

/-- Count one trap: in total, for its reason, and in the cells of its reason and action. -/
def gather (h : Histogram) (r : Reason) (a : Action) (op : Option Opcode) : Histogram :=
  let h := (h.countReason .unspecified).countReason r
  { h with
    cells := h.cells.set r.index (h.cells[r.index].set a.index ((h.cellsOf r a).gather op)) }

/-- Whether a name passes a filter; no filter lets every name pass. -/
def passes (filter : Option String) (name : String) : Bool :=
  match filter with
  | some f => f == name
  | none => true

/-- How many traps pass two filters on the names of reason and action. Without a filter it is the
count of all traps. -/
def count (h : Histogram) (reason action : Option String) : Nat :=
  if reason.isNone && action.isNone then h.total
  else
    ((Reason.all.filter (fun r => passes reason r.name)).map fun r =>
      ((Action.all.filter (fun a => passes action a.name)).map fun a =>
        (h.cellsOf r a).total).foldl (· + ·) 0).foldl (· + ·) 0

/-! ### The report -/

/-- A line of the report. -/
inductive Line where
  | title
  | total (n : Nat)
  | cell (reason : Reason) (action : Action) (opcode : Option Opcode) (n : Nat)
  | unaccounted (n : Nat)
  deriving DecidableEq, Repr

def cellLines (h : Histogram) : List Line :=
  Reason.all.flatMap fun r => Action.all.flatMap fun a =>
    ((h.cellsOf r a).toList.filter (fun c => !c.isEmpty)).map fun c =>
      Line.cell r a c.opcode c.count

def Line.accounted : Line → Nat
  | .cell _ _ _ n => n
  | _ => 0

/-- The lines of the report: title and total, one line for each used cell, and what no cell accounts
for. Without traps there is no report. -/
def lines (h : Histogram) : List Line :=
  if h.total = 0 then []
  else
    let cells := h.cellLines
    let rest := h.total - (cells.map Line.accounted).foldl (· + ·) 0
    [.title, .total h.total] ++ cells ++ if rest = 0 then [] else [.unaccounted rest]

/-- A count with its share of all traps. -/
def sharedCount (n all : Nat) : String :=
  s!"  {Text.padLeft 4 (toString n)} ({Text.padLeft 4 (Text.percent n all)}%)"

def Line.text (all : Nat) : Line → String
  | .title => "Deoptimization traps recorded:\n"
  | .total n => sharedCount n all ++ " total\n"
  | .cell r a op n =>
    let operation := (op.map Opcode.name).getD "other"
    let name := s!"{r.name}/{a.name}/{operation}"
    s!"  {Text.padLeft 40 name}: {n} ({Text.percent n all}%)\n"
  | .unaccounted n => sharedCount n all ++ " unaccounted\n"

def report (h : Histogram) : String := String.join (h.lines.map (Line.text h.total))

/-- What is logged: the report on lines of its own, if there is one. -/
def logged (h : Histogram) : List String :=
  if h.report.isEmpty then [] else ["\n" ++ h.report]

end Histogram
end Bailout
