import Mathlib.Data.List.FinRange
import Mathlib.Data.List.Induction
import Bailout.Proofs.Counting
import Bailout.Trap.Histogram

/-!
# Cells

The cells of a reason and an action are told of one trap after the other. An operation is named by
one cell at most, and that cell has counted all of its traps: a cell that is named when there is
still an empty one has missed nothing, and when there is none left no further cell is named. Only
the last cell counts traps without a name. All this holds as long as no counter starts again.
-/

namespace Bailout

namespace Cell

lemma isEmpty_eq_true {c : Cell} : c.isEmpty = true ↔ c.opcode = none ∧ c.count = 0 := by
  simp [isEmpty]

end Cell

namespace Cells

variable {cs : Cells} {op : Opcode} {o : Option Opcode} {os : List (Option Opcode)} {i : Fin 4}

/-- Cells that were never used. -/
def blank : Cells := Vector.replicate _ {}

/-- The cells after they were told of some traps, one after the other. -/
def ofOpcodes (os : List (Option Opcode)) : Cells := os.foldl gather blank

/-- One of the cells names an operation. -/
def Names (cs : Cells) (op : Opcode) : Prop := ∃ i : Fin 4, (cs.get i).opcode = some op

/-- Every cell was used. -/
def Full (cs : Cells) : Prop := ∀ i : Fin 4, (cs.get i).isEmpty = false

/-! ### Counting in one cell -/

lemma set_eq_setIfInBounds (cs : Cells) {k : Nat} (hk : k < 4) (c : Cell) :
    cs.set k c hk = cs.setIfInBounds k c := by
  refine Vector.ext fun n hn => ?_
  rw [Vector.getElem_set, Vector.getElem_setIfInBounds]

/-- One of the cells counts a trap for an operation, or for none in particular. -/
def bumpAt (cs : Cells) (i : Fin 4) (o : Option Opcode) : Cells :=
  cs.setIfInBounds i ((cs.get i).bump o)

lemma get_bumpAt (cs : Cells) (i j : Fin 4) (o : Option Opcode) :
    (cs.bumpAt i o).get j = if j = i then (cs.get i).bump o else cs.get j := by
  rw [bumpAt, ← set_eq_setIfInBounds cs i.isLt]
  show (cs.set i _)[j] = _
  simp only [Fin.getElem_fin, Vector.getElem_set, Fin.val_inj, eq_comm]
  rfl

lemma total_eq_sum (cs : Cells) : cs.total = (cs.toList.map Cell.count).sum :=
  List.sum_eq_foldl.symm

lemma total_set (cs : Cells) (i : Fin 4) (c : Cell) :
    Cells.total (cs.setIfInBounds i c) + (cs.get i).count = cs.total + c.count := by
  have hi : (i : Nat) < (cs.toList.map Cell.count).length := by simp
  have hset := sum_set_add_getElem (a := c.count) hi
  rwa [List.getElem_map, Vector.getElem_toList, ← List.map_set, ← Vector.toList_set i.isLt,
    ← total_eq_sum, ← total_eq_sum, set_eq_setIfInBounds] at hset

lemma count_le_total (cs : Cells) (i : Fin 4) : (cs.get i).count ≤ cs.total := by
  have hset : _ = cs.total + 0 := cs.total_set i {}
  omega

/-! ### Where a trap is counted -/

/-- What the cells come to when they are told of a trap: the cell that names its operation counts
it, or else the first empty one takes the name, or else the last one forgets its own. -/
inductive Gathers (cs : Cells) : Option Opcode → Cells → Prop where
  | named {i : Fin 4} {op : Opcode} (h : (cs.get i).opcode = some op) :
      Gathers cs (some op) (cs.bumpAt i (some op))
  | fresh {i : Fin 4} {op : Opcode} (hop : ¬ cs.Names op) (hi : (cs.get i).isEmpty = true)
      (hbefore : ∀ j < i, (cs.get j).isEmpty = false) :
      Gathers cs (some op) (cs.bumpAt i (some op))
  | other {o : Option Opcode} (h : ∀ op, o = some op → ¬ cs.Names op ∧ cs.Full) :
      Gathers cs o (cs.bumpAt 3 none)

lemma slot?_eq (cs : Cells) (op : Opcode) : cs.slot? op =
    ((List.finRange 4).find? fun i => (cs.get i).opcode = some op).or
      ((List.finRange 4).find? fun i => (cs.get i).isEmpty) := rfl

/-- The cell for an operation names it, or is the first empty one when none does. -/
lemma slot?_eq_some (h : cs.slot? op = some i) : (cs.get i).opcode = some op ∨
    ¬ cs.Names op ∧ (cs.get i).isEmpty = true ∧ ∀ j < i, (cs.get j).isEmpty = false := by
  rw [slot?_eq, Option.or_eq_some_iff] at h
  rcases h with h | ⟨hnone, h⟩
  · left
    simpa using List.find?_some h
  · right
    refine ⟨fun ⟨j, hj⟩ => ?_, by simpa using List.find?_some h, fun j hj => ?_⟩
    · exact List.find?_eq_none.1 hnone j (List.mem_finRange j) (by simpa using hj)
    · obtain ⟨-, n, hn, rfl, hbefore⟩ := List.find?_eq_some_iff_getElem.1 h
      have hjn : (j : Nat) < n := by simpa [Fin.lt_def] using hj
      simpa using hbefore j hjn

lemma slot?_eq_none (h : cs.slot? op = none) : ¬ cs.Names op ∧ cs.Full := by
  rw [slot?_eq, Option.or_eq_none_iff, List.find?_eq_none, List.find?_eq_none] at h
  refine ⟨fun ⟨i, hi⟩ => h.1 i (List.mem_finRange i) (by simpa using hi), fun i => ?_⟩
  simpa using h.2 i (List.mem_finRange i)

/-- A trap for which there is no cell is counted in the last one. -/
lemma gather_eq (cs : Cells) (o : Option Opcode) : cs.gather o =
    match o.bind cs.slot? with
    | some i => cs.bumpAt i o
    | none => cs.bumpAt 3 none := by
  rw [gather]
  cases o.bind cs.slot? with
  | none => exact set_eq_setIfInBounds cs (Fin.isLt 3) _
  | some i => exact set_eq_setIfInBounds cs i.isLt _

lemma gathers (cs : Cells) (o : Option Opcode) : cs.Gathers o (cs.gather o) := by
  rw [gather_eq]
  cases o with
  | none => exact .other nofun
  | some op =>
    rw [Option.bind_some]
    cases hslot : cs.slot? op with
    | none =>
      refine .other fun op' hop => ?_
      cases hop
      exact slot?_eq_none hslot
    | some i =>
      rcases slot?_eq_some hslot with h | ⟨hop, hi, hbefore⟩
      · exact .named h
      · exact .fresh hop hi hbefore

/-! ### Exact cells -/

/-- Cells account for the traps that they were told of: a cell that names an operation counts just
the traps at it. An operation without a cell was met only if there was none left for it. -/
structure Exact (cs : Cells) (os : List (Option Opcode)) : Prop where
  count : ∀ (i : Fin 4) op, (cs.get i).opcode = some op → (cs.get i).count = os.count (some op)
  distinct : ∀ (i j : Fin 4) op, (cs.get i).opcode = some op → (cs.get j).opcode = some op → i = j
  last : ∀ i : Fin 4, (cs.get i).opcode = none → (cs.get i).count ≠ 0 → i = 3
  /-- The last cell is the last one to be used. -/
  full : ∀ op, (cs.get 3).opcode = some op → cs.Full
  missed : ∀ op, some op ∈ os → ¬ cs.Names op → cs.Full
  total : cs.total = os.length

lemma get_blank (i : Fin 4) : blank.get i = {} := by
  show blank[i] = {}
  simp [blank]

lemma exact_blank : Exact blank [] where
  count i op h := by
    rw [get_blank] at h
    cases h
  distinct i j op h := by
    rw [get_blank] at h
    cases h
  last i _ h := by
    rw [get_blank] at h
    exact absurd rfl h
  full op h := by
    rw [get_blank] at h
    cases h
  missed op h := by cases h
  total := rfl

namespace Exact

/-- A cell counts on as long as no counter can start again. -/
lemma count_bump (hc : cs.Exact os) (hlt : os.length + 1 < Cell.limit) (i : Fin 4)
    (o : Option Opcode) : ((cs.get i).bump o).count = (cs.get i).count + 1 := by
  have hle := cs.count_le_total i
  rw [hc.total] at hle
  exact Nat.mod_eq_of_lt (by omega)

lemma total_bump (hc : cs.Exact os) (hlt : os.length + 1 < Cell.limit) (i : Fin 4)
    (o o' : Option Opcode) :
    (cs.bumpAt i o).total = (os ++ [o']).length := by
  have hset : (cs.bumpAt i o).total + (cs.get i).count = _ := cs.total_set i ((cs.get i).bump o)
  rw [hc.count_bump hlt, hc.total] at hset
  rw [List.length_append, List.length_singleton]
  omega

/-- A cell counts a trap at an operation that it names or is to name. It has counted all earlier
ones, and no other cell names the operation. -/
lemma name (hc : cs.Exact os) (hlt : os.length + 1 < Cell.limit)
    (hcount : (cs.get i).count = os.count (some op))
    (hown : ∀ q, (cs.get i).opcode = some q → q = op)
    (hother : ∀ j : Fin 4, (cs.get j).opcode = some op → j = i)
    (hlast : i = 3 → ∀ j : Fin 4, j ≠ 3 → (cs.get j).isEmpty = false) :
    (cs.bumpAt i (some op)).Exact (os ++ [some op]) := by
  have hget := fun j => cs.get_bumpAt i j (some op)
  have hbump := hc.count_bump hlt i (some op)
  have hof : ∀ {j : Fin 4} {q}, ((cs.bumpAt i (some op)).get j).opcode = some q →
      j = i ∧ q = op ∨ j ≠ i ∧ q ≠ op ∧ (cs.get j).opcode = some q := by
    intro j q h
    rw [hget] at h
    split_ifs at h with hj
    · exact .inl ⟨hj, (Option.some.inj h).symm⟩
    · exact .inr ⟨hj, fun hq => hj (hother j (hq ▸ h)), h⟩
  have hfull : cs.Full → (cs.bumpAt i (some op)).Full := by
    intro hf j
    rw [hget]
    split_ifs
    · rfl
    · exact hf j
  refine ⟨fun j q h => ?_, fun j k q hj hk => ?_, fun j h hne => ?_, fun q h => ?_,
    fun q hq hnot => ?_, hc.total_bump hlt i _ _⟩
  · rw [hget, List.count_append]
    rcases hof h with ⟨rfl, rfl⟩ | ⟨hj, hq, h⟩
    · rw [if_pos rfl, hbump, hcount, List.count_singleton_self]
    · rw [if_neg hj, hc.count j q h, List.count_singleton, if_neg (by simpa using Ne.symm hq),
        Nat.add_zero]
  · rcases hof hj with ⟨rfl, rfl⟩ | ⟨-, hq, hj⟩
    · rcases hof hk with ⟨rfl, -⟩ | ⟨-, hq, -⟩
      · rfl
      · exact absurd rfl hq
    · rcases hof hk with ⟨-, rfl⟩ | ⟨-, -, hk⟩
      · exact absurd rfl hq
      · exact hc.distinct j k q hj hk
  · rw [hget] at h hne
    split_ifs at h hne with hj
    · cases h
    · exact hc.last j h hne
  · rcases hof h with ⟨rfl, -⟩ | ⟨-, -, h⟩
    · intro j
      rw [hget]
      split_ifs with hj
      · rfl
      · exact hlast rfl j hj
    · exact hfull (hc.full q h)
  · have hne : q ≠ op := by
      rintro rfl
      exact hnot ⟨i, by rw [hget, if_pos rfl]; rfl⟩
    refine hfull (hc.missed q ?_ fun ⟨j, hj⟩ => hnot ⟨j, ?_⟩)
    · simpa [hne] using hq
    · rw [hget, if_neg]
      · exact hj
      · rintro rfl
        exact hne (hown q hj)

/-- The last cell counts a trap without a name. No cell names the operation, if there is one, and
none is empty. -/
lemma forget (hc : cs.Exact os) (hlt : os.length + 1 < Cell.limit)
    (ho : ∀ op, o = some op → ¬ cs.Names op ∧ cs.Full) :
    (cs.bumpAt 3 none).Exact (os ++ [o]) := by
  have hget := fun j => cs.get_bumpAt 3 j none
  have hbump := hc.count_bump hlt 3 none
  have hof : ∀ {j : Fin 4} {q}, ((cs.bumpAt 3 none).get j).opcode = some q →
      j ≠ 3 ∧ (cs.get j).opcode = some q := by
    intro j q h
    rw [hget] at h
    split_ifs at h with hj
    · cases h
    · exact ⟨hj, h⟩
  have hfull : cs.Full → (cs.bumpAt 3 none).Full := by
    intro hf j
    rw [hget]
    split_ifs
    · rw [Bool.eq_false_iff, Ne, Cell.isEmpty_eq_true, hbump]
      omega
    · exact hf j
  refine ⟨fun j q h => ?_, fun j k q hj hk => ?_, fun j h hne => ?_, fun q h => ?_,
    fun q hq hnot => ?_, hc.total_bump hlt 3 _ _⟩
  · obtain ⟨hj, h⟩ := hof h
    have hne : o ≠ some q := fun ho' => (ho q ho').1 ⟨j, h⟩
    rw [hget, if_neg hj, hc.count j q h, List.count_append, List.count_singleton,
      if_neg (by simpa using hne), Nat.add_zero]
  · exact hc.distinct j k q (hof hj).2 (hof hk).2
  · by_contra hj
    rw [hget, if_neg hj] at h hne
    exact hj (hc.last j h hne)
  · exact absurd rfl (hof h).1
  · apply hfull
    by_cases hnames : cs.Names q
    · obtain ⟨j, hj⟩ := hnames
      -- Only the last cell can have lost its name.
      obtain rfl : j = 3 := by
        by_contra hne
        exact hnot ⟨j, by rwa [hget, if_neg hne]⟩
      exact hc.full q hj
    · rcases List.mem_append.1 hq with hq | hq
      · exact hc.missed q hq hnames
      · exact (ho q (List.mem_singleton.1 hq).symm).2

/-- Cells that account for some traps account for one more after they were told of it. -/
lemma gather (hc : cs.Exact os) (hlt : os.length + 1 < Cell.limit) (o : Option Opcode) :
    (cs.gather o).Exact (os ++ [o]) := by
  have hg := cs.gathers o
  generalize cs.gather o = cs' at hg
  cases hg with
  | @named i op h =>
    refine hc.name hlt (hc.count i op h) (fun q hq => ?_) (fun j hj => hc.distinct j i op hj h) ?_
    · rw [h] at hq
      exact (Option.some.inj hq).symm
    · rintro rfl j -
      exact hc.full op h j
  | @fresh i op hop hi hbefore =>
    obtain ⟨hnone, hzero⟩ := Cell.isEmpty_eq_true.1 hi
    refine hc.name hlt ?_ (fun q hq => ?_) (fun j hj => absurd ⟨j, hj⟩ hop) ?_
    · rw [hzero, eq_comm, List.count_eq_zero]
      intro hmem
      rw [hc.missed op hmem hop i] at hi
      cases hi
    · rw [hnone] at hq
      cases hq
    · rintro rfl j hj
      exact hbefore j (by omega)
  | other h => exact hc.forget hlt h

end Exact

/-- Cells are exact as long as no counter starts again. -/
theorem exact_ofOpcodes (os : List (Option Opcode)) (hos : os.length < Cell.limit) :
    (ofOpcodes os).Exact os := by
  induction os using List.reverseRecOn with
  | nil => exact exact_blank
  | append_singleton os o ih =>
    rw [List.length_append, List.length_singleton] at hos
    rw [ofOpcodes, List.foldl_concat]
    exact (ih (by omega)).gather hos o

end Cells
end Bailout
