import Bailout.Proofs.Trap.Cells

/-!
# Totals

What a histogram comes to when it is told of traps, one after the other. The cells of a reason and
an action are told of the traps for these two and of no others, so that they are exact and add up to
the number of those traps; a count under a filter adds up the cells that pass it. The total is kept
apart from the cells, in the place of the unspecified reason. A trap for that reason is counted
there twice, and only such traps are ever missing from the cells.
-/

namespace Bailout
namespace Histogram

/-- A trap, as far as it is counted. -/
structure Trap where
  reason : Reason
  action : Action
  opcode : Option Opcode
  deriving DecidableEq, Repr

/-- The trap is for a reason and an action with the given names, as far as names are given. -/
def Trap.HasNames (t : Trap) (reason action : Option String) : Prop :=
  (∀ n ∈ reason, t.reason.name = n) ∧ ∀ n ∈ action, t.action.name = n

instance (t : Trap) (reason action : Option String) : Decidable (t.HasNames reason action) :=
  inferInstanceAs (Decidable (_ ∧ _))

/-- The histogram of some traps. -/
def ofTraps (ts : List Trap) : Histogram :=
  ts.foldl (fun h t => h.gather t.reason t.action t.opcode) {}

/-- The operations of the traps for a reason and an action. -/
def opcodes (r : Reason) (a : Action) (ts : List Trap) : List (Option Opcode) :=
  (ts.filter fun t => t.reason = r ∧ t.action = a).map Trap.opcode

variable {r : Reason} {a : Action} {ts : List Trap}

lemma ofTraps_concat (ts : List Trap) (t : Trap) :
    ofTraps (ts ++ [t]) = (ofTraps ts).gather t.reason t.action t.opcode := by
  rw [ofTraps, List.foldl_concat, ofTraps]

/-! ### The cells of a reason and an action -/

lemma length_opcodes (r : Reason) (a : Action) (ts : List Trap) :
    (opcodes r a ts).length = ts.countP fun t => t.reason = r ∧ t.action = a := by
  rw [opcodes, List.length_map, List.countP_eq_length_filter]

lemma count_opcodes (r : Reason) (a : Action) (op : Option Opcode) (ts : List Trap) :
    (opcodes r a ts).count op = ts.count ⟨r, a, op⟩ := by
  rw [opcodes, List.count, List.countP_map, List.countP_filter]
  refine List.countP_congr fun t _ => ?_
  obtain ⟨r', a', op'⟩ := t
  simp only [Function.comp_apply, Bool.and_eq_true, beq_iff_eq, decide_eq_true_eq, Trap.mk.injEq]
  tauto

/-- Only the cells of its reason and its action are told of a trap. -/
lemma cellsOf_gather (h : Histogram) (r q : Reason) (a b : Action) (op : Option Opcode) :
    (h.gather r a op).cellsOf q b =
      if r = q ∧ a = b then (h.cellsOf q b).gather op else h.cellsOf q b := by
  simp only [gather, cellsOf, countReason, Fin.getElem_fin, Vector.getElem_set, Fin.val_inj,
    Reason.index_inj]
  by_cases hr : r = q
  · subst hr
    simp only [if_true, Vector.getElem_set, Fin.val_inj, Action.index_inj, true_and]
    by_cases ha : a = b
    · simp [ha]
    · simp [ha]
  · simp [hr]

lemma cellsOf_ofTraps (r : Reason) (a : Action) (ts : List Trap) :
    (ofTraps ts).cellsOf r a = .ofOpcodes (opcodes r a ts) := by
  induction ts using List.reverseRecOn with
  | nil => simp [ofTraps, cellsOf, opcodes, Cells.ofOpcodes, Cells.blank]
  | append_singleton ts t ih =>
    have hopcodes : opcodes r a (ts ++ [t]) = opcodes r a ts ++
        if t.reason = r ∧ t.action = a then [t.opcode] else [] := by
      rw [opcodes, List.filter_append, List.map_append, List.filter_cons, List.filter_nil]
      simp only [decide_eq_true_eq]
      split_ifs <;> rfl
    rw [ofTraps_concat, cellsOf_gather, ih, hopcodes]
    split_ifs
    · rw [Cells.ofOpcodes, Cells.ofOpcodes, List.foldl_concat]
    · rw [List.append_nil]

/-- The cells of a reason and an action are exact as long as no counter starts again. -/
lemma exact_cellsOf (hts : ts.length < Cell.limit) (r : Reason) (a : Action) :
    ((ofTraps ts).cellsOf r a).Exact (opcodes r a ts) := by
  rw [cellsOf_ofTraps]
  refine Cells.exact_ofOpcodes _ (Nat.lt_of_le_of_lt ?_ hts)
  rw [length_opcodes]
  exact List.countP_le_length

lemma total_cellsOf (hts : ts.length < Cell.limit) (r : Reason) (a : Action) :
    ((ofTraps ts).cellsOf r a).total = ts.countP fun t => t.reason = r ∧ t.action = a := by
  rw [(exact_cellsOf hts r a).total, length_opcodes]

/-! ### Adding cells up -/

/-- The cells of some reasons and actions add up to the number of traps for these. -/
lemma sum_total_cellsOf (hts : ts.length < Cell.limit) (p : Reason → Bool) (s : Action → Bool) :
    ((Reason.all.filter p).map fun r => ((Action.all.filter s).map fun a =>
        ((ofTraps ts).cellsOf r a).total).sum).sum =
      ts.countP fun t => p t.reason && s t.action := by
  have hactions : ∀ r, ((Action.all.filter s).map fun a =>
      ((ofTraps ts).cellsOf r a).total).sum =
        ts.countP fun t => t.reason = r && s t.action := by
    intro r
    have hnodup : (Action.all.filter s).Nodup := List.Nodup.filter _ (by decide)
    have hsum := sum_map_countP hnodup Trap.action (fun t => t.reason = r) ts
    simp only [List.mem_filter, Action.mem_all, true_and, Bool.decide_eq_true] at hsum
    simp only [total_cellsOf hts, Bool.decide_and]
    simpa only [Bool.and_comm] using hsum
  have hnodup : (Reason.all.filter p).Nodup := List.Nodup.filter _ (by decide)
  have hsum := sum_map_countP hnodup Trap.reason (fun t => s t.action) ts
  simp only [List.mem_filter, Reason.mem_all, true_and, Bool.decide_eq_true] at hsum
  simpa only [hactions] using hsum

lemma count_eq_sum {reason action : Option String} (hfilter : reason.isSome ∨ action.isSome)
    (h : Histogram) : h.count reason action =
      ((Reason.all.filter fun r => passes reason r.name).map fun r =>
        ((Action.all.filter fun a => passes action a.name).map fun a =>
          (h.cellsOf r a).total).sum).sum := by
  rw [count, if_neg]
  · simp only [List.sum_eq_foldl]
  · cases reason <;> cases action <;> simp_all

lemma passes_eq_true {filter : Option String} {name : String} :
    passes filter name = true ↔ ∀ n ∈ filter, name = n := by
  cases filter with
  | none => simp [passes]
  | some f => simpa [passes] using eq_comm

/-- The cells of a histogram are exact. A cell that names an operation has counted just the traps
for its reason and action at that operation, no operation is named twice, only the last cell can
count traps without naming an operation, and the cells of a reason and an action add up to the
number of traps for these two. So a count under a filter by name is the number of traps with these
names, and nothing for a name that no reason or no action has. -/
theorem cells_ofTraps (ts : List Trap) (hts : ts.length < 2 ^ 24) :
    (∀ r a,
      (∀ (i : Fin 4) op, (((ofTraps ts).cellsOf r a).get i).opcode = some op →
        (((ofTraps ts).cellsOf r a).get i).count = ts.count ⟨r, a, some op⟩) ∧
      (∀ (i j : Fin 4) op, (((ofTraps ts).cellsOf r a).get i).opcode = some op →
        (((ofTraps ts).cellsOf r a).get j).opcode = some op → i = j) ∧
      (∀ i : Fin 4, (((ofTraps ts).cellsOf r a).get i).opcode = none →
        (((ofTraps ts).cellsOf r a).get i).count ≠ 0 → i = 3) ∧
      ((ofTraps ts).cellsOf r a).total = ts.countP fun t => t.reason = r ∧ t.action = a) ∧
    (∀ reason action, reason.isSome ∨ action.isSome →
      (ofTraps ts).count reason action = ts.countP fun t => t.HasNames reason action) ∧
    (∀ n action, (∀ r : Reason, r.name ≠ n) → (ofTraps ts).count (some n) action = 0) ∧
    ∀ n reason, (∀ a : Action, a.name ≠ n) → (ofTraps ts).count reason (some n) = 0 := by
  have hcount : ∀ reason action, reason.isSome ∨ action.isSome →
      (ofTraps ts).count reason action = ts.countP fun t => t.HasNames reason action := by
    intro reason action hfilter
    rw [count_eq_sum hfilter, sum_total_cellsOf hts]
    refine List.countP_congr fun t _ => ?_
    rw [Bool.and_eq_true, passes_eq_true, passes_eq_true, decide_eq_true_iff]
    exact Iff.rfl
  refine ⟨fun r a => ?_, hcount, fun n action hn => ?_, fun n reason hn => ?_⟩
  · have hcells := exact_cellsOf hts r a
    refine ⟨fun i op hi => ?_, hcells.distinct, hcells.last, total_cellsOf hts r a⟩
    rw [hcells.count i op hi, count_opcodes]
  · rw [hcount _ _ (.inl rfl), List.countP_eq_zero]
    intro t _ ht
    exact hn t.reason ((of_decide_eq_true ht).1 n rfl)
  · rw [hcount _ _ (.inr rfl), List.countP_eq_zero]
    intro t _ ht
    exact hn t.action ((of_decide_eq_true ht).2 n rfl)

/-- Traps for one reason and action at five operations, one of them met twice, and at none, and a
trap for others. -/
def crowded : List Trap :=
  [⟨.rangeCheck, .leave, some .getField⟩, ⟨.rangeCheck, .leave, some .putField⟩,
    ⟨.rangeCheck, .leave, some .invoke⟩, ⟨.classCheck, .reinterpret, some .getField⟩,
    ⟨.rangeCheck, .leave, some .checkCast⟩, ⟨.rangeCheck, .leave, some .newObject⟩,
    ⟨.rangeCheck, .leave, some .getField⟩, ⟨.rangeCheck, .leave, none⟩]

/-- The last cell has lost its name to the fifth operation, and nothing else is lost. -/
theorem cells_ofTraps_crowded : crowded.length < 2 ^ 24 ∧
    (((ofTraps crowded).cellsOf .rangeCheck .leave).get 0).opcode = some .getField ∧
    (((ofTraps crowded).cellsOf .rangeCheck .leave).get 0).count = 2 ∧
    ((ofTraps crowded).cellsOf .rangeCheck .leave).get 3 = ⟨none, 3⟩ ∧
    ((ofTraps crowded).cellsOf .rangeCheck .leave).total = 7 ∧
    (ofTraps crowded).count (some "range_check") none = 7 ∧
    (ofTraps crowded).count (some "range_checks") none = 0 := by
  have hts : crowded.length < 2 ^ 24 := by decide
  have hunknown : ∀ r : Reason, r.name ≠ "range_checks" := by
    intro r
    cases r <;> decide
  obtain ⟨hcells, hcount, hreason, -⟩ := cells_ofTraps crowded hts
  obtain ⟨hnamed, -, -, htotal⟩ := hcells .rangeCheck .leave
  exact ⟨hts, rfl, hnamed 0 .getField rfl, rfl, htotal, hcount _ _ (.inl rfl),
    hreason _ _ hunknown⟩

/-! ### The total -/

/-- What all cells have counted. -/
def inCells (h : Histogram) : Nat :=
  (Reason.all.map fun r => (Action.all.map fun a => (h.cellsOf r a).total).sum).sum

/-- The traps that are counted twice in total. -/
def unspecified (ts : List Trap) : Nat := ts.countP fun t => t.reason = .unspecified

lemma inCells_ofTraps (hts : ts.length < Cell.limit) : (ofTraps ts).inCells = ts.length := by
  have hsum := sum_total_cellsOf hts (fun _ => true) fun _ => true
  simpa [inCells] using hsum

/-- A trap is counted in total, and once more if it is for the unspecified reason. -/
lemma total_gather (h : Histogram) (r : Reason) (a : Action) (op : Option Opcode) :
    (h.gather r a op).total = h.total + 1 + if r = .unspecified then 1 else 0 := by
  simp only [total, gather, reasonCount, countReason, Fin.getElem_fin, Vector.getElem_set,
    Fin.val_inj, Reason.index_inj]
  split_ifs <;> simp_all

lemma total_ofTraps (ts : List Trap) : (ofTraps ts).total = ts.length + unspecified ts := by
  induction ts using List.reverseRecOn with
  | nil => rfl
  | append_singleton ts t ih =>
    rw [ofTraps_concat, total_gather, ih, unspecified, unspecified, List.countP_append,
      List.countP_singleton, List.length_append, List.length_singleton]
    simp only [decide_eq_true_eq]
    omega

/-- Empty cells have counted nothing. -/
lemma sum_used (cs : List Cell) :
    ((cs.filter fun c => !c.isEmpty).map Cell.count).sum = (cs.map Cell.count).sum := by
  induction cs with
  | nil => rfl
  | cons c cs ih =>
    by_cases hc : c.isEmpty = true
    · rw [List.filter_cons_of_neg (by simp [hc]), ih, List.map_cons, List.sum_cons,
        (Cell.isEmpty_eq_true.1 hc).2, Nat.zero_add]
    · rw [List.filter_cons_of_pos (by simpa using hc), List.map_cons, List.map_cons,
        List.sum_cons, List.sum_cons, ih]

/-- The lines of cells account for what the cells have counted. -/
lemma sum_accounted (h : Histogram) :
    (h.cellLines.map Line.accounted).foldl (· + ·) 0 = h.inCells := by
  rw [← List.sum_eq_foldl, cellLines, inCells]
  simp only [List.flatMap, List.map_flatten, List.sum_flatten, List.map_map, Function.comp_def,
    Line.accounted, Cells.total_eq_sum, sum_used]

lemma unaccounted_notMem_cellLines (h : Histogram) (n : Nat) :
    Line.unaccounted n ∉ h.cellLines := by
  simp [cellLines]

/-- The last line says what no cell accounts for, if there is such. -/
lemma unaccounted_mem_lines {h : Histogram} {n : Nat} :
    .unaccounted n ∈ h.lines ↔ n = h.total - h.inCells ∧ n ≠ 0 := by
  simp only [lines, sum_accounted]
  split_ifs with htotal hrest
  · simp [htotal]
  · simp [hrest, unaccounted_notMem_cellLines]
  · simp only [List.cons_append, List.nil_append, List.mem_cons, List.mem_append,
      List.not_mem_nil, or_false, unaccounted_notMem_cellLines, false_or, reduceCtorEq,
      Line.unaccounted.injEq]
    exact ⟨fun hn => ⟨hn, hn ▸ hrest⟩, And.left⟩

/-- The total is the number of traps and, once more, the number of those for the unspecified reason,
while the cells add up to the number of traps. So the total agrees with the number of traps, and the
report has no line for traps that no cell accounts for, just when no trap was for the unspecified
reason. -/
theorem total_eq_length_iff (ts : List Trap) (hts : ts.length < 2 ^ 24) :
    (ofTraps ts).count none none = (ofTraps ts).total ∧
    (ofTraps ts).total = ts.length + unspecified ts ∧
    (ofTraps ts).inCells = ts.length ∧
    ((ofTraps ts).total = ts.length ↔ ∀ t ∈ ts, t.reason ≠ .unspecified) ∧
    (∀ n, .unaccounted n ∈ (ofTraps ts).lines ↔ n = unspecified ts ∧ n ≠ 0) ∧
    ((∀ n, .unaccounted n ∉ (ofTraps ts).lines) ↔ ∀ t ∈ ts, t.reason ≠ .unspecified) := by
  have htotal := total_ofTraps ts
  have hcells := inCells_ofTraps hts
  have hnone : unspecified ts = 0 ↔ ∀ t ∈ ts, t.reason ≠ .unspecified := by
    simp [unspecified]
  have hlines : ∀ n, .unaccounted n ∈ (ofTraps ts).lines ↔ n = unspecified ts ∧ n ≠ 0 := by
    intro n
    rw [unaccounted_mem_lines, htotal, hcells, Nat.add_sub_cancel_left]
  refine ⟨rfl, htotal, hcells, ?_, hlines, ?_⟩
  · rw [← hnone]
    omega
  · simp only [← hnone, hlines]
    refine ⟨fun h => ?_, fun h n hn => hn.2 (hn.1.trans h)⟩
    by_contra hne
    exact h _ ⟨rfl, hne⟩

/-- Among the traps of a full pair of cells none is for the unspecified reason, and the total is
their number. -/
theorem total_eq_length_crowded : crowded.length < 2 ^ 24 ∧ (ofTraps crowded).total = 8 ∧
    (ofTraps crowded).inCells = 8 ∧ ∀ n, .unaccounted n ∉ (ofTraps crowded).lines := by
  have hts : crowded.length < 2 ^ 24 := by decide
  obtain ⟨-, -, hcells, htotal, -, hlines⟩ := total_eq_length_iff crowded hts
  have hnone : ∀ t ∈ crowded, t.reason ≠ .unspecified := by decide
  exact ⟨hts, htotal.2 hnone, hcells, hlines.2 hnone⟩

/-- One trap for the unspecified reason makes a total of two, of which the cells account for one. -/
theorem total_unspecified :
    (ofTraps [⟨.unspecified, .leave, none⟩]).total = 2 ∧
    (ofTraps [⟨.unspecified, .leave, none⟩]).count none none = 2 ∧
    (ofTraps [⟨.unspecified, .leave, none⟩]).inCells = 1 ∧
    (ofTraps [⟨.unspecified, .leave, none⟩]).count (some "none") none = 1 ∧
    .unaccounted 1 ∈ (ofTraps [⟨.unspecified, .leave, none⟩]).lines := by
  decide

end Histogram
end Bailout
