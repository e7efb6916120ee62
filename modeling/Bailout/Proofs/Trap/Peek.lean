import Bailout.Proofs.Trap.Log

/-!
# Looking and asking

A trap is judged by a history in two ways. A trap that asks for something is told to the history,
which answers; for a trap that leaves the code as it is the history is only looked at. Both ways go
through the same estimate of the method and the same record of the bytecode, and they give the same
answers with one exception. Where a bytecode has no record and cannot get one, the history answers
with the estimate of the method, but who looks at it is told that nothing happened at this bytecode.
-/

namespace Bailout

/-- Two snapshots say the same about what may have happened at a bytecode before. -/
structure Snapshot.Agrees (s s' : Snapshot) : Prop where
  trap : s.maybePriorTrap = s'.maybePriorTrap
  recompile : s.maybePriorRecompile = s'.maybePriorRecompile

namespace History

variable {h : History} {log : List Entry} {k d bci : Nat} {r q : Reason}

/-- A bytecode is left out: the reason is recorded per bytecode, but all records are taken by
others. -/
structure LeavesOut (h : History) (bci : Nat) (r : Reason) : Prop where
  recorded : r.standIn?.isSome = true
  full : h.hasRoom bci = false

/-- After a log a bytecode is left out if it was too late. -/
lemma leavesOut_ofLog : (ofLog k log).LeavesOut bci r ↔
    r.standIn?.isSome = true ∧ k ≤ (places log).length ∧ bci ∉ (places log).take k := by
  have hfull : (ofLog k log).hasRoom bci = false ↔
      k ≤ (places log).length ∧ bci ∉ (places log).take k := by
    have hkeys : (ofLog k log).records.keys = (places log).take k := by
      rw [(reflects_ofLog k log).keys, capacity_ofLog]
    rw [← Bool.not_eq_true, hasRoom_iff, hkeys, capacity_ofLog, List.length_take, not_or,
      Nat.not_lt, Nat.le_min]
    simp only [Nat.le_refl, true_and, and_comm]
  rw [← hfull]
  exact ⟨fun ho => ⟨ho.recorded, ho.full⟩, fun ho => ⟨ho.1, ho.2⟩⟩

/-! ### Counts -/

lemma count_peek : (h.peek d bci r).count = h.count r := by
  unfold peek
  split
  · rfl
  · split <;> rfl

lemma count_snd_query : (h.query d bci r true).2.count = saturatingNext (h.count r) := by
  by_cases hun : r.standIn? = none ∨ h.hasRoom bci = false
  · rw [snd_query_of_unrecorded hun]
    rfl
  · rw [not_or, Bool.not_eq_false] at hun
    obtain ⟨q, hq⟩ := Option.ne_none_iff_exists'.1 hun.1
    rw [snd_query_of_recorded hq hun.2]
    rfl

/-- Below the top of the counters, who looks sees one trap less. -/
lemma count_snd_query_ofLog (hlog : log.countP (Entry.counts r) + 1 < 2 ^ 32) :
    ((ofLog k log).query d bci r true).2.count = ((ofLog k log).peek d bci r).count + 1 := by
  have htop : counterLimit = 2 ^ 32 := rfl
  rw [count_snd_query, count_peek, (reflects_ofLog k log).count, saturatingNext]
  omega

/-! ### What may have happened before -/

lemma peek_of_none (hr : r.standIn? = none) :
    h.peek d bci r = estimate (h.count r) (h.count r) d := by
  rw [peek, hr]

lemma peek_of_record (hr : r.standIn? = some q) {rec : Record} (hrec : h.record? bci = some rec) :
    h.peek d bci r = Snapshot.sharpen (estimate (h.count r) (h.count r) d) rec q := by
  simp only [peek, hr, hrec]

/-- Without a record the bytecode counts as new. -/
lemma peek_of_record_none (hr : r.standIn? = some q) (hrec : h.record? bci = none) :
    (h.peek d bci r).maybePriorTrap = false ∧ (h.peek d bci r).maybePriorRecompile = false := by
  simp only [peek, hr, hrec, and_self]

lemma record?_eq_none_of_not_hasRoom (hroom : h.hasRoom bci = false) : h.record? bci = none := by
  rw [hasRoom, Bool.or_eq_false_iff, Table.contains, Option.isSome_eq_false_iff,
    Option.isNone_iff_eq_none] at hroom
  exact hroom.1

/-- A bytecode that is not left out looks as it is told. A record that is yet to be made knows of
nothing, just like one that is not there. -/
lemma agrees_of_not_leavesOut (ho : ¬ h.LeavesOut bci r) :
    (h.peek d bci r).Agrees (h.query d bci r true).2 := by
  cases hr : r.standIn? with
  | none =>
    rw [peek_of_none hr, snd_query_of_unrecorded (.inl hr)]
    exact ⟨rfl, rfl⟩
  | some q =>
    have hroom : h.hasRoom bci = true := by
      by_contra hroom
      exact ho ⟨by rw [hr]; rfl, Bool.eq_false_iff.2 hroom⟩
    rw [snd_query_of_recorded hr hroom]
    cases hrec : h.record? bci with
    | some rec =>
      rw [peek_of_record hr hrec, record, hrec]
      exact ⟨rfl, rfl⟩
    | none =>
      obtain ⟨htrap, hrecompile⟩ := peek_of_record_none (d := d) hr hrec
      rw [record, hrec]
      exact ⟨by simp [htrap, Snapshot.sharpen, TrapState.has, Answer.toBool],
        by simp [hrecompile, Snapshot.sharpen]⟩

/-- A bytecode that is left out looks innocent, while the answer is the estimate of the method. -/
lemma LeavesOut.flags (ho : h.LeavesOut bci r) :
    (h.peek d bci r).maybePriorTrap = false ∧ (h.peek d bci r).maybePriorRecompile = false ∧
    (h.query d bci r true).2.maybePriorTrap = decide (h.count r ≠ 0) ∧
    (h.query d bci r true).2.maybePriorRecompile = decide (d ≠ 0) := by
  obtain ⟨q, hq⟩ := Option.isSome_iff_exists.1 ho.recorded
  obtain ⟨htrap, hrecompile⟩ :=
    peek_of_record_none (d := d) hq (record?_eq_none_of_not_hasRoom ho.full)
  rw [snd_query_of_unrecorded (.inr ho.full)]
  exact ⟨htrap, hrecompile, rfl, rfl⟩

/-- Looking and asking differ exactly where a bytecode is left out by a history that has something
to say about the method. -/
lemma agrees_iff : (h.peek d bci r).Agrees (h.query d bci r true).2 ↔
    ¬ (h.LeavesOut bci r ∧ (h.count r ≠ 0 ∨ d ≠ 0)) := by
  constructor
  · rintro ⟨htrap, hrecompile⟩ ⟨ho, hpast⟩
    obtain ⟨hsaw, hsaw', htold, htold'⟩ := ho.flags (d := d)
    rw [hsaw, htold, eq_comm, decide_eq_false_iff_not] at htrap
    rw [hsaw', htold', eq_comm, decide_eq_false_iff_not] at hrecompile
    exact hpast.elim htrap hrecompile
  · intro hnot
    by_cases ho : h.LeavesOut bci r
    · have hpast : h.count r = 0 ∧ d = 0 := by
        have hpast := not_or.1 fun hpast => hnot ⟨ho, hpast⟩
        simpa only [not_not] using hpast
      obtain ⟨hsaw, hsaw', htold, htold'⟩ := ho.flags (d := d)
      exact ⟨by rw [hsaw, htold]; simp [hpast.1], by rw [hsaw', htold']; simp [hpast.2]⟩
    · exact agrees_of_not_leavesOut ho

lemma count_ofLog_ne_zero : (ofLog k log).count r ≠ 0 ↔ ∃ e ∈ log, e.counts r = true := by
  have htop : 0 < counterLimit - 1 := by decide
  rw [(reflects_ofLog k log).count, ← List.countP_pos_iff]
  omega

/-- Whatever a history was told, looking at it shows one trap for the reason less than asking would,
as long as counters suffice. It shows the same past of the bytecode, unless all records went to
earlier bytecodes and either the reason was counted before, anywhere in the method, or the method's
code was ever invalidated: then nothing of that is seen, but all of it is told. -/
theorem peek_agrees_iff (k : Nat) (log : List Entry) (d bci : Nat) (r : Reason)
    (hlog : log.countP (Entry.counts r) + 1 < 2 ^ 32) :
    ((ofLog k log).query d bci r true).2.count = ((ofLog k log).peek d bci r).count + 1 ∧
    (((ofLog k log).peek d bci r).Agrees ((ofLog k log).query d bci r true).2 ↔
      ¬ ((r.standIn?.isSome = true ∧ k ≤ (places log).length ∧ bci ∉ (places log).take k) ∧
        ((∃ e ∈ log, e.counts r = true) ∨ d ≠ 0))) ∧
    (r.standIn?.isSome = true → k ≤ (places log).length → bci ∉ (places log).take k →
      ((ofLog k log).peek d bci r).maybePriorTrap = false ∧
      ((ofLog k log).peek d bci r).maybePriorRecompile = false ∧
      (((ofLog k log).query d bci r true).2.maybePriorTrap = true ↔
        ∃ e ∈ log, e.counts r = true) ∧
      (((ofLog k log).query d bci r true).2.maybePriorRecompile = true ↔ d ≠ 0)) := by
  refine ⟨count_snd_query_ofLog hlog, ?_, fun hr hfull hlate => ?_⟩
  · rw [agrees_iff, leavesOut_ofLog, count_ofLog_ne_zero]
  · obtain ⟨hsaw, hsaw', htold, htold'⟩ := (leavesOut_ofLog.2 ⟨hr, hfull, hlate⟩).flags (d := d)
    exact ⟨hsaw, hsaw', by rw [htold, decide_eq_true_iff, count_ofLog_ne_zero],
      by rw [htold', decide_eq_true_iff]⟩

/-- Range checks fail at two bytecodes, of which one can have a record. -/
def narrowLog : List Entry := [.counted 0 1 .rangeCheck, .counted 1 2 .rangeCheck]

/-- The bytecode with the record looks as it is told, the other one does not. -/
theorem peek_agrees_iff_narrow : narrowLog.countP (Entry.counts .rangeCheck) + 1 < 2 ^ 32 ∧
    ((ofLog 1 narrowLog).peek 1 1 .rangeCheck).Agrees
      ((ofLog 1 narrowLog).query 1 1 .rangeCheck true).2 ∧
    ¬ ((ofLog 1 narrowLog).peek 1 2 .rangeCheck).Agrees
      ((ofLog 1 narrowLog).query 1 2 .rangeCheck true).2 := by
  have hlog : narrowLog.countP (Entry.counts .rangeCheck) + 1 < 2 ^ 32 := by decide
  refine ⟨hlog, (peek_agrees_iff 1 narrowLog 1 1 .rangeCheck hlog).2.1.2 ?_, fun hagrees =>
    (peek_agrees_iff 1 narrowLog 1 2 .rangeCheck hlog).2.1.1 hagrees ?_⟩
  · rintro ⟨⟨-, -, hlate⟩, -⟩
    exact hlate (by decide)
  · exact ⟨⟨rfl, by decide, by decide⟩, .inl ⟨_, List.mem_cons_self, by decide⟩⟩

/-- A bytecode whose range check failed already, in a method whose code was invalidated since, looks
as if neither had happened. The history that is looked at would tell of both. -/
theorem peek_overlooks : narrowLog.countP (Entry.counts .rangeCheck) + 1 < 2 ^ 32 ∧
    .counted 1 2 .rangeCheck ∈ narrowLog ∧
    (ofLog 1 narrowLog).peek 1 2 .rangeCheck = { count := 2 } ∧
    ((ofLog 1 narrowLog).query 1 2 .rangeCheck true).2 =
      { count := 3, maybePriorTrap := true, maybePriorRecompile := true } ∧
    ¬ ((ofLog 1 narrowLog).peek 1 2 .rangeCheck).Agrees
      ((ofLog 1 narrowLog).query 1 2 .rangeCheck true).2 :=
  ⟨by decide, by decide, by decide, by decide, fun h => absurd h.trap (by decide)⟩

end History
end Bailout
