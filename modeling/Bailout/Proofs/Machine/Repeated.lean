import Bailout.Proofs.Machine.Escalation

/-!
# Recompilations that go unnoticed

A bytecode that trapped before, and caused a recompilation before, causes another one when its code
is invalidated. The verdict asks for that to be counted, so that the method can be given up in the
end. But it does so before the limit of the whole method is looked at. Where a method is less
patient than its bytecodes, there are counts at which only the method has the code invalidated, and
these recompilations go unnoticed, though the method is profiled again because of them.
-/

namespace Bailout

/-- A snapshot of a bytecode that may have trapped for the reason before, and may have caused a
recompilation. -/
structure Snapshot.Repeats (s : Snapshot) : Prop where
  trap : s.maybePriorTrap = true
  recompile : s.maybePriorRecompile = true

/-- What a history says of a bytecode with a record that has both of them, at a count. -/
def Snapshot.repeated (count : Nat) : Snapshot :=
  { count, maybePriorTrap := true, maybePriorRecompile := true, hasRecord := true }

lemma Snapshot.repeats_repeated (n : Nat) : (repeated n).Repeats := ⟨rfl, rfl⟩

namespace Verdict

variable {r : Reason} {a : Action} {s : Snapshot} {c : Config}

/-- There are three rules by which code is invalidated. -/
lemma invalidate_iff_of_repeats (hr : r.standIn?.isSome = true) (hs : s.Repeats) :
    (decide r a (some s) c).invalidate = true ↔ (ofAction a).invalidate = true ∨
      c.perBytecodeTrapLimit < s.count ∨ c.methodLimit r < s.count := by
  simp [decide, locally, hr, hs.trap, or_assoc]

/-- Two of them count. -/
lemma countRecompile_iff_of_repeats (hr : r.standIn?.isSome = true) (hs : s.Repeats) :
    (decide r a (some s) c).countRecompile = true ↔
      (ofAction a).invalidate = true ∨ c.perBytecodeTrapLimit < s.count := by
  simp [decide, locally, hr, hs.trap, hs.recompile]

/-- Together they leave out the counts that only the method does not tolerate. -/
lemma counted_of_repeats_iff (hr : r.standIn?.isSome = true) (hs : s.Repeats) :
    ((decide r a (some s) c).invalidate = true →
        (decide r a (some s) c).countRecompile = true) ↔
      (ofAction a).invalidate = true ∨ c.perBytecodeTrapLimit < s.count ∨
        s.count ≤ c.methodLimit r := by
  rw [invalidate_iff_of_repeats hr hs, countRecompile_iff_of_repeats hr hs]
  by_cases ha : (ofAction a).invalidate = true
  · simp [ha]
  · simp only [ha, Bool.false_eq_true, false_or]
    omega

/-- Code that is invalidated because of the method alone is profiled again, and that is all. -/
lemma decide_of_methodLimit (hr : r.standIn?.isSome = true) (hs : s.Repeats)
    (ha : (ofAction a).invalidate = false) (hhere : s.count ≤ c.perBytecodeTrapLimit)
    (hmethod : c.methodLimit r < s.count) :
    decide r a (some s) c = { invalidate := true, reprofile := true } := by
  have hgive : (ofAction a).giveUp = false := by
    cases a <;> first | rfl | cases ha
  simp [decide, locally, hr, hs.trap, hs.recompile, ha, hgive, hmethod, Nat.not_lt.2 hhere]

/-- No limit of a method is below that of a bytecode if the two that there are are not. -/
lemma le_methodLimit (h : c.perBytecodeTrapLimit ≤ c.perMethodTrapLimit)
    (hspec : c.perBytecodeTrapLimit ≤ c.perMethodSpecTrapLimit) (r : Reason) :
    c.perBytecodeTrapLimit ≤ c.methodLimit r := by
  unfold Config.methodLimit
  split_ifs
  · exact hspec
  · exact h

/-- A recompilation that a bytecode causes again is counted whenever its code is invalidated, unless
the count of the reason is past the limit of the method and not past that of the bytecode, and the
invalidation was not asked for; then the method is profiled again and nothing is counted. So all of
them are counted exactly in those configurations where no limit of a method is below the limit of a
bytecode. -/
theorem counted_iff (c : Config) :
    (∀ r a s, r.standIn?.isSome = true → s.Repeats →
      (((decide r a (some s) c).invalidate = true →
          (decide r a (some s) c).countRecompile = true) ↔
        (ofAction a).invalidate = true ∨ c.perBytecodeTrapLimit < s.count ∨
          s.count ≤ c.methodLimit r) ∧
      ((ofAction a).invalidate = false → s.count ≤ c.perBytecodeTrapLimit →
        c.methodLimit r < s.count →
        decide r a (some s) c = { invalidate := true, reprofile := true })) ∧
    ((∀ r a s, r.standIn?.isSome = true → s.Repeats →
        (decide r a (some s) c).invalidate = true →
        (decide r a (some s) c).countRecompile = true) ↔
      c.perBytecodeTrapLimit ≤ c.perMethodTrapLimit ∧
        c.perBytecodeTrapLimit ≤ c.perMethodSpecTrapLimit) := by
  refine ⟨fun r a s hr hs => ⟨counted_of_repeats_iff hr hs, decide_of_methodLimit hr hs⟩, ?_, ?_⟩
  · -- At the limit of the bytecode itself only the method can have the code invalidated.
    intro hall
    have hle : ∀ r, r.standIn?.isSome = true → c.perBytecodeTrapLimit ≤ c.methodLimit r := by
      intro r hr
      have hs := Snapshot.repeats_repeated c.perBytecodeTrapLimit
      rcases (counted_of_repeats_iff hr hs).1 (hall r .maybeRecompile _ hr hs) with h | h | h
      · cases h
      · exact absurd h (Nat.lt_irrefl _)
      · exact h
    exact ⟨hle .nullCheck rfl, hle .speculateNullCheck rfl⟩
  · rintro ⟨h, hspec⟩ r a s hr hs
    have hle := le_methodLimit h hspec r
    refine (counted_of_repeats_iff hr hs).2 (.inr ?_)
    omega

/-- Small limits are in order. -/
theorem counted_iff_small : Config.small.validate = .ok .small ∧
    (decide .nullCheck .maybeRecompile (some (.repeated 9)) .small).invalidate = true ∧
    (decide .nullCheck .maybeRecompile (some (.repeated 9)) .small).countRecompile = true :=
  have hinvalidate :
      (decide .nullCheck .maybeRecompile (some (.repeated 9)) .small).invalidate = true := by decide
  ⟨by decide, hinvalidate, (counted_iff .small).2.2 (by decide) .nullCheck .maybeRecompile _ rfl
    (Snapshot.repeats_repeated 9) hinvalidate⟩

/-- If twenty traps are tolerated at a bytecode and eight in the method, the ninth null check at a
bytecode that caused a recompilation before causes another one, which is not counted. -/
theorem repeated_uncounted :
    ({ Config.small with perBytecodeTrapLimit := 20 } : Config).validate =
      .ok { Config.small with perBytecodeTrapLimit := 20 } ∧
    Reason.nullCheck.standIn?.isSome = true ∧ (Snapshot.repeated 9).Repeats ∧
    (decide .nullCheck .maybeRecompile (some (.repeated 9))
      { Config.small with perBytecodeTrapLimit := 20 }).invalidate = true ∧
    (decide .nullCheck .maybeRecompile (some (.repeated 9))
      { Config.small with perBytecodeTrapLimit := 20 }).countRecompile = false :=
  ⟨by decide, rfl, Snapshot.repeats_repeated 9, by decide, by decide⟩

end Verdict
end Bailout
