import Bailout.Proofs.Checked
import Bailout.Trap.History

/-!
# Histories only grow

Nothing that was recorded about a method is ever forgotten: counters do not fall, a record keeps the
reasons it saw and that it caused a recompilation, and when there is no room for the record of a
bytecode there never will be. A history that is *wary* of a bytecode stays so, and a trap that is
judged by it cannot look innocent.
-/

namespace Bailout

/-! ### Counters -/

/-- A counter that stays at its top stands at `n` at least. -/
def Reaches (n c : Nat) : Prop := min n (counterLimit - 1) ≤ c

namespace Reaches

variable {n k c d : Nat}

lemma of_le (h : n ≤ c) : Reaches n c := Nat.le_trans (Nat.min_le_left _ _) h

lemma refl (c : Nat) : Reaches c c := of_le (Nat.le_refl c)

lemma trans (h : Reaches n c) (h' : Reaches c d) : Reaches n d := by
  unfold Reaches at *
  omega

lemma mono (hk : k ≤ n) (h : Reaches n c) : Reaches k c := (of_le hk).trans h

lemma next (h : Reaches n c) : Reaches (n + 1) (saturatingNext c) := by
  unfold Reaches saturatingNext at *
  omega

lemma next_self (c : Nat) : Reaches c (saturatingNext c) := (refl c).next.mono (Nat.le_succ c)

/-- Below the top a counter that has reached a number is past all smaller ones. -/
lemma lt (h : Reaches n c) (hk : k < n) (htop : k < counterLimit - 1) : k < c := by
  unfold Reaches at h
  omega

end Reaches

/-! ### Tables -/

namespace Table

variable {κ ν : Type} [DecidableEq κ]

lemma size_set (t : Table κ ν) (k : κ) (v : ν) :
    (t.set k v).size = if t.contains k then t.size else t.size + 1 := by
  obtain ⟨es⟩ := t
  simp only [size, set]
  induction es with
  | nil => rfl
  | cons e es ih =>
    by_cases hk : e.1 = k
    · simp [setIn, contains, get?, hk]
    · have hcontains : contains ⟨e :: es⟩ k = contains ⟨es⟩ k := by simp [contains, get?, hk]
      rw [setIn, if_neg hk, List.length_cons, ih, hcontains]
      split_ifs <;> rfl

lemma contains_set (t : Table κ ν) (k l : κ) (v : ν) :
    (t.set k v).contains l = (decide (l = k) || t.contains l) := by
  simp only [contains, get?_set]
  split_ifs with h <;> simp [h]

end Table

/-! ### Records -/

namespace TrapState

variable {s s' s'' : TrapState} {r q : Reason}

/-- What one state says another does not deny. -/
structure Grows (s s' : TrapState) : Prop where
  has : ∀ r, s.has r ≠ .no → s'.has r ≠ .no
  recompiled : s.recompiled = true → s'.recompiled = true

lemma Grows.refl (s : TrapState) : s.Grows s := ⟨fun _ h => h, fun h => h⟩

lemma Grows.trans (h : s.Grows s') (h' : s'.Grows s'') : s.Grows s'' :=
  ⟨fun r hr => h'.has r (h.has r hr), fun hr => h'.recompiled (h.recompiled hr)⟩

lemma grows_add (s : TrapState) (r : Reason) : s.Grows (s.add r) where
  has q hq := by
    obtain ⟨seen, recompiled⟩ := s
    cases seen with
    | nothing => simp [TrapState.has] at hq
    | one p => by_cases hp : p = r <;> simp_all [TrapState.has, add, Seen.add]
    | many => simp [TrapState.has, add, Seen.add]
  recompiled h := h

lemma grows_setRecompiled (s : TrapState) : s.Grows (s.setRecompiled true) :=
  ⟨fun _ h => h, fun _ => rfl⟩

end TrapState

/-! ### Histories -/

namespace History

variable {h h' h'' : History} {bci d : Nat} {r q : Reason} {P Q : TrapState → Prop}
  {f : Record → Record}

/-- A history that remembers what another does, and perhaps more. -/
structure Grows (h h' : History) : Prop where
  count : ∀ r, Reaches (h.count r) (h'.count r)
  overflow : Reaches h.overflowRecompiles h'.overflowRecompiles
  full : ∀ bci, h.hasRoom bci = false → h'.hasRoom bci = false
  records : ∀ bci rec, h.record? bci = some rec →
    ∃ rec', h'.record? bci = some rec' ∧ rec.state.Grows rec'.state

lemma Grows.refl (h : History) : h.Grows h :=
  ⟨fun _ => .refl _, .refl _, fun _ hb => hb, fun _ rec hr => ⟨rec, hr, .refl _⟩⟩

lemma Grows.trans (hg : h.Grows h') (hg' : h'.Grows h'') : h.Grows h'' where
  count r := (hg.count r).trans (hg'.count r)
  overflow := hg.overflow.trans hg'.overflow
  full bci hb := hg'.full bci (hg.full bci hb)
  records bci rec hr := by
    obtain ⟨rec', hr', hs⟩ := hg.records bci rec hr
    obtain ⟨rec'', hr'', hs'⟩ := hg'.records bci rec' hr'
    exact ⟨rec'', hr'', hs.trans hs'⟩

lemma grows_countTrap (h : History) (r : Reason) : h.Grows (h.countTrap r) where
  count q := by
    rw [count_countTrap]
    split_ifs with hq
    · exact hq ▸ .next_self _
    · exact .refl _
  overflow := .refl _
  full _ hb := hb
  records _ rec hr := ⟨rec, hr, .refl _⟩

lemma grows_countOverflow (h : History) : h.Grows h.countOverflow :=
  ⟨fun _ => .refl _, .next_self _, fun _ hb => hb, fun _ rec hr => ⟨rec, hr, .refl _⟩⟩

lemma grows_countTenure (h : History) : h.Grows h.countTenure :=
  ⟨fun _ => .refl _, .refl _, fun _ hb => hb, fun _ rec hr => ⟨rec, hr, .refl _⟩⟩

lemma grows_enterHandler (h : History) (bci : Nat) :
    h.Grows ((h.enterHandler? bci).getD h) := by
  unfold enterHandler?
  split_ifs
  · exact ⟨fun _ => .refl _, .refl _, fun _ hb => hb, fun _ rec hr => ⟨rec, hr, .refl _⟩⟩
  · exact .refl h

/-- What it comes to that a record is changed. -/
lemma update?_eq_some : h.update? bci f = some h' ↔
    h.hasRoom bci = true ∧ h' = { h with records := h.records.set bci (f (h.record bci)) } := by
  unfold update?
  split_ifs with hr
  · simp [hr, eq_comm]
  · simp [hr]

lemma record?_update? (hu : h.update? bci f = some h') :
    h'.record? bci = some (f (h.record bci)) := by
  obtain ⟨-, rfl⟩ := update?_eq_some.1 hu
  exact Table.get?_set_self _ _ _

/-- A record that is changed may be new. If it is, there was room for it. -/
lemma grows_update? (hf : ∀ rec : Record, rec.state.Grows (f rec).state)
    (hu : h.update? bci f = some h') : h.Grows h' := by
  obtain ⟨hroom, rfl⟩ := update?_eq_some.1 hu
  refine ⟨fun _ => .refl _, .refl _, fun b hb => ?_, fun b rec hr => ?_⟩
  · simp only [hasRoom, Bool.or_eq_false_iff, decide_eq_false_iff_not, Nat.not_lt] at hb ⊢
    obtain ⟨hb, hcap⟩ := hb
    have hhere : h.records.contains bci = true := by
      simpa [hasRoom, Nat.not_lt.2 hcap] using hroom
    have hne : b ≠ bci := by
      rintro rfl
      rw [hb] at hhere
      cases hhere
    rw [Table.contains_set, Table.size_set, if_pos hhere]
    exact ⟨by simp [hne, hb], hcap⟩
  · simp only [record?, Table.get?_set]
    split_ifs with hb
    · subst hb
      refine ⟨_, rfl, ?_⟩
      rw [show h.record b = rec by rw [record, hr, Option.getD_some]]
      exact hf rec
    · exact ⟨rec, hr, .refl _⟩

lemma grows_update (h : History) (bci : Nat) (hf : ∀ rec : Record, rec.state.Grows (f rec).state) :
    h.Grows ((h.update? bci f).getD h) := by
  cases hu : h.update? bci f with
  | none => exact .refl h
  | some h' => exact grows_update? hf hu

lemma grows_query (h : History) (d bci : Nat) (r : Reason) (counted : Bool) :
    h.Grows (h.query d bci r counted).1 := by
  have hcount : h.Grows (if counted then h.countTrap r else h) := by
    split_ifs
    · exact h.grows_countTrap r
    · exact .refl h
  simp only [query]
  cases r.standIn? with
  | none => exact hcount
  | some q =>
    simp only
    split
    · exact hcount
    · next hu => exact hcount.trans (grows_update? (fun rec => rec.state.grows_add q) hu)

/-! ### Wary histories -/

/-- The record of a bytecode has a property, or there is no room for a record. -/
def Wary (h : History) (bci : Nat) (P : TrapState → Prop) : Prop :=
  h.hasRoom bci = false ∨ ∃ rec, h.record? bci = some rec ∧ P rec.state

lemma Wary.grows (hw : h.Wary bci P) (hg : h.Grows h')
    (hP : ∀ s s', TrapState.Grows s s' → P s → P s') : h'.Wary bci P := by
  rcases hw with hfull | ⟨rec, hr, hp⟩
  · exact .inl (hg.full bci hfull)
  · obtain ⟨rec', hr', hs⟩ := hg.records bci rec hr
    exact .inr ⟨rec', hr', hP _ _ hs hp⟩

/-- A history is wary of a bytecode after its record was changed, or could not be. -/
lemma wary_update (h : History) (bci : Nat) (hf : ∀ rec : Record, P (f rec).state) :
    ((h.update? bci f).getD h).Wary bci P := by
  by_cases hroom : h.hasRoom bci = true
  · have hu : h.update? bci f = some _ := update?_eq_some.2 ⟨hroom, rfl⟩
    rw [hu]
    exact .inr ⟨_, record?_update? hu, hf _⟩
  · rw [update?, if_neg hroom]
    exact .inl (by simpa using hroom)

/-- The record of a bytecode does not deny a reason, if there is one. -/
def Suspects (h : History) (bci : Nat) (r : Reason) : Prop := h.Wary bci fun s => s.has r ≠ .no

/-- The record of a bytecode says that it caused a recompilation, if there is one. -/
def Blames (h : History) (bci : Nat) : Prop := h.Wary bci fun s => s.recompiled = true

lemma Suspects.grows (hs : h.Suspects bci r) (hg : h.Grows h') : h'.Suspects bci r :=
  Wary.grows hs hg fun _ _ hs => hs.has r

lemma Blames.grows (hb : h.Blames bci) (hg : h.Grows h') : h'.Blames bci :=
  Wary.grows hb hg fun _ _ hs => hs.recompiled

/-- What a trap that is counted leaves in the history, and what is known about it by then. A trap
for which the history is wary was seen before, as far as the method's counts do not deny it. -/
structure Judged (h : History) (d bci : Nat) (r q : Reason) (h' : History) (s : Snapshot) :
    Prop where
  grows : h.Grows h'
  count : h'.count r = saturatingNext (h.count r)
  suspects : h'.Suspects bci q
  snapshot : s.count = saturatingNext (h.count r)
  prior : h.Suspects bci q → h.count r ≠ 0 → s.maybePriorTrap = true
  recompile : h.Blames bci → d ≠ 0 → s.maybePriorRecompile = true

theorem judged_query (d bci : Nat) (h : History) (hr : r.standIn? = some q) :
    Judged h d bci r q (h.query d bci r true).1 (h.query d bci r true).2 := by
  have hgrows := h.grows_query d bci r true
  have hcount : (h.countTrap r).count r = saturatingNext (h.count r) := by
    rw [count_countTrap, if_pos rfl]
  have hsuspects : ((h.countTrap r).update? bci
      fun rec => { rec with state := rec.state.add q }).getD (h.countTrap r) |>.Suspects bci q :=
    wary_update _ bci fun rec => rec.state.has_add q
  simp only [query, hr, if_true] at hgrows ⊢
  cases hu : (h.countTrap r).update? bci fun rec => { rec with state := rec.state.add q } with
  | none =>
    rw [hu] at hgrows hsuspects
    refine ⟨hgrows, hcount, hsuspects, hcount, fun _ hne => ?_, fun _ hne => ?_⟩
    · simp [estimate, hne]
    · simp [estimate, hne]
  | some h' =>
    rw [hu] at hgrows hsuspects
    obtain ⟨hroom, rfl⟩ := update?_eq_some.1 hu
    -- There is room, so being wary means that the record says it.
    have hrecord : ∀ {P : TrapState → Prop},
        h.Wary bci P → P ((h.countTrap r).record bci).state := by
      rintro P (hfull | ⟨rec, hrec, hp⟩)
      · rw [show h.hasRoom bci = true from hroom] at hfull
        cases hfull
      · rwa [show (h.countTrap r).record bci = rec from by
          rw [record, show (h.countTrap r).record? bci = some rec from hrec, Option.getD_some]]
    refine ⟨hgrows, hcount, hsuspects, hcount, fun hs hne => ?_, fun hb hne => ?_⟩
    · have hhas := hrecord hs
      simp only [Snapshot.sharpen, estimate, Bool.and_eq_true, decide_eq_true_eq]
      refine ⟨hne, ?_⟩
      cases hans : TrapState.has ((h.countTrap r).record bci).state q with
      | no => exact absurd hans hhas
      | yes => rfl
      | conservatively => rfl
    · have hrec := hrecord hb
      simp only [Snapshot.sharpen, estimate, Bool.and_eq_true, decide_eq_true_eq]
      exact ⟨hne, hrec⟩

end History
end Bailout
