import Bailout.Proofs.Restore.Restoration
import Bailout.Unwind.Fetch

/-!
# Leaving the monitors of a plan

Releasing packed activations leaves the monitors that they hold, those that were just entered and
those that compiled code held all along, and does nothing else. It succeeds exactly if the thread
holds every monitor as often as it is listed, and lowers the hold counts by that number.
-/

namespace Bailout

/-! ### Leaving one monitor -/

namespace Monitor

variable {m m' : Monitor} {t : Nat}

lemma exists_exit? (h : 0 < m.holdCount t) : ∃ m', m.exit? t = some m' := by
  have ho : m.owner = some t := by
    by_contra ho
    simp [holdCount, ho] at h
  unfold exit?
  split_ifs
  · exact ⟨_, rfl⟩
  · exact ⟨_, rfl⟩

lemma exit?_spec (h : m.exit? t = some m') : m'.holdCount t + 1 = m.holdCount t := by
  unfold exit? at h
  split_ifs at h with ho hr
  · cases h
    simp only [holdCount, ho, if_true]
    omega
  · cases h
    simp only [holdCount, ho, if_true]
    simp
    omega

end Monitor

/-! ### Leaving many -/

namespace Unwind

variable {t : Nat} {s s' : Store} {r : Ref} {rs : List Ref}

lemma leave_spec (h : leave t s r = .ok s') (q : Ref) :
    (s'.monitor q).holdCount t + [r].count q = (s.monitor q).holdCount t := by
  unfold leave at h
  cases hm : (s.monitor r).exit? t with
  | none =>
    rw [hm] at h
    cases h
  | some m =>
    rw [hm] at h
    cases h
    by_cases hq : q = r
    · subst hq
      have hcount := Monitor.exit?_spec hm
      rcases Nat.lt_or_ge q.index s.objects.size with hlt | hge
      · rw [Store.monitor_setMonitor_self hlt, List.count_cons_self, List.count_nil]
        exact hcount
      · -- Where there is no object, no monitor is held.
        rw [Store.monitor_of_size_le hge] at hcount
        simp [Monitor.holdCount] at hcount
    · rw [Store.monitor_setMonitor_of_ne hq, List.count_cons_of_ne (Ne.symm hq), List.count_nil,
        Nat.add_zero]

lemma exists_leave (h : 0 < (s.monitor r).holdCount t) : ∃ s', leave t s r = .ok s' := by
  obtain ⟨m, hm⟩ := Monitor.exists_exit? h
  exact ⟨_, by rw [leave, hm]; rfl⟩

/-- Leaving monitors lowers each hold count by the number of times that the object is listed. -/
theorem foldlM_leave_spec (h : rs.foldlM (leave t) s = .ok s') (q : Ref) :
    (s'.monitor q).holdCount t + rs.count q = (s.monitor q).holdCount t := by
  induction rs generalizing s with
  | nil =>
    cases h
    rfl
  | cons r rs ih =>
    rw [List.foldlM_cons, bind_eq_ok] at h
    obtain ⟨s₁, hr, h⟩ := h
    rw [← leave_spec hr q, ← ih h, ← List.singleton_append, List.count_append]
    omega

/-- Monitors can be left exactly if the thread holds them as often as they are listed. -/
theorem exists_foldlM_leave_iff :
    (∃ s', rs.foldlM (leave t) s = .ok s') ↔
      ∀ q, rs.count q ≤ (s.monitor q).holdCount t := by
  constructor
  · rintro ⟨s', h⟩ q
    exact foldlM_leave_spec h q ▸ Nat.le_add_left _ _
  · intro h
    induction rs generalizing s with
    | nil => exact ⟨s, rfl⟩
    | cons r rs ih =>
      have hr := h r
      rw [List.count_cons_self] at hr
      obtain ⟨s₁, hs₁⟩ := exists_leave (Nat.lt_of_lt_of_le (Nat.succ_pos _) hr)
      obtain ⟨s', hs'⟩ := ih (s := s₁) fun q => by
        have hspec := leave_spec hs₁ q
        have hq := h q
        rw [← List.singleton_append, List.count_append] at hq
        omega
      exact ⟨s', by rw [List.foldlM_cons, hs₁, ok_bind, hs']⟩

/-! ### The monitors of a frame -/

/-- The objects whose monitors packed activations hold, in the order in which they are left. -/
def heldBy (ps : List Packed) : List Ref := ps.flatMap fun p => p.monitors.reverse.filterMap id

lemma release_eq (t : Nat) (s : Store) (ps : List Packed) :
    release t s ps = (heldBy ps).foldlM (leave t) s := by
  induction ps generalizing s with
  | nil => rfl
  | cons p ps ih =>
    rw [release, List.foldlM_cons, heldBy, List.flatMap_cons, List.foldlM_append]
    exact congrArg _ (funext ih)

end Unwind

namespace CompiledFrame

variable {f : CompiledFrame} {table : Restored} {h : HeldMonitor} {r : DebugRecord} {q : Ref}
  {ss : List Scope} {ps : List Packed}

/-- The object that owns a monitor. -/
def owner? (f : CompiledFrame) (t : Restored) (h : HeldMonitor) : Option Ref :=
  (f.resolve t h.owner).toOption.bind Word.object?

/-- The object whose monitor compiled code really holds for one that is listed. -/
def kept? (f : CompiledFrame) (t : Restored) (h : HeldMonitor) : Option Ref :=
  if h.eliminated then none else f.owner? t h

/-- The objects whose monitors compiled code really holds, one for each monitor that was not
eliminated. -/
def kept (f : CompiledFrame) (t : Restored) (r : DebugRecord) : List Ref :=
  (r.scopes.flatMap Scope.monitors).filterMap (f.kept? t)

/-- What is packed of a monitor is its owner. -/
lemma lockOf_of_guard {g : Guard} (hg : f.guard table h = .ok g) :
    Packed.lockOf g = f.owner? table h := by
  unfold guard at hg
  split at hg
  next id hid =>
    cases hg
    simp only [Packed.lockOf, owner?, hid, resolve]
    cases table.get id <;> rfl
  next =>
    obtain ⟨w, hw, hg⟩ := bind_eq_ok.1 hg
    cases hg
    simp [Packed.lockOf, owner?, hw, Except.toOption]

lemma filterMap_monitors {s : Scope} {p : Packed} (hp : Packed.Of f table s p) :
    p.monitors.filterMap id = s.monitors.filterMap (f.owner? table) := by
  obtain ⟨gs, hgs, hmonitors⟩ := hp.monitors
  rw [hmonitors]
  clear hmonitors
  replace hgs := mapM_eq_ok.1 hgs
  generalize s.monitors = hs at hgs ⊢
  induction hgs with
  | nil => rfl
  | cons hg _ ih =>
    rw [List.map_cons, List.filterMap_cons, List.filterMap_cons, lockOf_of_guard hg, ih]
    rfl

/-- A monitor is either entered on behalf of the thread or held all along. -/
lemma count_owner? (hs : List HeldMonitor) : (hs.filterMap (f.owner? table)).count q =
    (hs.filterMap (f.entered? table)).count q + (hs.filterMap (f.kept? table)).count q := by
  induction hs with
  | nil => rfl
  | cons h hs ih =>
    cases he : h.eliminated with
    | true =>
      have hentered : f.entered? table h = f.owner? table h := if_pos he
      have hkept : f.kept? table h = none := if_pos he
      rw [List.filterMap_cons, List.filterMap_cons, List.filterMap_cons, hentered, hkept]
      cases f.owner? table h with
      | none => exact ih
      | some x =>
        simp only [List.count_cons, ih]
        omega
    | false =>
      have hentered : f.entered? table h = none := if_neg (by simp [he])
      have hkept : f.kept? table h = f.owner? table h := if_neg (by simp [he])
      rw [List.filterMap_cons, List.filterMap_cons, List.filterMap_cons, hentered, hkept]
      cases f.owner? table h with
      | none => exact ih
      | some x =>
        simp only [List.count_cons, ih]
        omega

/-- Packed activations hold the monitors that were entered for the frame and those that compiled
code held. -/
theorem count_heldBy (hps : List.Forall₂ (Packed.Of f table) r.scopes ps) :
    (Unwind.heldBy ps).count q = (f.owners table r).count q + (f.kept table r).count q := by
  have hheld : (Unwind.heldBy ps).count q =
      ((r.scopes.flatMap Scope.monitors).filterMap (f.owner? table)).count q := by
    generalize r.scopes = ss at hps
    induction hps with
    | nil => rfl
    | @cons s p ss ps hp _ ih =>
      rw [Unwind.heldBy, List.flatMap_cons, List.count_append, List.filterMap_reverse,
        List.count_reverse, filterMap_monitors hp, List.flatMap_cons, List.filterMap_append,
        List.count_append]
      exact congrArg _ ih
  have howners : (f.owners table r).count q =
      ((r.scopes.flatMap Scope.monitors).filterMap (f.entered? table)).count q :=
    (((List.reverse_perm _).flatMap_right _).filterMap _).count_eq q
  rw [hheld, count_owner?, howners, kept]

end CompiledFrame
end Bailout
