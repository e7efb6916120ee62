import Bailout.Proofs.Activation.Packed
import Bailout.Restore.Group

/-!
# Entering eliminated monitors

Relocking enters the monitors of a list of owners one after the other, and does nothing else. It
succeeds unless a monitor belongs to another thread, and raises the hold count of each owner by the
number of times that the owner is listed.
-/

namespace Bailout

/-! ### Entering one monitor -/

namespace Monitor

variable {m m' : Monitor} {t : Nat}

/-- A monitor that is free or held by the thread can be entered, as long as its counter has room. -/
lemma exists_enter (ho : m.owner = none ∨ m.owner = some t) (hc : m.holdCount t < counterLimit) :
    ∃ m', m.enter t = .ok m' := by
  rcases ho with ho | ho
  · exact ⟨_, by rw [enter, tryEnter, ho]; rfl⟩
  · rw [holdCount, if_pos ho] at hc
    exact ⟨_, by rw [enter, tryEnter, ho]; simp only [if_true, deepen, if_pos hc]; rfl⟩

/-- Entering a monitor takes it, and raises the hold count by one. -/
lemma enter_spec (h : m.enter t = .ok m') :
    m'.owner = some t ∧ m'.holdCount t = m.holdCount t + 1 := by
  rw [enter, tryEnter] at h
  cases ho : m.owner with
  | none =>
    rw [ho] at h
    cases h
    exact ⟨rfl, by simp [holdCount, ho]⟩
  | some o =>
    simp only [ho] at h
    split_ifs at h with hot
    · subst hot
      unfold deepen at h
      split_ifs at h with hr
      · cases h
        exact ⟨ho, by simp [holdCount, ho]⟩
      · cases h
    · cases h

end Monitor

namespace Store

variable {s : Store} {r q : Ref} {m : Monitor}

lemma monitor_setMonitor_self (h : r.index < s.objects.size) :
    (s.setMonitor r m).monitor r = m := by
  rw [monitor, setMonitor, get_modify_self _ _ h]

lemma monitor_setMonitor_of_ne (h : q ≠ r) : (s.setMonitor r m).monitor q = s.monitor q := by
  rw [monitor, setMonitor, get_modify_of_ne _ _ h, monitor]

/-- Beyond the objects of a store nothing can be changed. -/
lemma setMonitor_of_size_le (h : s.objects.size ≤ r.index) : s.setMonitor r m = s := by
  obtain ⟨objects⟩ := s
  refine congrArg Store.mk (Array.ext (by simp) fun i _ hi => ?_)
  have hne : r.index ≠ i := Nat.ne_of_gt (Nat.lt_of_lt_of_le hi h)
  simp [Array.getElem_modify, hne]

lemma body_setMonitor (s : Store) (r q : Ref) (m : Monitor) :
    (s.setMonitor r m).body q = s.body q := by
  by_cases hq : q = r
  · subst hq
    rcases Nat.lt_or_ge q.index s.objects.size with h | h
    · rw [body, setMonitor, get_modify_self _ _ h, body]
    · rw [setMonitor_of_size_le h]
  · rw [body, setMonitor, get_modify_of_ne _ _ hq, body]

end Store

/-! ### Entering many -/

namespace Restore

/-- Enter the monitors of some objects for a thread, one after the other. -/
def enterAll (t : Nat) (s : Store) (rs : List Ref) : Checked Store :=
  rs.foldlM (fun s r => do return s.setMonitor r (← (s.monitor r).enter t)) s

/-- The monitors of some objects are free for a thread: no other thread owns one, and the counters
have room. -/
def Admits (t : Nat) (s : Store) (rs : List Ref) : Prop :=
  ∀ r ∈ rs, ((s.monitor r).owner = none ∨ (s.monitor r).owner = some t) ∧
    (s.monitor r).holdCount t + rs.count r ≤ counterLimit

/-- What is different once some monitors were entered. -/
structure Enters (t : Nat) (rs : List Ref) (s s' : Store) : Prop where
  size : s'.objects.size = s.objects.size
  body : ∀ r, s'.body r = s.body r
  holdCount : ∀ r, r.index < s.objects.size →
    (s'.monitor r).holdCount t = (s.monitor r).holdCount t + rs.count r

variable {t : Nat} {s s' : Store} {rs : List Ref}

lemma enterAll_cons (r : Ref) (rs : List Ref) : enterAll t s (r :: rs) =
    (s.monitor r).enter t >>= fun m => enterAll t (s.setMonitor r m) rs := by
  rw [enterAll, List.foldlM_cons, bind_assoc]
  rfl

lemma enterAll_append (rs rs' : List Ref) :
    enterAll t s (rs ++ rs') = enterAll t s rs >>= fun s => enterAll t s rs' :=
  List.foldlM_append

/-- Entering monitors changes hold counts and nothing else. -/
theorem enterAll_spec (h : enterAll t s rs = .ok s') : Enters t rs s s' := by
  induction rs generalizing s with
  | nil =>
    cases h
    exact ⟨rfl, fun _ => rfl, fun _ _ => rfl⟩
  | cons r rs ih =>
    rw [enterAll_cons, bind_eq_ok] at h
    obtain ⟨m, hm, h⟩ := h
    have hrest := ih h
    have hsize : (s.setMonitor r m).objects.size = s.objects.size := Store.size_modify _ _ _
    refine ⟨hrest.size.trans hsize, fun q => ?_, fun q hq => ?_⟩
    · rw [hrest.body, Store.body_setMonitor]
    · rw [hrest.holdCount q (hsize ▸ hq), List.count_cons]
      by_cases hqr : r = q
      · subst hqr
        rw [Store.monitor_setMonitor_self hq, (Monitor.enter_spec hm).2, if_pos (by simp)]
        omega
      · rw [Store.monitor_setMonitor_of_ne (Ne.symm hqr), if_neg (by simpa using hqr), Nat.add_zero]

theorem exists_enterAll (h : Admits t s rs) : ∃ s', enterAll t s rs = .ok s' := by
  induction rs generalizing s with
  | nil => exact ⟨s, rfl⟩
  | cons r rs ih =>
    obtain ⟨ho, hc⟩ := h r List.mem_cons_self
    rw [List.count_cons_self] at hc
    obtain ⟨m, hm⟩ := Monitor.exists_enter ho (by omega)
    obtain ⟨howner, hhold⟩ := Monitor.enter_spec hm
    have hrest : Admits t (s.setMonitor r m) rs := by
      intro q hq
      by_cases hqr : q = r
      · subst hqr
        rcases Nat.lt_or_ge q.index s.objects.size with hlt | hge
        · rw [Store.monitor_setMonitor_self hlt]
          exact ⟨.inr howner, by omega⟩
        · rw [Store.setMonitor_of_size_le hge]
          exact ⟨ho, by omega⟩
      · rw [Store.monitor_setMonitor_of_ne hqr]
        obtain ⟨ho', hc'⟩ := h q (List.mem_cons_of_mem _ hq)
        rw [List.count_cons_of_ne (Ne.symm hqr)] at hc'
        exact ⟨ho', hc'⟩
    obtain ⟨s', hs'⟩ := ih hrest
    exact ⟨s', by rw [enterAll_cons, hm, ok_bind, hs']⟩

end Restore

/-! ### Relocking -/

/-- The object whose monitor is to be entered for an eliminated one. -/
def Guard.entered? (g : Guard) : Option Ref := if g.eliminated then g.owner else none

/-- The owners of the eliminated monitors of some activations, in order. -/
def CompiledFrame.eliminatedOwners (f : CompiledFrame) (t : Restored) (ss : List Scope) :
    Checked (List Ref) := do
  let gss ← ss.mapM (f.guards t)
  return gss.flatten.filterMap Guard.entered?

namespace Restore

variable {f : CompiledFrame} {table : Restored} {mode : Mode} {failed : Bool} {s : Store}
  {t : Thread}

/-- A thread enters the monitors of some objects at once: it is not just being inspected, or waits
in none of them. -/
def AtOnce (mode : Mode) (t : Thread) (rs : List Ref) : Prop :=
  mode = .inspect → ∀ r ∈ rs, t.isWaitingOn r = false

lemma AtOnce.of_mode (hmode : mode ≠ .inspect ∨ t.waitingOn = none) (rs : List Ref) :
    AtOnce mode t rs := by
  intro hinspect r _
  simp [Thread.isWaitingOn, hmode.resolve_left (absurd hinspect)]

lemma AtOnce.mono {rs rs' : List Ref} (h : AtOnce mode t rs) (hrs : ∀ r ∈ rs', r ∈ rs) :
    AtOnce mode t rs' :=
  fun hinspect r hr => h hinspect r (hrs r hr)

lemma enterFor_eq {r : Ref} (h : mode = .inspect → t.isWaitingOn r = false) :
    enterFor s t mode r = (s.monitor r).enter t.id >>= fun m => .ok (s.setMonitor r m, t) := by
  rw [enterFor, if_neg]
  · rfl
  · rintro ⟨hm, hw⟩
    rw [h hm] at hw
    cases hw

lemma foldlM_relockOne {gs : List Guard} (hwait : AtOnce mode t (gs.filterMap Guard.entered?))
    (hgs : ∀ g ∈ gs, g.missing = true → g.owner = none ∧ (g.eliminated = true → failed = true))
    (s : Store) :
    gs.foldlM (relockOne mode failed) (s, t) =
      enterAll t.id s (gs.filterMap Guard.entered?) >>= fun s => .ok (s, t) := by
  induction gs generalizing s with
  | nil => rfl
  | cons g gs ih =>
    have ih := ih (hwait.mono fun r hr => ((List.sublist_cons_self g gs).filterMap _).subset hr)
      fun g' hg' => hgs g' (List.mem_cons_of_mem _ hg')
    have hentered : g.entered? = if g.eliminated then g.owner else none := rfl
    rw [List.foldlM_cons, List.filterMap_cons, relockOne, hentered]
    split_ifs with he hm
    · obtain ⟨ho, hf⟩ := hgs g List.mem_cons_self hm
      obtain rfl := hf he
      rw [ho]
      exact ih s
    · cases ho : g.owner with
      | none => exact ih s
      | some r =>
        have hr : r ∈ (g :: gs).filterMap Guard.entered? :=
          List.mem_filterMap.2 ⟨g, List.mem_cons_self, by rw [hentered, if_pos he, ho]⟩
        simp only
        rw [enterFor_eq fun hinspect => hwait hinspect r hr, enterAll_cons, bind_assoc, bind_assoc]
        exact congrArg _ (funext fun m => ih _)
    · exact ih s

/-- Relocking the activations of a frame enters the owners of their eliminated monitors. -/
theorem relockAll_eq {ss : List Scope} {gss : List (List Guard)}
    (hwait : AtOnce mode t (gss.flatten.filterMap Guard.entered?))
    (hgss : List.Forall₂ (fun s gs => f.guards table s = .ok gs) ss gss)
    (hmissing : ∀ g ∈ gss.flatten, g.missing = true →
      g.owner = none ∧ (g.eliminated = true → failed = true)) (s : Store) :
    relockAll f table mode failed (s, t) ss =
      enterAll t.id s (gss.flatten.filterMap Guard.entered?) >>= fun s =>
        .ok (gss.flatten.any Guard.eliminated, s, t) := by
  induction hgss generalizing s with
  | nil => rfl
  | @cons x gs ss gss hgs _ ih =>
    rw [List.flatten_cons] at hmissing hwait
    rw [List.filterMap_append] at hwait
    have ih := ih (hwait.mono fun r => List.mem_append_right _)
      fun g hg => hmissing g (List.mem_append_right _ hg)
    rw [relockAll, hgs, ok_bind, relock,
      foldlM_relockOne (hwait.mono fun r => List.mem_append_left _)
        fun g hg => hmissing g (List.mem_append_left _ hg),
      List.flatten_cons, List.filterMap_append, enterAll_append, List.any_append]
    cases enterAll t.id s (gs.filterMap Guard.entered?) with
    | error e => rfl
    | ok s₁ =>
      simp only [ok_bind, pure_bind, ih s₁]
      cases enterAll t.id s₁ (gss.flatten.filterMap Guard.entered?) <;> rfl

/-- If guards were relocked, then an owner is missing only where objects were refused. -/
lemma failed_of_foldlM_relockOne {gs : List Guard} {st st' : Store × Thread}
    (h : gs.foldlM (relockOne mode failed) st = .ok st') {g : Guard} (hg : g ∈ gs)
    (he : g.eliminated = true) (hm : g.missing = true) : failed = true := by
  induction gs generalizing st with
  | nil => cases hg
  | cons x gs ih =>
    rw [List.foldlM_cons, bind_eq_ok] at h
    obtain ⟨st₁, hx, h⟩ := h
    rcases List.mem_cons.1 hg with rfl | hg
    · rw [relockOne, if_pos he, if_pos hm, bind_eq_ok] at hx
      obtain ⟨_, hf, -⟩ := hx
      exact ensure_eq_ok.1 hf
    · exact ih h hg

/-- If activations were relocked, their guards were found, and an owner is missing only where
objects were refused. -/
lemma exists_guards_of_relockAll {ss : List Scope} {st : Store × Thread}
    {x : Bool × Store × Thread} (h : relockAll f table mode failed st ss = .ok x) :
    ∃ gss, List.Forall₂ (fun s gs => f.guards table s = .ok gs) ss gss ∧
      ∀ g ∈ gss.flatten, g.eliminated = true → g.missing = true → failed = true := by
  induction ss generalizing st x with
  | nil => exact ⟨[], .nil, by simp⟩
  | cons s ss ih =>
    simp only [relockAll, relock, bind_eq_ok, pure_eq_ok] at h
    obtain ⟨gs, hgs, _, ⟨st₁, hfold, rfl⟩, _, hrest, -⟩ := h
    obtain ⟨gss, hgss, hall⟩ := ih hrest
    refine ⟨gs :: gss, .cons hgs hgss, fun g hg he hm => ?_⟩
    rcases List.mem_append.1 (List.flatten_cons ▸ hg) with hg | hg
    · exact failed_of_foldlM_relockOne hfold hg he hm
    · exact hall g hg he hm

lemma mem_guards {ss : List Scope} {gss : List (List Guard)}
    (hgss : List.Forall₂ (fun s gs => f.guards table s = .ok gs) ss gss) {g : Guard}
    (hg : g ∈ gss.flatten) : ∃ s ∈ ss, ∃ h ∈ s.monitors, f.guard table h = .ok g := by
  obtain ⟨gs, hgs, hg⟩ := List.mem_flatten.1 hg
  obtain ⟨s, hs, hguards⟩ := exists_mem_of_forall₂ hgss hgs
  obtain ⟨h, hh, hguard⟩ := exists_mem_of_forall₂ (mapM_eq_ok.1 hguards) hg
  exact ⟨s, hs, h, hh, hguard⟩

/-- If activations were relocked, their guards were found, and only those whose objects were refused
lack an owner that compiled code left out. -/
lemma exists_entered_of_relockAll {ss : List Scope} {st : Store × Thread}
    {x : Bool × Store × Thread} (h : relockAll f table mode failed st ss = .ok x) :
    ∃ gss, List.Forall₂ (fun s gs => f.guards table s = .ok gs) ss gss ∧
      f.eliminatedOwners table ss = .ok (gss.flatten.filterMap Guard.entered?) ∧
      ∀ g ∈ gss.flatten, g.missing = true →
        g.owner = none ∧ (g.eliminated = true → failed = true) := by
  obtain ⟨gss, hgss, hfailed⟩ := exists_guards_of_relockAll h
  refine ⟨gss, hgss, ?_, fun g hg hm => ?_⟩
  · rw [CompiledFrame.eliminatedOwners, mapM_eq_ok.2 hgss]
    rfl
  · obtain ⟨x, -, y, -, hguard⟩ := mem_guards hgss hg
    exact ⟨((CompiledFrame.guard_spec hguard).2 hm).1, fun he => hfailed g hg he hm⟩

/-- Relocking that succeeds has entered the owners of all eliminated monitors. -/
theorem relockAll_spec (hmode : mode ≠ .inspect ∨ t.waitingOn = none) {ss : List Scope}
    {s s' : Store} {b : Bool} {u : Thread}
    (h : relockAll f table mode failed (s, t) ss = .ok (b, s', u)) :
    u = t ∧ ∃ rs, f.eliminatedOwners table ss = .ok rs ∧ Enters t.id rs s s' := by
  obtain ⟨gss, hgss, howners, hmissing⟩ := exists_entered_of_relockAll h
  rw [relockAll_eq (.of_mode hmode _) hgss hmissing, bind_eq_ok] at h
  obtain ⟨s₁, hs₁, h⟩ := h
  cases h
  exact ⟨rfl, _, howners, enterAll_spec hs₁⟩

/-- Relocking comes to the same for any thread of the same id, and in any mode, as long as no relock
is put off. -/
theorem relockAll_congr {mode' : Mode} {t' : Thread} {ss : List Scope} {x : Bool × Store × Thread}
    (hid : t'.id = t.id) (hwait : ∀ rs, f.eliminatedOwners table ss = .ok rs →
      AtOnce mode t rs ∧ AtOnce mode' t' rs)
    (h : relockAll f table mode failed (s, t) ss = .ok x) :
    x.2.2 = t ∧ relockAll f table mode' failed (s, t') ss = .ok (x.1, x.2.1, t') := by
  obtain ⟨gss, hgss, howners, hmissing⟩ := exists_entered_of_relockAll h
  obtain ⟨hwait, hwait'⟩ := hwait _ howners
  rw [relockAll_eq hwait hgss hmissing, bind_eq_ok] at h
  obtain ⟨s', hs', h⟩ := h
  cases h
  refine ⟨rfl, ?_⟩
  rw [relockAll_eq hwait' hgss hmissing, hid, hs']
  rfl

/-- Relocking succeeds if every owner that was eliminated is there and every monitor is free. -/
theorem exists_relockAll (hmode : mode ≠ .inspect ∨ t.waitingOn = none) {ss : List Scope}
    {rs : List Ref} (hrs : f.eliminatedOwners table ss = .ok rs)
    (hthere : ∀ s ∈ ss, ∀ h ∈ s.monitors, ∀ id, h.owner = .eliminated id →
      (table.get id).isSome = true) {s : Store} (hadmits : Admits t.id s rs) :
    ∃ b s', relockAll f table mode failed (s, t) ss = .ok (b, s', t) ∧ Enters t.id rs s s' := by
  simp only [CompiledFrame.eliminatedOwners, bind_eq_ok, pure_eq_ok] at hrs
  obtain ⟨gss, hgss, rfl⟩ := hrs
  have hgss := mapM_eq_ok.1 hgss
  obtain ⟨s', hs'⟩ := exists_enterAll hadmits
  rw [relockAll_eq (.of_mode hmode _) hgss fun g hg hm => ?_, hs']
  · exact ⟨_, _, rfl, enterAll_spec hs'⟩
  · obtain ⟨x, hx, y, hy, hguard⟩ := mem_guards hgss hg
    obtain ⟨-, hmissing⟩ := CompiledFrame.guard_spec hguard
    obtain ⟨-, id, hid, hnone⟩ := hmissing hm
    have := hthere x hx y hy id hid
    rw [hnone] at this
    cases this

end Restore
end Bailout
