import Bailout.Machine.Trap
import Bailout.Proofs.Round.Code
import Bailout.Proofs.Trap.Growth

/-!
# What a trap does to methods and code

Whatever happens to a method, its state only grows: the history in its profile does, invalidations
are never taken back, and a method that was given up stays so. A trap is taken apart into what is
learnt when it is judged and what follows from the verdict.
-/

namespace Bailout

/-! ### States of methods -/

/-- A profile that knows what another does, and perhaps more. -/
structure Profile.Grows (p p' : Profile) : Prop where
  history : p.history.Grows p'.history
  decompiles : p.decompiles ≤ p'.decompiles

lemma Profile.Grows.refl (p : Profile) : p.Grows p := ⟨.refl _, Nat.le_refl _⟩

lemma Profile.Grows.trans {p p' p'' : Profile} (h : p.Grows p') (h' : p'.Grows p'') :
    p.Grows p'' :=
  ⟨h.history.trans h'.history, Nat.le_trans h.decompiles h'.decompiles⟩

namespace MethodState

variable {s s' s'' : MethodState} {c : Config} {bci cutoff : Nat} {r : Reason} {a : Action}
  {p : Profile}

/-- A state that knows what another does, and perhaps more. -/
structure Grows (s s' : MethodState) : Prop where
  profile : ∀ p, s.profile = some p → ∃ p', s'.profile = some p' ∧ p.Grows p'
  notCompilable : s.notCompilable = true → s'.notCompilable = true

lemma Grows.of_eq (hp : s'.profile = s.profile)
    (hn : s.notCompilable = true → s'.notCompilable = true) : s.Grows s' :=
  ⟨fun p h => ⟨p, hp.trans h, .refl p⟩, hn⟩

lemma Grows.refl (s : MethodState) : s.Grows s := .of_eq rfl id

lemma Grows.trans (h : s.Grows s') (h' : s'.Grows s'') : s.Grows s'' where
  profile p hp := by
    obtain ⟨p', hp', hg⟩ := h.profile p hp
    obtain ⟨p'', hp'', hg'⟩ := h'.profile p' hp'
    exact ⟨p'', hp'', hg.trans hg'⟩
  notCompilable hn := h'.notCompilable (h.notCompilable hn)

/-- Another profile takes the place of one that knows less, or of none. -/
lemma grows_withProfile (hp : s.profile = none ∨ ∃ p₀, s.profile = some p₀ ∧ p₀.Grows p) :
    s.Grows { s with profile := some p } := by
  refine ⟨fun p' hp' => ⟨p, rfl, ?_⟩, id⟩
  rcases hp with hp | ⟨p₀, hp, hg⟩
  · rw [hp] at hp'
    cases hp'
  · obtain rfl : p₀ = p' := Option.some.inj (hp.symm.trans hp')
    exact hg

lemma grows_mapProfile (s : MethodState) {f : Profile → Profile}
    (hf : ∀ p : Profile, p.Grows (f p)) : s.Grows (s.mapProfile f) := by
  refine ⟨fun p hp => ⟨f p, ?_, hf p⟩, id⟩
  rw [mapProfile, hp, Option.map_some]

lemma grows_mapHistory (s : MethodState) {f : History → History}
    (hf : ∀ h : History, h.Grows (f h)) : s.Grows (s.mapHistory f) :=
  s.grows_mapProfile fun p => ⟨hf p.history, Nat.le_refl _⟩

lemma grows_giveUp (s : MethodState) : s.Grows s.giveUp := .of_eq rfl fun _ => rfl

lemma grows_resetCounters (s : MethodState) : s.Grows s.resetCounters := .of_eq rfl id

/-- How often the method was charged for an invalidation. -/
def decompiles (s : MethodState) : Nat := (s.profile.map Profile.decompiles).getD 0

lemma decompiles_of_profile (hp : s.profile = some p) : s.decompiles = p.decompiles := by
  rw [decompiles, hp, Option.map_some, Option.getD_some]

@[simp] lemma decompiles_mapHistory (s : MethodState) (f : History → History) :
    (s.mapHistory f).decompiles = s.decompiles := by
  cases hp : s.profile <;> simp [decompiles, mapHistory, mapProfile, hp]

/-- A method that has a profile is charged for an invalidation. -/
lemma charge_spec (h : s.charge cutoff = .ok s') :
    s.Grows s' ∧ s'.decompiles ≤ s.decompiles + 1 ∧ ∀ p, s.profile = some p →
      s'.profile = some { p with decompiles := p.decompiles + 1 } := by
  unfold charge at h
  cases hp : s.profile with
  | none =>
    rw [hp] at h
    cases h
    exact ⟨.refl s, Nat.le_succ _, by simp⟩
  | some p =>
    simp only [hp, bind_eq_ok, pure_eq_ok, Profile.countDecompile] at h
    obtain ⟨_, hcount, rfl⟩ := h
    split_ifs at hcount
    cases hcount
    have hgrows : s.Grows { s with profile := some { p with decompiles := p.decompiles + 1 } } :=
      grows_withProfile (.inr ⟨p, hp, .refl _, Nat.le_succ _⟩)
    split_ifs
    · exact ⟨hgrows.trans (grows_giveUp _), by simp [decompiles, giveUp, hp], by simp [giveUp]⟩
    · exact ⟨hgrows, by simp [decompiles, hp], by simp⟩

/-- A method can be charged until its counter is used up. -/
lemma exists_charge (h : s.decompiles + 1 < counterLimit) :
    ∃ s', s.charge cutoff = .ok s' := by
  unfold charge
  cases hp : s.profile with
  | none => exact ⟨s, rfl⟩
  | some p =>
    rw [decompiles_of_profile hp] at h
    exact ⟨_, bind_eq_ok.2 ⟨_, if_pos h, rfl⟩⟩

lemma resolveFor_spec (s : MethodState) (classes : ClassTable) (q : Request) :
    (s.resolveFor classes q).profile = s.profile ∧
      (s.resolveFor classes q).notCompilable = s.notCompilable ∧
      (s.resolveFor classes q).method = s.method := by
  unfold resolveFor
  repeat' split
  all_goals exact ⟨rfl, rfl, rfl⟩

lemma grows_resolveFor (s : MethodState) (classes : ClassTable) (q : Request) :
    s.Grows (s.resolveFor classes q) ∧ (s.resolveFor classes q).decompiles = s.decompiles := by
  obtain ⟨hp, hn, -⟩ := s.resolveFor_spec classes q
  exact ⟨.of_eq hp fun h => hn.trans h, by rw [decompiles, hp, decompiles]⟩

lemma grows_profiled (s : MethodState) (c : Config) :
    s.Grows (s.profiled c) ∧ (s.profiled c).decompiles = s.decompiles := by
  unfold profiled
  split_ifs
  · cases hp : s.profile with
    | none => exact ⟨grows_withProfile (.inl hp), by simp [decompiles, ensureProfile, profileWith,
        hp, Profile.empty]⟩
    | some p =>
      rw [ensureProfile, profileWith, hp, Option.getD_some]
      exact ⟨grows_withProfile (.inr ⟨p, hp, .refl p⟩), by simp [decompiles, hp]⟩
  · exact ⟨.refl s, rfl⟩

lemma grows_consult (s : MethodState) (bci : Nat) (r : Reason) (a : Action) :
    s.Grows (s.consult bci r a).2 ∧ (s.consult bci r a).2.decompiles = s.decompiles := by
  unfold consult
  cases hp : s.profile with
  | none => exact ⟨.refl s, rfl⟩
  | some p =>
    simp only
    split_ifs
    · exact ⟨grows_withProfile (.inr ⟨p, hp, p.history.grows_query _ _ _ _, Nat.le_refl _⟩),
        by simp [decompiles, hp]⟩
    · exact ⟨.refl s, rfl⟩
    · exact ⟨.refl s, rfl⟩

/-- What is recorded per bytecode is recorded unless the trap asks for nothing. -/
lemma records_of_standIn? {r' : Reason} (hr : r.standIn? = some r') (ha : a ≠ .leave) :
    records r a = true := by
  have ht : r ≠ .tenured := by
    rintro rfl
    cases hr
  simp [records, ht, ha]

lemma consult_of_records (bci : Nat) (hp : s.profile = some p) (hr : records r a = true) :
    s.consult bci r a = (some (p.history.query p.decompiles bci r true).2,
      { s with profile := some { p with
          history := (p.history.query p.decompiles bci r true).1 } }) := by
  simp only [consult, hp, if_pos hr]

lemma grows_noteInvalidation (s : MethodState) (bci : Nat) (r : Reason) (a : Action) :
    s.Grows (s.noteInvalidation bci r a) := by
  refine s.grows_mapHistory fun h => ?_
  have hnoted := h.grows_update bci
    (f := fun rec => { rec with state := rec.state.setRecompiled true })
    fun rec => rec.state.grows_setRecompiled
  simp only
  split_ifs
  · exact hnoted.trans (History.grows_countTenure _)
  · exact h.grows_countTenure
  · exact hnoted
  · exact .refl h

/-- A trap that is recorded and invalidated code leaves a history that blames the bytecode. -/
lemma noteInvalidation_spec (bci : Nat) (hp : s.profile = some p) (hr : records r a = true) :
    ∃ p', (s.noteInvalidation bci r a).profile = some p' ∧ p.Grows p' ∧
      p'.history.Blames bci := by
  obtain ⟨p', hp', hg⟩ := (s.grows_noteInvalidation bci r a).profile p hp
  refine ⟨p', hp', hg, ?_⟩
  have hblames : ((p.history.update? bci fun rec =>
      { rec with state := rec.state.setRecompiled true }).getD p.history).Blames bci :=
    History.wary_update _ bci fun _ => rfl
  simp only [noteInvalidation, mapHistory, mapProfile, hp, Option.map_some, if_pos hr,
    Option.some.injEq] at hp'
  rw [← hp']
  simp only
  split_ifs
  · exact hblames.grows (History.grows_countTenure _)
  · exact hblames

lemma grows_recordInterpreted (s : MethodState) (c : Config) (bci : Nat) (r : Reason) :
    s.Grows (s.recordInterpreted c bci r) :=
  (s.grows_profiled c).1.trans <| grows_mapProfile _ fun p =>
    ⟨p.history.grows_query _ _ _ _, Nat.le_refl _⟩

lemma decompiles_recordInterpreted (s : MethodState) (c : Config) (bci : Nat) (r : Reason) :
    (s.recordInterpreted c bci r).decompiles = s.decompiles := by
  rw [← (s.grows_profiled c).2]
  cases hp : (s.profiled c).profile <;>
    simp [decompiles, recordInterpreted, mapProfile, hp, Profile.recordInterpreted]

end MethodState

/-! ### Programs -/

namespace Program

variable {p p' p'' : Program} {M ref cutoff generation : Nat} {b : Bool}

/-- Every method knows what it did, and perhaps more. -/
def Grows (p p' : Program) : Prop := ∀ M, (p.method M).Grows (p'.method M)

lemma Grows.refl (p : Program) : p.Grows p := fun _ => .refl _

lemma Grows.trans (h : p.Grows p') (h' : p'.Grows p'') : p.Grows p'' :=
  fun M => (h M).trans (h' M)

lemma Grows.of_eq (h : p'.methods = p.methods) : p.Grows p' := by
  intro M
  rw [method, method, h]
  exact .refl _

/-- One method of a program changes, if it is there. -/
lemma method_modifyMethod (p : Program) (ref M : Nat) (f : MethodState → MethodState) :
    (p.modifyMethod ref f).method M = p.method M ∨
      M = ref ∧ (p.modifyMethod ref f).method M = f (p.method ref) := by
  by_cases hM : M = ref
  · subst hM
    rcases Nat.lt_or_ge M p.methods.size with hlt | hge
    · exact .inr ⟨rfl, p.method_modifyMethod_self f hlt⟩
    · refine .inl ?_
      simp [method, modifyMethod, Array.getD_eq_getD_getElem?, hge]
  · exact .inl (p.method_modifyMethod_of_ne f hM)

lemma grows_modifyMethod {f : MethodState → MethodState}
    (hf : (p.method ref).Grows (f (p.method ref))) : p.Grows (p.modifyMethod ref f) := by
  intro M
  rcases p.method_modifyMethod ref M f with h | ⟨rfl, h⟩
  · exact h ▸ .refl _
  · exact h ▸ hf

lemma decompiles_modifyMethod {f : MethodState → MethodState}
    (hf : (f (p.method ref)).decompiles = (p.method ref).decompiles) (M : Nat) :
    ((p.modifyMethod ref f).method M).decompiles = (p.method M).decompiles := by
  rcases p.method_modifyMethod ref M f with h | ⟨rfl, h⟩
  · rw [h]
  · rw [h, hf]

@[simp] lemma size_methods_modifyMethod (f : MethodState → MethodState) :
    (p.modifyMethod ref f).methods.size = p.methods.size := Array.size_modify

/-- A method is charged at most once for an invalidation. -/
lemma charge_spec (h : p.charge ref cutoff = .ok p') :
    p.Grows p' ∧ p'.methods.size = p.methods.size ∧
      ∀ M, (p'.method M).decompiles ≤ (p.method M).decompiles + 1 := by
  unfold charge at h
  split_ifs at h
  · cases h
    exact ⟨.refl _, rfl, fun _ => Nat.le_succ _⟩
  · simp only [bind_eq_ok, pure_eq_ok] at h
    obtain ⟨s, hs, rfl⟩ := h
    obtain ⟨hgrows, hdecompiles, -⟩ := MethodState.charge_spec hs
    refine ⟨grows_modifyMethod hgrows, size_methods_modifyMethod _, fun M => ?_⟩
    rcases p.method_modifyMethod (p.code.region ref).method.ref M fun _ => s with h | ⟨rfl, h⟩
    · rw [h]
      exact Nat.le_succ _
    · rw [h]
      exact hdecompiles

lemma grows_invalidate (h : p.invalidate ref cutoff = .ok (b, p')) :
    p.Grows p' ∧ p'.methods.size = p.methods.size ∧
      ∀ M, (p'.method M).decompiles ≤ (p.method M).decompiles + 1 := by
  simp only [invalidate] at h
  split_ifs at h
  · simp only [bind_eq_ok, pure_eq_ok, Prod.mk.injEq] at h
    obtain ⟨p₁, hp, -, rfl⟩ := h
    obtain ⟨hgrows, hsize, hdecompiles⟩ := charge_spec hp
    exact ⟨(Grows.of_eq rfl).trans hgrows, hsize, hdecompiles⟩
  · simp only [pure_eq_ok, Prod.mk.injEq] at h
    obtain ⟨-, rfl⟩ := h
    exact ⟨.refl p, rfl, fun _ => Nat.le_succ _⟩

/-- Whether it was news that a region was invalidated: if not, nothing happens. -/
lemma invalidate_news (h : p.invalidate ref cutoff = .ok (b, p')) :
    b = (p.code.state ref).inUse ∧ (b = false → p' = p) := by
  simp only [invalidate] at h
  rw [CodeCache.close_inUse] at h
  split_ifs at h with hnews
  · simp only [bind_eq_ok, pure_eq_ok, Prod.mk.injEq] at h
    obtain ⟨_, -, rfl, -⟩ := h
    exact ⟨hnews.symm, by simp⟩
  · simp only [pure_eq_ok, Prod.mk.injEq] at h
    obtain ⟨rfl, rfl⟩ := h
    exact ⟨by simpa using hnews, fun _ => rfl⟩

lemma exists_invalidate
    (h : (p.method (p.code.region ref).method.ref).decompiles + 1 < counterLimit) :
    ∃ b p', p.invalidate ref cutoff = .ok (b, p') := by
  simp only [invalidate]
  split_ifs
  · have hregion := (p.code.changesAt_close ref).region ref
    have hcharge : ∃ p', ({ p with code := { (p.code.close ref).2 with
        invalidations := (p.code.close ref).2.invalidations + 1 } } : Program).charge ref
        cutoff = .ok p' := by
      unfold charge
      split_ifs
      · exact ⟨_, rfl⟩
      · obtain ⟨st, hst⟩ : ∃ st, MethodState.charge _ cutoff = .ok st := MethodState.exists_charge h
        refine ⟨_, bind_eq_ok.2 ⟨st, ?_, rfl⟩⟩
        show (p.method ((p.code.close ref).2.region ref).method.ref).charge cutoff = _
        rw [hregion]
        exact hst
    obtain ⟨p', hp'⟩ := hcharge
    exact ⟨_, _, bind_eq_ok.2 ⟨p', hp', rfl⟩⟩
  · exact ⟨_, _, rfl⟩

lemma grows_retireMarked {n : Nat} (h : p.retireMarked generation cutoff = .ok (n, p')) :
    p.Grows p' := by
  simp only [retireMarked, bind_eq_ok, pure_eq_ok, Prod.mk.injEq] at h
  obtain ⟨p₁, hp, -, rfl⟩ := h
  have hfold : p.Grows p₁ := by
    refine foldlM_induction (fun _ p₁ => p.Grows p₁) (.refl p) (fun _ ref p₁ p₂ hg hr => ?_) hp
    simp only [retire, bind_eq_ok, pure_eq_ok] at hr
    obtain ⟨⟨_, p₃⟩, hi, rfl⟩ := hr
    exact hg.trans ((grows_invalidate hi).1.trans (.of_eq rfl))
  exact hfold.trans (.of_eq rfl)

lemma grows_reprofile (p : Program) (methods : List Method) :
    p.Grows (p.reprofile methods) ∧
      (∀ M, ((p.reprofile methods).method M).decompiles = (p.method M).decompiles) ∧
      (p.reprofile methods).code = p.code ∧
      (p.reprofile methods).methods.size = p.methods.size := by
  induction methods generalizing p with
  | nil => exact ⟨.refl p, fun _ => rfl, rfl, rfl⟩
  | cons m ms ih =>
    obtain ⟨hg, hd, hc, hs⟩ := ih (p.modifyMethod m.ref MethodState.resetCounters)
    exact ⟨(grows_modifyMethod (MethodState.grows_resetCounters _)).trans hg,
      fun M => (hd M).trans (decompiles_modifyMethod rfl M), hc,
      hs.trans (size_methods_modifyMethod _)⟩

end Program

/-! ### One trap -/

namespace Machine

variable {m m' m'' : Machine} {s : Site} {q : Request} {v : Verdict} {thread t : Nat}

/-- What a trap that is judged, or noted, does to a machine: methods know more, code and
configuration stay. -/
structure Learns (m m' : Machine) : Prop where
  grows : m.program.Grows m'.program
  decompiles : ∀ M, (m'.program.method M).decompiles = (m.program.method M).decompiles
  size : m'.program.methods.size = m.program.methods.size
  code : m'.program.code = m.program.code
  config : m'.config = m.config

lemma Learns.refl (m : Machine) : m.Learns m := ⟨.refl _, fun _ => rfl, rfl, rfl, rfl⟩

lemma Learns.trans (h : m.Learns m') (h' : m'.Learns m'') : m.Learns m'' :=
  ⟨h.grows.trans h'.grows, fun M => (h'.decompiles M).trans (h.decompiles M),
    h'.size.trans h.size, h'.code.trans h.code, h'.config.trans h.config⟩

/-- Only methods and the configuration matter. -/
lemma Learns.of_eq (h : m.Learns m') (hp : m''.program = m'.program)
    (hc : m''.config = m'.config) : m.Learns m'' :=
  ⟨hp ▸ h.grows, hp ▸ h.decompiles, hp ▸ h.size, hp ▸ h.code, hc ▸ h.config⟩

lemma learns_modifyMethod (m : Machine) (ref : Nat) {f : MethodState → MethodState}
    (hf : ∀ st : MethodState, st.Grows (f st) ∧ (f st).decompiles = st.decompiles) :
    m.Learns (m.modifyMethod ref f) :=
  ⟨Program.grows_modifyMethod (hf _).1, Program.decompiles_modifyMethod (hf _).2,
    Program.size_methods_modifyMethod _, rfl, rfl⟩

lemma learns_mapHistory (m : Machine) (ref : Nat) {f : History → History}
    (hf : ∀ h : History, h.Grows (f h)) : m.Learns (m.modifyMethod ref (·.mapHistory f)) :=
  m.learns_modifyMethod ref fun st => ⟨st.grows_mapHistory hf, st.decompiles_mapHistory f⟩

lemma learns_giveUp (m : Machine) (ref : Nat) :
    m.Learns (m.modifyMethod ref MethodState.giveUp) :=
  m.learns_modifyMethod ref fun st => ⟨st.grows_giveUp, rfl⟩

/-- A machine that is about to look a trap up in the profile. -/
def prepareTrap (m : Machine) (s : Site) (q : Request) : Machine :=
  (m.modifyMethod s.trapped (·.resolveFor m.classes q)).modifyMethod s.trapped
    (·.profiled m.config)

lemma learns_prepareTrap (m : Machine) (s : Site) (q : Request) :
    m.Learns (m.prepareTrap s q) :=
  (m.learns_modifyMethod s.trapped fun st => st.grows_resolveFor m.classes q).trans
    (learns_modifyMethod _ s.trapped fun st => st.grows_profiled m.config)

lemma profile_prepareTrap (hc : m.config.profileTraps = true)
    (hlt : s.trapped < m.program.methods.size) :
    ((m.prepareTrap s q).program.method s.trapped).profile =
      some ((m.program.method s.trapped).profileWith m.config.extraDataSlots) := by
  obtain ⟨hp, -, hm⟩ := (m.program.method s.trapped).resolveFor_spec m.classes q
  simp only [prepareTrap, modifyMethod]
  rw [Program.method_modifyMethod_self _ _ (by rwa [Program.size_methods_modifyMethod]),
    Program.method_modifyMethod_self _ _ hlt, MethodState.profiled, if_pos hc]
  simp only [MethodState.ensureProfile, MethodState.profileWith, hp, hm]

lemma judge_fst (m : Machine) (s : Site) (q : Request) : (m.judge s q).1 =
    Verdict.decide q.reason q.action
      (((m.prepareTrap s q).program.method s.trapped).consult s.scope.bci q.reason q.action).1
      m.config := rfl

lemma program_judge (m : Machine) (s : Site) (q : Request) : (m.judge s q).2.program =
    (m.prepareTrap s q).program.modifyMethod s.trapped fun _ =>
      (((m.prepareTrap s q).program.method s.trapped).consult s.scope.bci q.reason
        q.action).2 := rfl

lemma learns_judge (m : Machine) (s : Site) (q : Request) : m.Learns (m.judge s q).2 := by
  have h := m.learns_prepareTrap s q
  obtain ⟨hgrows, hdecompiles⟩ := ((m.prepareTrap s q).program.method s.trapped).grows_consult
    s.scope.bci q.reason q.action
  refine ⟨?_, fun M => ?_, ?_, h.code, h.config⟩
  · rw [program_judge]
    exact h.grows.trans (Program.grows_modifyMethod hgrows)
  · rw [program_judge]
    exact (Program.decompiles_modifyMethod (f := fun _ => _) hdecompiles M).trans (h.decompiles M)
  · rw [program_judge, Program.size_methods_modifyMethod]
    exact h.size

/-- A trap that is recorded per bytecode is judged by the history before it, and counted. -/
lemma judge_spec {r : Reason} (hc : m.config.profileTraps = true)
    (hlt : s.trapped < m.program.methods.size) (hr : q.reason.standIn? = some r)
    (ha : q.action ≠ .leave) :
    ∃ p h snapshot,
      p = (m.program.method s.trapped).profileWith m.config.extraDataSlots ∧
      History.Judged p.history p.decompiles s.scope.bci q.reason r h snapshot ∧
      (m.judge s q).1 = Verdict.decide q.reason q.action (some snapshot) m.config ∧
      ((m.judge s q).2.program.method s.trapped).profile = some { p with history := h } := by
  have hp := profile_prepareTrap (q := q) hc hlt
  have hconsult := MethodState.consult_of_records s.scope.bci hp
    (MethodState.records_of_standIn? hr ha)
  refine ⟨_, _, _, rfl, History.judged_query _ s.scope.bci _ hr, ?_, ?_⟩
  · rw [judge_fst, hconsult]
  · rw [program_judge, Program.method_modifyMethod_self, hconsult]
    rwa [(m.learns_prepareTrap s q).size]

/-! ### What follows from a verdict -/

lemma learns_countRecompile (m : Machine) (s : Site) (v : Verdict) :
    m.Learns (m.countRecompile s v).2 := by
  have hcount := m.learns_mapHistory s.trapped History.grows_countOverflow
  unfold countRecompile
  simp only
  split_ifs
  · exact hcount
  · exact hcount.trans (learns_giveUp _ s.trapped)
  · exact hcount
  · exact .refl m

/-- Counting a recompilation can only add to a verdict that the method is given up. -/
lemma countRecompile_verdict (m : Machine) (s : Site) (v : Verdict) :
    (m.countRecompile s v).1.invalidate = v.invalidate ∧
      ((m.countRecompile s v).1.giveUp = true → v.giveUp = true ∨ v.countRecompile = true) := by
  unfold countRecompile
  simp only
  split_ifs with hcount <;> refine ⟨rfl, fun hv => ?_⟩
  · rw [Bool.and_eq_true] at hcount
    exact .inr hcount.1
  all_goals exact .inl hv

/-- A recompilation that the bytecode caused again is counted. Beyond the cutoff the method is given
up. -/
lemma countRecompile_spec {p : Profile} (hv : v.countRecompile = true)
    (hlt : s.trapped < m.program.methods.size)
    (hp : (m.program.method s.trapped).profile = some p) :
    ((m.countRecompile s v).2.program.method s.trapped).profile =
      some { p with history := p.history.countOverflow } ∧
    (s.trapped = s.compiled →
      m.config.perBytecodeRecompilationCutoff < saturatingNext p.history.overflowRecompiles →
      (m.countRecompile s v).1.giveUp = true) := by
  have hcounted : ((m.modifyMethod s.trapped
      (·.mapHistory History.countOverflow)).program.method s.trapped).profile =
      some { p with history := p.history.countOverflow } := by
    rw [modifyMethod, Program.method_modifyMethod_self _ _ hlt, MethodState.mapHistory,
      MethodState.mapProfile, hp]
    rfl
  unfold countRecompile
  rw [if_pos (by simp [hv, hp])]
  simp only [hcounted, Option.map_some, Option.getD_some]
  split_ifs with hcut heq
  · exact ⟨hcounted, fun _ _ => rfl⟩
  · refine ⟨?_, fun h => absurd h heq⟩
    rw [modifyMethod, Program.method_modifyMethod_self]
    · exact hcounted
    · rwa [modifyMethod, Program.size_methods_modifyMethod]
  · exact ⟨hcounted, fun _ h => absurd h hcut⟩

lemma carryOut_spec (h : m.carryOut s v = .ok m') :
    m.Learns m' ∧ (v.giveUp = true → s.compiled < m.program.methods.size →
      (m'.program.method s.compiled).notCompilable = true) := by
  have hreprofiled : m.Learns (if v.reprofile then
      { m with program := m.program.reprofile s.methods } else m) := by
    split_ifs
    · obtain ⟨hg, hd, hc, hs⟩ := m.program.grows_reprofile s.methods
      exact ⟨hg, hd, hs, hc, rfl⟩
    · exact .refl m
  simp only [carryOut] at h
  generalize (if v.reprofile then { m with program := m.program.reprofile s.methods } else m)
    = m₁ at h hreprofiled
  split_ifs at h with hgive
  · simp only [bind_eq_ok, pure_eq_ok] at h
    obtain ⟨_, -, rfl⟩ := h
    refine ⟨hreprofiled.trans (learns_giveUp _ _), fun _ hlt => ?_⟩
    rw [modifyMethod, Program.method_modifyMethod_self _ _ (by rwa [hreprofiled.size])]
    rfl
  · cases h
    refine ⟨hreprofiled, fun hv _ => ?_⟩
    simpa [hv] using hgive

/-- A verdict that gives a method up invalidates its code, so it can be carried out. -/
lemma exists_carryOut (hv : v.giveUp = true → v.invalidate = true) :
    ∃ m', m.carryOut s v = .ok m' := by
  simp only [carryOut]
  generalize (if v.reprofile then { m with program := m.program.reprofile s.methods } else m)
    = m₁
  split_ifs with hgive
  · rw [Bool.and_eq_true] at hgive
    exact ⟨_, bind_eq_ok.2 ⟨(), ensure_eq_ok.2 (hv hgive.1), rfl⟩⟩
  · exact ⟨_, rfl⟩

lemma learns_noteHandler (m : Machine) (s : Site) : m.Learns (m.noteHandler s) :=
  m.learns_mapHistory s.trapped fun h => h.grows_enterHandler _

/-- What follows from a verdict once it is known whether code was invalidated. -/
lemma learns_settle {m₁ m₂ : Machine}
    (h : (m₁.countRecompile s v).2.carryOut s (m₁.countRecompile s v).1 = .ok m₂) :
    m₁.Learns (m₂.noteHandler s) :=
  ((m₁.learns_countRecompile s v).trans (carryOut_spec h).1).trans (m₂.learns_noteHandler s)

/-- A verdict is carried out in one of three ways: the code is not to be invalidated; or it was
invalidated before, and nothing happens; or it is invalidated now, and that is noted. -/
lemma execute_cases (h : m.execute thread s q v = .ok m') :
    (∃ m₂, v.invalidate = false ∧
      (m.countRecompile s v).2.carryOut s (m.countRecompile s v).1 = .ok m₂ ∧
      m'.program = (m₂.noteHandler s).program ∧ m'.config = (m₂.noteHandler s).config) ∨
    (v.invalidate = true ∧ (m.program.code.state s.region.ref).inUse = false ∧
      m'.program = m.program ∧ m'.config = m.config) ∨
    ∃ p m₁ m₂, v.invalidate = true ∧
      m.program.invalidate s.region.ref m.cutoff = .ok (true, p) ∧
      m₁ = ({ m with program := p } : Machine).modifyMethod s.trapped
        (·.noteInvalidation s.scope.bci q.reason q.action) ∧
      (m₁.countRecompile s v).2.carryOut s (m₁.countRecompile s v).1 = .ok m₂ ∧
      m'.program = (m₂.noteHandler s).program ∧ m'.config = (m₂.noteHandler s).config := by
  simp only [execute] at h
  split_ifs at h with hinvalidate
  · simp only [bind_eq_ok, invalidate, pure_eq_ok] at h
    obtain ⟨_, ⟨⟨news, p⟩, hp, rfl⟩, h⟩ := h
    cases news with
    | false =>
      obtain ⟨hnews, hsame⟩ := Program.invalidate_news hp
      cases h
      exact .inr (.inl ⟨hinvalidate, hnews.symm, hsame rfl, rfl⟩)
    | true =>
      simp only [if_true, pure_bind, Bool.false_eq_true, if_false, bind_eq_ok, pure_eq_ok] at h
      obtain ⟨m₂, hcarry, rfl⟩ := h
      exact .inr (.inr ⟨p, _, m₂, hinvalidate, hp, rfl, hcarry, rfl, rfl⟩)
  · simp only [pure_bind, Bool.false_eq_true, if_false, bind_eq_ok, pure_eq_ok] at h
    obtain ⟨m₂, hcarry, rfl⟩ := h
    exact .inl ⟨m₂, by simpa using hinvalidate, hcarry, rfl, rfl⟩

/-- What a verdict makes of code and methods. -/
structure Executed (m : Machine) (s : Site) (v : Verdict) (m' : Machine) : Prop where
  grows : m.program.Grows m'.program
  decompiles_le : ∀ M, (m'.program.method M).decompiles ≤ (m.program.method M).decompiles + 1
  config : m'.config = m.config
  changesAt : m.program.code.ChangesAt m'.program.code s.region.ref
  state : s.region.ref < m.program.code.regions.size → m'.program.code.state s.region.ref =
    { m.program.code.state s.region.ref with
      inUse := (m.program.code.state s.region.ref).inUse && !v.invalidate }

theorem execute_spec (h : m.execute thread s q v = .ok m') : Executed m s v m' := by
  rcases execute_cases h with
    ⟨m₂, hv, h, hp', hc⟩ | ⟨hv, hu, hp, hc⟩ | ⟨p, m₁, m₂, hv, hp, rfl, h, hp', hc⟩
  · have hl := (learns_settle h).of_eq hp' hc
    refine ⟨hl.grows, fun M => hl.decompiles M ▸ Nat.le_succ _, hl.config, hl.code ▸ .refl _ _,
      fun _ => ?_⟩
    rw [hl.code, hv, Bool.not_false, Bool.and_true]
  · refine ⟨hp ▸ .refl _, fun M => hp ▸ Nat.le_succ _, hc, hp ▸ .refl _ _, fun _ => ?_⟩
    rw [hp, hu, Bool.false_and, ← hu]
  · obtain ⟨hchange, hstate⟩ := Program.invalidate_spec hp
    have hl : ({ m with program := p } : Machine).Learns m' :=
      ((learns_modifyMethod _ s.trapped fun st => ⟨st.grows_noteInvalidation _ _ _,
        st.decompiles_mapHistory _⟩).trans (learns_settle h)).of_eq hp' hc
    obtain ⟨hgrows, -, hdecompiles⟩ := Program.grows_invalidate hp
    refine ⟨hgrows.trans hl.grows, fun M => hl.decompiles M ▸ hdecompiles M, hl.config,
      hl.code ▸ hchange, fun hlt => ?_⟩
    rw [hl.code, hv, Bool.not_true, Bool.and_false]
    exact hstate hlt

/-- A verdict can be carried out as long as the method can be charged. -/
lemma exists_execute (thread : Nat) (q : Request)
    (hv : v.giveUp = true ∨ v.countRecompile = true → v.invalidate = true)
    (hd : (m.program.method (m.program.code.region s.region.ref).method.ref).decompiles + 1 <
      counterLimit) : ∃ m', m.execute thread s q v = .ok m' := by
  have hsettle : ∀ m₁ : Machine, ∃ m₂,
      (m₁.countRecompile s v).2.carryOut s (m₁.countRecompile s v).1 = .ok m₂ := by
    intro m₁
    obtain ⟨hsame, hgive⟩ := m₁.countRecompile_verdict s v
    exact exists_carryOut fun h => hsame.trans (hv (hgive h))
  simp only [execute]
  split_ifs
  · obtain ⟨news, p, hp⟩ : ∃ b p, m.program.invalidate s.region.ref m.cutoff = .ok (b, p) :=
      Program.exists_invalidate hd
    simp only [invalidate, hp, ok_bind, pure_bind]
    cases news with
    | false => exact ⟨_, rfl⟩
    | true =>
      obtain ⟨m₂, h⟩ := hsettle (({ m with program := p } : Machine).modifyMethod s.trapped
        (·.noteInvalidation s.scope.bci q.reason q.action))
      simp only [if_true, Bool.false_eq_true, if_false, h, ok_bind]
      exact ⟨_, rfl⟩
  · obtain ⟨m₂, h⟩ := hsettle m
    simp only [pure_bind, Bool.false_eq_true, if_false, h, ok_bind]
    exact ⟨_, rfl⟩

end Machine
end Bailout
