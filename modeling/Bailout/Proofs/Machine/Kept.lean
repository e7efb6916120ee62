import Bailout.Proofs.Machine.Traps

/-!
# What a trap makes of profiles

A trap is recorded in the profile of the method that it fired in. What follows from the verdict
charges the method of the code, if that is invalidated and the invalidation counts, and is noted in
the profile where the trap was recorded. All other profiles stay as they are. Each operation has an
equation that says so.
-/

namespace Bailout

/-! ### Profiles -/

/-- What is noted in a history when a trap invalidated code. -/
def History.noteInvalidation (h : History) (bci : Nat) (r : Reason) (a : Action) : History :=
  let h :=
    if MethodState.records r a then
      (h.update? bci fun rec => { rec with state := rec.state.setRecompiled true }).getD h
    else h
  if r = .tenured then h.countTenure else h

namespace Profile

def mapHistory (p : Profile) (f : History → History) : Profile := { p with history := f p.history }

/-- A profile that counted one more invalidation. -/
def charged (p : Profile) : Profile := { p with decompiles := p.decompiles + 1 }

end Profile

/-! ### Programs -/

namespace Program

variable {P : Option Profile → Prop} {p p' : Program} {M ref cutoff generation : Nat} {b : Bool}

lemma profile_of_size_le (h : p.methods.size ≤ M) : (p.method M).profile = none := by
  rw [method, Array.getD_eq_getD_getElem?, Array.getElem?_eq_none h]
  rfl

lemma lt_size_of_profile {x : Profile} (h : (p.method M).profile = some x) :
    M < p.methods.size := by
  by_contra hge
  rw [profile_of_size_le (Nat.not_lt.1 hge)] at h
  cases h

/-- A change of a method that does not concern its profile. -/
lemma profile_modifyMethod {f : MethodState → MethodState}
    (hf : (f (p.method ref)).profile = (p.method ref).profile) :
    ((p.modifyMethod ref f).method M).profile = (p.method M).profile := by
  rcases p.method_modifyMethod ref M f with h | ⟨rfl, h⟩
  · rw [h]
  · rw [h, hf]

/-- The history of one method is changed, if it has one. -/
lemma profile_mapHistory (p : Program) (ref M : Nat) (f : History → History) :
    ((p.modifyMethod ref (·.mapHistory f)).method M).profile =
      if M = ref then (p.method M).profile.map (·.mapHistory f) else (p.method M).profile := by
  split_ifs with hM
  · subst hM
    by_cases hlt : M < p.methods.size
    · rw [method_modifyMethod_self _ _ hlt]
      rfl
    · have hnone := profile_of_size_le (Nat.not_lt.1 hlt)
      rw [profile_modifyMethod (by rw [MethodState.mapHistory, MethodState.mapProfile, hnone,
        Option.map_none]), hnone, Option.map_none]
  · rw [method_modifyMethod_of_ne _ _ hM]

lemma profile_reprofile (p : Program) (ms : List Method) (M : Nat) :
    ((p.reprofile ms).method M).profile = (p.method M).profile := by
  induction ms generalizing p with
  | nil => rfl
  | cons m ms ih => exact (ih _).trans (profile_modifyMethod rfl)

/-- The method of a region is charged for its invalidation, unless the region is marked
otherwise. -/
lemma profile_charge (h : p.charge ref cutoff = .ok p') (M : Nat) :
    (p'.method M).profile =
      if (p.code.state ref).mark ≠ .uncounted ∧ M = (p.code.region ref).method.ref then
        (p.method M).profile.map Profile.charged
      else (p.method M).profile := by
  unfold charge at h
  split_ifs at h with hm
  · cases h
    rw [if_neg fun hc => hc.1 hm]
  · simp only [bind_eq_ok, pure_eq_ok] at h
    obtain ⟨s, hs, rfl⟩ := h
    by_cases hM : M = (p.code.region ref).method.ref
    · rw [if_pos ⟨hm, hM⟩]
      subst hM
      cases hx : (p.method (p.code.region ref).method.ref).profile with
      | none =>
        simp only [MethodState.charge, hx, Except.ok.injEq] at hs
        rw [profile_modifyMethod (by rw [← hs]), hx, Option.map_none]
      | some x =>
        rw [method_modifyMethod_self _ _ (lt_size_of_profile hx), (MethodState.charge_spec hs).2.2 x hx]
        rfl
    · rw [if_neg fun hc => hM hc.2, method_modifyMethod_of_ne _ _ hM]

/-- Only an invalidation that is news, and counts, is charged. -/
lemma profile_of_invalidate (h : p.invalidate ref cutoff = .ok (b, p'))
    (hr : ref < p.code.regions.size) (M : Nat) :
    (p'.method M).profile =
      if (p.code.state ref).inUse = true ∧ (p.code.state ref).mark ≠ .uncounted ∧
          M = (p.code.region ref).method.ref then
        (p.method M).profile.map Profile.charged
      else (p.method M).profile := by
  have hstate := p.code.state_close hr
  have hregion := (p.code.changesAt_close ref).region ref
  simp only [invalidate] at h
  rw [CodeCache.close_inUse] at h
  split_ifs at h with hnews
  · simp only [bind_eq_ok, pure_eq_ok, Prod.mk.injEq] at h
    obtain ⟨p₁, hp, -, rfl⟩ := h
    have hmark : ({ p with code := { (p.code.close ref).2 with
        invalidations := (p.code.close ref).2.invalidations + 1 } } : Program).code.state ref =
          { p.code.state ref with inUse := false } := hstate
    have hmethod : ({ p with code := { (p.code.close ref).2 with
        invalidations := (p.code.close ref).2.invalidations + 1 } } : Program).code.region ref =
          p.code.region ref := hregion
    rw [profile_charge hp, hmark, hmethod]
    simp only [hnews, true_and]
    rfl
  · simp only [pure_eq_ok, Prod.mk.injEq] at h
    obtain ⟨-, rfl⟩ := h
    rw [if_neg fun hc => hnews hc.1]

lemma kept_invalidate (hP : ∀ x : Profile, P (some x) → P (some x.charged))
    (h : p.invalidate ref cutoff = .ok (b, p')) (hM : P (p.method M).profile) :
    P (p'.method M).profile := by
  simp only [invalidate] at h
  split_ifs at h
  · simp only [bind_eq_ok, pure_eq_ok, Prod.mk.injEq] at h
    obtain ⟨p₁, hp, -, rfl⟩ := h
    rw [profile_charge hp]
    split_ifs
    · show P ((p.method M).profile.map Profile.charged)
      cases hx : (p.method M).profile with
      | none => rwa [hx] at hM
      | some x => exact hP x (hx ▸ hM)
    · exact hM
  · simp only [pure_eq_ok, Prod.mk.injEq] at h
    obtain ⟨-, rfl⟩ := h
    exact hM

/-- What holds of a profile holds after a commit, if it does after a charge. -/
lemma kept_retireMarked {n : Nat} (hP : ∀ x : Profile, P (some x) → P (some x.charged))
    (h : p.retireMarked generation cutoff = .ok (n, p')) (hM : P (p.method M).profile) :
    P (p'.method M).profile := by
  simp only [retireMarked, bind_eq_ok, pure_eq_ok, Prod.mk.injEq] at h
  obtain ⟨p₁, hp, -, rfl⟩ := h
  refine foldlM_induction (fun _ p₁ => P (p₁.method M).profile) hM (fun _ ref p₁ p₂ hM hr => ?_) hp
  simp only [retire, bind_eq_ok, pure_eq_ok] at hr
  obtain ⟨⟨_, p₃⟩, hi, rfl⟩ := hr
  show P (p₃.method M).profile
  exact kept_invalidate hP hi hM

end Program

/-! ### Traps -/

namespace Machine

variable {m m' m₂ : Machine} {s : Site} {q : Request} {v : Verdict} {M : Nat}

/-- The profile in which a trap is looked up. -/
def profileFor (m : Machine) (s : Site) : Option Profile :=
  if m.config.profileTraps then
    some ((m.program.method s.trapped).profileWith m.config.extraDataSlots)
  else (m.program.method s.trapped).profile

lemma profile_prepareTrap_eq (hlt : s.trapped < m.program.methods.size) :
    ((m.prepareTrap s q).program.method s.trapped).profile = m.profileFor s := by
  rw [profileFor]
  split_ifs with hc
  · exact profile_prepareTrap hc hlt
  · simp only [prepareTrap, modifyMethod]
    rw [Program.profile_modifyMethod (by rw [MethodState.profiled, if_neg hc]),
      Program.profile_modifyMethod (MethodState.resolveFor_spec _ _ _).1]

/-- A trap that is recorded is judged by the profile in which it is looked up. -/
lemma judge_of_records {x : Profile} (hlt : s.trapped < m.program.methods.size)
    (hx : m.profileFor s = some x) (hr : MethodState.records q.reason q.action = true) :
    (m.judge s q).1 = Verdict.decide q.reason q.action
      (some (x.history.query x.decompiles s.scope.bci q.reason true).2) m.config := by
  rw [judge_fst, MethodState.consult_of_records _ ((profile_prepareTrap_eq hlt).trans hx) hr]

/-- A trap that is judged is recorded in the profile of the method that it fired in. -/
lemma profile_judge (hlt : s.trapped < m.program.methods.size) :
    ((m.judge s q).2.program.method s.trapped).profile =
      if MethodState.records q.reason q.action then
        (m.profileFor s).map fun x =>
          { x with history := (x.history.query x.decompiles s.scope.bci q.reason true).1 }
      else m.profileFor s := by
  rw [program_judge, Program.method_modifyMethod_self _ _
    (by rwa [(m.learns_prepareTrap s q).size]), ← profile_prepareTrap_eq (q := q) hlt]
  unfold MethodState.consult
  cases hx : ((m.prepareTrap s q).program.method s.trapped).profile with
  | none => simp [hx]
  | some x =>
    simp only
    split_ifs <;> simp [hx]

lemma profile_judge_of_ne (hM : M ≠ s.trapped) :
    ((m.judge s q).2.program.method M).profile = (m.program.method M).profile := by
  rw [program_judge, Program.method_modifyMethod_of_ne _ _ hM, prepareTrap, modifyMethod,
    modifyMethod, Program.method_modifyMethod_of_ne _ _ hM,
    Program.method_modifyMethod_of_ne _ _ hM]

lemma profile_noteInvalidation (m : Machine) (s : Site) (q : Request) (M : Nat) :
    ((m.modifyMethod s.trapped
      (·.noteInvalidation s.scope.bci q.reason q.action)).program.method M).profile =
      if M = s.trapped then
        (m.program.method M).profile.map
          (·.mapHistory (·.noteInvalidation s.scope.bci q.reason q.action))
      else (m.program.method M).profile :=
  m.program.profile_mapHistory s.trapped M (·.noteInvalidation s.scope.bci q.reason q.action)

/-- A recompilation that is counted is counted in the profile of the method in which the trap
fired. -/
lemma profile_countRecompile (m : Machine) (s : Site) (v : Verdict) (M : Nat) :
    ((m.countRecompile s v).2.program.method M).profile =
      if v.countRecompile = true ∧ M = s.trapped then
        (m.program.method M).profile.map (·.mapHistory History.countOverflow)
      else (m.program.method M).profile := by
  have hcounted := m.program.profile_mapHistory s.trapped M History.countOverflow
  unfold countRecompile
  by_cases hv : v.countRecompile = true
  · cases hx : (m.program.method s.trapped).profile with
    | none =>
      simp only [Option.isSome_none, Bool.and_false, Bool.false_eq_true, if_false]
      split_ifs with hM
      · rw [hM.2, hx, Option.map_none]
      · rfl
    | some x =>
      simp only [hv, Option.isSome_some, Bool.and_true, if_true, true_and]
      rw [← hcounted]
      split_ifs
      · rfl
      · exact Program.profile_modifyMethod rfl
      · rfl
  · simp [hv]

lemma profile_carryOut (h : m.carryOut s v = .ok m') (M : Nat) :
    (m'.program.method M).profile = (m.program.method M).profile := by
  have hreprofiled : ((if v.reprofile then
      { m with program := m.program.reprofile s.methods } else m).program.method M).profile =
        (m.program.method M).profile := by
    split_ifs
    · exact m.program.profile_reprofile s.methods M
    · rfl
  simp only [carryOut] at h
  generalize (if v.reprofile then { m with program := m.program.reprofile s.methods } else m)
    = m₁ at h hreprofiled
  split_ifs at h
  · simp only [bind_eq_ok, pure_eq_ok] at h
    obtain ⟨_, -, rfl⟩ := h
    exact (Program.profile_modifyMethod rfl).trans hreprofiled
  · cases h
    exact hreprofiled

/-- What follows from a verdict is noted in the profile of the method in which the trap fired. -/
lemma profile_settle
    (h : (m.countRecompile s v).2.carryOut s (m.countRecompile s v).1 = .ok m₂) (M : Nat) :
    ((m₂.noteHandler s).program.method M).profile =
      if M = s.trapped then
        ((m.program.method M).profile.map (·.mapHistory fun h =>
          if v.countRecompile then h.countOverflow else h)).map (·.mapHistory fun h =>
            (h.enterHandler? s.scope.bci).getD h)
      else (m.program.method M).profile := by
  have hnoted := m₂.program.profile_mapHistory s.trapped M
    fun h => (h.enterHandler? s.scope.bci).getD h
  rw [profile_carryOut h, profile_countRecompile] at hnoted
  refine hnoted.trans ?_
  by_cases hM : M = s.trapped
  · cases v.countRecompile <;> simp [hM, Profile.mapHistory]
  · simp [hM]

end Machine
end Bailout
