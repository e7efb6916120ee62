import Bailout.Proofs.Machine.Kept

/-!
# Traps escalate

A bytecode that traps again and again for one reason has its code invalidated once it is past the
limit, and a method whose code is invalidated again and again from one bytecode is given up once it
is past the cutoff. Neither comes late, whatever happens in between: traps at other places and for
other reasons, which may take up all records; what the interpreter records; code that is installed,
marked and deoptimized.
-/

namespace Bailout

/-! ### What is known about a bytecode -/

namespace MethodState

variable {s s' : MethodState} {bci n k : Nat} {r q : Reason}

/-- The profile counted `n` traps for a reason at least, and none at the bytecode looks like the
first. The record of the bytecode is kept under the stand-in of the reason. -/
def Noted (s : MethodState) (bci : Nat) (r q : Reason) (n : Nat) : Prop :=
  ∃ p, s.profile = some p ∧ p.history.Suspects bci q ∧ Reaches n (p.history.count r)

/-- The profile counted an invalidation, and `n` recompilations at least that bytecodes caused
again. One at the bytecode would be caused again. -/
def Blamed (s : MethodState) (bci n : Nat) : Prop :=
  ∃ p, s.profile = some p ∧ 0 < p.decompiles ∧ p.history.Blames bci ∧
    Reaches n p.history.overflowRecompiles

lemma Noted.grows (h : s.Noted bci r q n) (hg : s.Grows s') : s'.Noted bci r q n := by
  obtain ⟨p, hp, hs, hn⟩ := h
  obtain ⟨p', hp', hg⟩ := hg.profile p hp
  exact ⟨p', hp', hs.grows hg.history, hn.trans (hg.history.count r)⟩

lemma Noted.mono (hk : k ≤ n) (h : s.Noted bci r q n) : s.Noted bci r q k := by
  obtain ⟨p, hp, hs, hn⟩ := h
  exact ⟨p, hp, hs, hn.mono hk⟩

lemma Blamed.grows (h : s.Blamed bci n) (hg : s.Grows s') : s'.Blamed bci n := by
  obtain ⟨p, hp, hd, hb, hn⟩ := h
  obtain ⟨p', hp', hg⟩ := hg.profile p hp
  exact ⟨p', hp', Nat.lt_of_lt_of_le hd hg.decompiles, hb.grows hg.history,
    hn.trans hg.history.overflow⟩

lemma profileWith_of_profile {p : Profile} (hp : s.profile = some p) (capacity : Nat) :
    s.profileWith capacity = p := by
  rw [profileWith, hp, Option.getD_some]

end MethodState

namespace Verdict

variable {r q : Reason} {a : Action} {history : Option Snapshot} {s : Snapshot} {c : Config}

/-- Whatever else a verdict asks for goes with the code being invalidated. -/
lemma invalidate_of_decide (r : Reason) (a : Action) (history : Option Snapshot) (c : Config)
    (h : (decide r a history c).giveUp = true ∨ (decide r a history c).countRecompile = true) :
    (decide r a history c).invalidate = true := by
  have hasked : (ofAction a).giveUp = true → (ofAction a).invalidate = true := by
    cases a <;> simp [ofAction]
  have hcount : (ofAction a).countRecompile = false := by
    cases a <;> rfl
  cases history with
  | none =>
    simp only [decide, hcount, Bool.false_eq_true, or_false] at h ⊢
    exact hasked h
  | some s =>
    simp only [decide, Bool.and_eq_true, Bool.or_eq_true] at h ⊢
    rcases h with h | ⟨⟨-, h⟩, -⟩
    · exact .inl (.inl (hasked h))
    · exact .inl h

/-- Where traps are recorded per bytecode, one that is not the first is past the limit sooner or
later. -/
lemma invalidate_of_prior (hr : r.standIn? = some q) (hprior : s.maybePriorTrap = true)
    (hcount : c.perBytecodeTrapLimit < s.count) : (decide r a (some s) c).invalidate = true := by
  simp [decide, locally, hr, hprior, hcount]

/-- If code is invalidated by a trap that is not the first at its bytecode, and the bytecode caused
a recompilation before, the recompilation is counted; provided that the method as a whole is not
less patient than the bytecode. -/
lemma countRecompile_of_prior (hr : r.standIn? = some q) (hprior : s.maybePriorTrap = true)
    (hrecompile : s.maybePriorRecompile = true) (hc : c.perBytecodeTrapLimit ≤ c.methodLimit r)
    (h : (decide r a (some s) c).invalidate = true) :
    (decide r a (some s) c).countRecompile = true := by
  simp only [decide, locally, hr, Option.isSome_some, if_true, hprior, Bool.true_and,
    hrecompile, Bool.and_true, Bool.or_eq_true, decide_eq_true_eq] at h ⊢
  rcases h with h | h
  · exact h
  · exact .inr (Nat.lt_of_le_of_lt hc h)

end Verdict

/-! ### One trap -/

/-- The code and the method at which a trap fired are in the machine. -/
structure Site.In (s : Site) (m : Machine) : Prop where
  region : m.program.code.region s.region.ref = s.region
  ref_lt : s.region.ref < m.program.code.regions.size
  trapped_lt : s.trapped < m.program.methods.size

lemma Site.In.learns {s : Site} {m m' : Machine} (hin : s.In m) (hl : m.Learns m') : s.In m' :=
  ⟨hl.code ▸ hin.region, hl.code ▸ hin.ref_lt, hl.size ▸ hin.trapped_lt⟩

namespace Machine

variable {m m' : Machine} {s : Site} {q : Request} {t n k : Nat} {r : Reason}

lemma handleTrap_eq_ok (hs : Site.find (m.thread t) = .ok s) :
    m.handleTrap t q = (m.judge s q).2.execute (m.thread t).id s q (m.judge s q).1 := by
  rw [handleTrap, hs]
  rfl

theorem handleTrap_spec (hs : Site.find (m.thread t) = .ok s) (h : m.handleTrap t q = .ok m') :
    Executed m s (m.judge s q).1 m' := by
  rw [handleTrap_eq_ok hs] at h
  have hl := m.learns_judge s q
  obtain ⟨hgrows, hdecompiles, hconfig, hchange, hstate⟩ := execute_spec h
  rw [hl.code] at hchange hstate
  exact ⟨hl.grows.trans hgrows, fun M => hl.decompiles M ▸ hdecompiles M, hconfig.trans hl.config,
    hchange, hstate⟩

/-- A trap is handled as long as the method that the code belongs to can be charged. -/
lemma exists_handleTrap (hs : Site.find (m.thread t) = .ok s) (hin : s.In m) (q : Request)
    (hd : (m.program.method s.compiled).decompiles + 1 < counterLimit) :
    ∃ m', m.handleTrap t q = .ok m' := by
  have hl := m.learns_judge s q
  rw [handleTrap_eq_ok hs]
  refine exists_execute _ q (Verdict.invalidate_of_decide _ _ _ _) ?_
  rw [hl.code, hin.region, hl.decompiles]
  exact hd

/-- A trap that is recorded per bytecode is counted, and is not forgotten. -/
lemma noted_handleTrap (hc : m.config.profileTraps = true) (hin : s.In m)
    (hr : q.reason.standIn? = some r) (ha : q.action ≠ .leave)
    (hs : Site.find (m.thread t) = .ok s) (h : m.handleTrap t q = .ok m')
    (hn : n ≠ 0 → (m.program.method s.trapped).Noted s.scope.bci q.reason r n) :
    (m'.program.method s.trapped).Noted s.scope.bci q.reason r (n + 1) := by
  obtain ⟨p, h', snapshot, hp, hjudged, -, hprofile⟩ := judge_spec hc hin.trapped_lt hr ha
  rw [handleTrap_eq_ok hs] at h
  have hreaches : Reaches n (p.history.count q.reason) := by
    by_cases h0 : n = 0
    · rw [h0]
      exact .of_le (Nat.zero_le _)
    · obtain ⟨p₀, hp₀, -, hn⟩ := hn h0
      rw [hp, MethodState.profileWith_of_profile hp₀]
      exact hn
  have hnoted : ((m.judge s q).2.program.method s.trapped).Noted s.scope.bci q.reason r (n + 1) :=
    ⟨_, hprofile, hjudged.suspects, hjudged.count ▸ hreaches.next⟩
  exact hnoted.grows ((execute_spec h).grows _)

/-- The snapshot by which a trap is judged that was noted before. -/
lemma judge_of_noted (hc : m.config.profileTraps = true) (hin : s.In m)
    (hr : q.reason.standIn? = some r) (ha : q.action ≠ .leave) (hn : 0 < n)
    (hnoted : (m.program.method s.trapped).Noted s.scope.bci q.reason r n) :
    ∃ p h snapshot, (m.program.method s.trapped).profile = some p ∧
      History.Judged p.history p.decompiles s.scope.bci q.reason r h snapshot ∧
      (m.judge s q).1 = Verdict.decide q.reason q.action (some snapshot) m.config ∧
      ((m.judge s q).2.program.method s.trapped).profile = some { p with history := h } ∧
      snapshot.maybePriorTrap = true ∧ Reaches (n + 1) snapshot.count := by
  obtain ⟨p, h, snapshot, hp, hjudged, hverdict, hprofile⟩ := judge_spec hc hin.trapped_lt hr ha
  obtain ⟨p₀, hp₀, hsuspects, hreaches⟩ := hnoted
  obtain rfl : p = p₀ := hp.trans (MethodState.profileWith_of_profile hp₀ _)
  have hcount : 0 < p.history.count q.reason := hreaches.lt hn (by decide)
  exact ⟨p, h, snapshot, hp₀, hjudged, hverdict, hprofile,
    hjudged.prior hsuspects (Nat.ne_of_gt hcount), hjudged.snapshot ▸ hreaches.next⟩

/-- A trap is past the limit once as many were noted before. -/
lemma invalidate_judge (hc : m.config.profileTraps = true) (hin : s.In m)
    (hr : q.reason.standIn? = some r) (ha : q.action ≠ .leave) (hn : 0 < n)
    (hnoted : (m.program.method s.trapped).Noted s.scope.bci q.reason r n)
    (hlimit : m.config.perBytecodeTrapLimit ≤ n)
    (htop : m.config.perBytecodeTrapLimit < counterLimit - 1) :
    (m.judge s q).1.invalidate = true := by
  obtain ⟨p, h, snapshot, -, -, hverdict, -, hprior, hreaches⟩ :=
    judge_of_noted hc hin hr ha hn hnoted
  rw [hverdict]
  exact Verdict.invalidate_of_prior hr hprior (hreaches.lt (Nat.lt_succ_of_le hlimit) htop)

/-- A trap that invalidated its code was judged so, and the rest followed. -/
lemma execute_of_closed (hs : Site.find (m.thread t) = .ok s)
    (h : m.handleTrap t q = .ok m')
    (hopen : (m.program.code.state s.region.ref).inUse = true)
    (hclosed : (m'.program.code.state s.region.ref).inUse = false) :
    ∃ p m₁ m₂, (m.judge s q).1.invalidate = true ∧
      (m.judge s q).2.program.invalidate s.region.ref (m.judge s q).2.cutoff = .ok (true, p) ∧
      m₁ = ({ (m.judge s q).2 with program := p } : Machine).modifyMethod s.trapped
        (·.noteInvalidation s.scope.bci q.reason q.action) ∧
      (m₁.countRecompile s (m.judge s q).1).2.carryOut s
        (m₁.countRecompile s (m.judge s q).1).1 = .ok m₂ ∧
      m'.program = (m₂.noteHandler s).program := by
  have hl := m.learns_judge s q
  rw [handleTrap_eq_ok hs] at h
  rcases execute_cases h with
    ⟨m₂, -, hcarry, hp', hc'⟩ | ⟨-, hu, -⟩ | ⟨p, m₁, m₂, hv, hp, hm, hcarry, hp', -⟩
  · have hl' := (learns_settle hcarry).of_eq hp' hc'
    rw [(hl.trans hl').code, hopen] at hclosed
    cases hclosed
  · rw [hl.code, hopen] at hu
    cases hu
  · exact ⟨p, m₁, m₂, hv, hp, hm, hcarry, hp'⟩

/-- What the profile says once code of the method was invalidated by a trap in it, and that is
noted. -/
lemma exists_profile_of_invalidate {p : Program} {x : Profile} (hin : s.In m)
    (hown : s.trapped = s.compiled) (hr : MethodState.records q.reason q.action = true)
    (hm : (m.program.code.state s.region.ref).mark ≠ .uncounted)
    (hx : (m.program.method s.trapped).profile = some x)
    (hp : m.program.invalidate s.region.ref m.cutoff = .ok (true, p)) :
    ∃ y, ((({ m with program := p } : Machine).modifyMethod s.trapped
        (·.noteInvalidation s.scope.bci q.reason q.action)).program.method s.trapped).profile =
          some y ∧
      x.Grows y ∧ 0 < y.decompiles ∧ y.history.Blames s.scope.bci := by
  have hcompiled : (m.program.code.region s.region.ref).method.ref = s.trapped := by
    rw [hin.region, hown]
    rfl
  have hnews := (Program.invalidate_news hp).1
  have hcharged : (p.method s.trapped).profile = some x.charged := by
    rw [Program.profile_of_invalidate hp hin.ref_lt, if_pos ⟨hnews.symm, hm, hcompiled.symm⟩, hx]
    rfl
  have hsize := (Program.grows_invalidate hp).2.1
  obtain ⟨y, hy, hg, hb⟩ := MethodState.noteInvalidation_spec s.scope.bci hcharged hr
  refine ⟨y, ?_, ⟨hg.history, Nat.le_trans (Nat.le_succ _) hg.decompiles⟩,
    Nat.lt_of_lt_of_le (Nat.succ_pos _) hg.decompiles, hb⟩
  rw [modifyMethod, Program.method_modifyMethod_self _ _ (hsize ▸ hin.trapped_lt)]
  exact hy

/-- A trap that invalidates code of the method that it fired in leaves a profile that blames the
bytecode. -/
lemma blamed_handleTrap (hc : m.config.profileTraps = true) (hin : s.In m)
    (hr : q.reason.standIn? = some r) (ha : q.action ≠ .leave)
    (hs : Site.find (m.thread t) = .ok s) (h : m.handleTrap t q = .ok m')
    (hown : s.trapped = s.compiled)
    (hm : (m.program.code.state s.region.ref).mark ≠ .uncounted)
    (hopen : (m.program.code.state s.region.ref).inUse = true)
    (hclosed : (m'.program.code.state s.region.ref).inUse = false) :
    (m'.program.method s.trapped).Blamed s.scope.bci 0 := by
  have hl := m.learns_judge s q
  obtain ⟨x, h', snapshot, -, -, -, hprofile⟩ := judge_spec hc hin.trapped_lt hr ha
  obtain ⟨p, m₁, m₂, -, hp, rfl, hcarry, hp'⟩ := execute_of_closed hs h hopen hclosed
  obtain ⟨y, hy, -, hd, hb⟩ := exists_profile_of_invalidate (hin.learns hl) hown
    (MethodState.records_of_standIn? hr ha) (hl.code ▸ hm) hprofile hp
  rw [hp']
  exact MethodState.Blamed.grows ⟨y, hy, hd, hb, .of_le (Nat.zero_le _)⟩
    ((learns_settle hcarry).grows _)

/-- If the bytecode was blamed before, the recompilation is counted; and past the cutoff the method
is given up. -/
lemma blamed_handleTrap_again (hc : m.config.profileTraps = true) (hin : s.In m)
    (hr : q.reason.standIn? = some r) (ha : q.action ≠ .leave)
    (hs : Site.find (m.thread t) = .ok s) (h : m.handleTrap t q = .ok m')
    (hown : s.trapped = s.compiled)
    (hm : (m.program.code.state s.region.ref).mark ≠ .uncounted)
    (hopen : (m.program.code.state s.region.ref).inUse = true)
    (hclosed : (m'.program.code.state s.region.ref).inUse = false)
    (hlimit : m.config.perBytecodeTrapLimit ≤ m.config.methodLimit q.reason)
    (hnoted : (m.program.method s.trapped).Noted s.scope.bci q.reason r 1)
    (hblamed : (m.program.method s.trapped).Blamed s.scope.bci k) :
    (m'.program.method s.trapped).Blamed s.scope.bci (k + 1) ∧
      (m.config.perBytecodeRecompilationCutoff < k + 1 →
        m.config.perBytecodeRecompilationCutoff < counterLimit - 1 →
        (m'.program.method s.trapped).notCompilable = true) := by
  have hl := m.learns_judge s q
  obtain ⟨x, h', snapshot, hx, hjudged, hverdict, hprofile, hprior, -⟩ :=
    judge_of_noted hc hin hr ha Nat.one_pos hnoted
  obtain ⟨p, m₁, m₂, hv, hp, hm₁, hcarry, hp'⟩ := execute_of_closed hs h hopen hclosed
  obtain ⟨y, hy, hg, hd, hb⟩ := exists_profile_of_invalidate (hin.learns hl) hown
    (MethodState.records_of_standIn? hr ha) (hl.code ▸ hm) hprofile hp
  rw [← hm₁] at hy
  obtain ⟨x₀, hx₀, hd₀, hb₀, hk⟩ := hblamed
  obtain rfl : x = x₀ := Option.some.inj (hx.symm.trans hx₀)
  have hcount : (m.judge s q).1.countRecompile = true := by
    rw [hverdict] at hv ⊢
    exact Verdict.countRecompile_of_prior hr hprior (hjudged.recompile hb₀ (Nat.ne_of_gt hd₀))
      hlimit hv
  have hconfig : m₁.config = m.config := hm₁ ▸ hl.config
  have hsize : m₁.program.methods.size = m.program.methods.size := by
    rw [hm₁, modifyMethod, Program.size_methods_modifyMethod]
    exact (Program.grows_invalidate hp).2.1.trans hl.size
  obtain ⟨hoverflow, hgive⟩ := countRecompile_spec hcount (hsize ▸ hin.trapped_lt) hy
  obtain ⟨hcarried, hgiven⟩ := carryOut_spec hcarry
  have hreaches : Reaches (k + 1) (saturatingNext y.history.overflowRecompiles) :=
    ((hk.trans hjudged.grows.overflow).trans hg.history.overflow).next
  have hnote := m₂.learns_noteHandler s
  rw [hp']
  constructor
  · have hcounted : ((m₁.countRecompile s (m.judge s q).1).2.program.method s.trapped).Blamed
        s.scope.bci (k + 1) :=
      ⟨_, hoverflow, hd, hb.grows y.history.grows_countOverflow, hreaches⟩
    exact hcounted.grows ((hcarried.trans hnote).grows _)
  · intro hcut htop
    refine (hnote.grows _).notCompilable ?_
    rw [hown]
    refine hgiven (hgive hown (hconfig ▸ hreaches.lt hcut htop)) ?_
    rw [(learns_countRecompile _ _ _).size, hsize, ← hown]
    exact hin.trapped_lt

end Machine
end Bailout
