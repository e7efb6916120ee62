import Mathlib.Algebra.BigOperators.Group.Finset.Piecewise
import Mathlib.Algebra.Order.BigOperators.Group.Finset
import Bailout.Proofs.Machine.Accounts
import Bailout.Proofs.Machine.Limits
import Bailout.Proofs.Trap.Log

/-!
# Invalidations are charged once

Traps, commits and invalidations that are asked for by themselves reach the same regions, in any
order. Whichever comes first takes a region out of use, for good, and everything that is counted is
counted then: the invalidation in the cache, unless its mark says otherwise the charge in the profile
of the method, and what a trap notes about it where the trap was recorded. So at any time the
counters are what can be counted over the regions.
-/

namespace Bailout

/-! ### Runs -/

namespace Machine

/-- One turn of a machine, and where the trap fired if it is one. -/
inductive Turn (m : Machine) : Option Site → Machine → Prop where
  | installed (x : Region) (hx : m.program.code.get? x.compileId = none) :
      Turn m none (m.setCode (m.program.code.install x))
  | marked {b b' : Batch} {code : CodeCache} {ref : Nat} {counts : Bool}
      (h : b.mark m.generations m.program.code ref counts = .ok (b', code)) :
      Turn m none (m.setCode code)
  | committed {b : Batch} {m' : Machine} (h : m.commit b = .ok m') : Turn m none m'
  | invalidated {ref : Nat} {news : Bool} {m' : Machine}
      (hr : ref < m.program.code.regions.size) (h : m.invalidate ref = .ok (news, m')) :
      Turn m none m'
  | trap {t : Nat} {s : Site} {q : Request} {m' : Machine}
      (hs : Site.find (m.thread t) = .ok s) (hin : s.In m) (h : m.handleTrap t q = .ok m') :
      Turn m (some s) m'
  /-- Neither code nor charges are concerned. -/
  | elsewhere {m' : Machine} (hconfig : m'.config = m.config)
      (hregions : m'.program.code.regions = m.program.code.regions)
      (hinstalled : m'.program.code.installed = m.program.code.installed)
      (hinvalidations : m'.program.code.invalidations = m.program.code.invalidations)
      (hdeoptimizations : m'.program.code.deoptimizations = m.program.code.deoptimizations)
      (hprofile : ∀ M, (m.program.method M).profile.isSome = true →
        (m'.program.method M).profile.isSome = true)
      (hdecompiles : ∀ M,
        (m'.program.method M).decompiles = (m.program.method M).decompiles)
      (hgiven : ∀ M, (m.program.method M).notCompilable = true →
        (m'.program.method M).notCompilable = true) : Turn m none m'

/-- A turn with the machine as it was before and after. -/
structure Passage where
  before : Machine
  cause : Option Site
  after : Machine

/-- The turns of a machine, one after the other. -/
inductive Turns (start : Machine) : List Passage → Machine → Prop where
  | nil : Turns start [] start
  | snoc {ps : List Passage} {m m' : Machine} {cause : Option Site} (h : Turns start ps m)
      (ht : m.Turn cause m') : Turns start (ps ++ [⟨m, cause, m'⟩]) m'

variable {start m m' m₁ m₂ : Machine} {ps : List Passage} {cause : Option Site} {s : Site}
  {q : Request} {t M r : Nat}

/-- New code is given its addresses before it is installed. -/
theorem exists_turn_of_add {compileId size words ref : Nat} {method : Method}
    {a handler : Option Nat} {injected : Bool} {debug : DebugInfo} {code : CodeCache}
    (hid : m.program.code.get? compileId = none)
    (h : m.program.code.add compileId method size a handler words injected debug =
      .ok (ref, code)) :
    ∃ m₁, m.Turn none m₁ ∧ m₁.Turn none (m.setCode code) := by
  have hreserved : ∀ n, m.Turn none (m.setCode { m.program.code with nextAddress := n }) :=
    fun n => .elsewhere rfl rfl rfl rfl rfl (fun _ => id) (fun _ => rfl) fun _ => id
  cases a with
  | some a =>
    simp only [CodeCache.add, pure_bind, bind_eq_ok, pure_eq_ok, Prod.mk.injEq] at h
    obtain ⟨offset, -, -, rfl⟩ := h
    exact ⟨_, hreserved m.program.code.nextAddress, .installed _ hid⟩
  | none =>
    simp only [CodeCache.add, CodeCache.reserve] at h
    split_ifs at h
    · simp only [ok_bind, bind_eq_ok, pure_eq_ok, Prod.mk.injEq] at h
      obtain ⟨offset, -, -, rfl⟩ := h
      exact ⟨_, hreserved ((m.program.code.nextAddress + CodeCache.alignedSize size) % wordLimit),
        .installed _ hid⟩
    · cases h

/-- After a trap it is planned how to replace the frame, which concerns neither code nor charges. -/
theorem exists_turn_of_uncommonTrap {l : Layout} (hs : Site.find (m.thread t) = .ok s)
    (hin : s.In m) (h : m.uncommonTrap t q = .ok (l, m')) :
    ∃ m₁, m.Turn (some s) m₁ ∧ m₁.Turn none m' := by
  simp only [uncommonTrap, fetch, bind_eq_ok, pure_eq_ok, Prod.mk.injEq] at h
  obtain ⟨m₁, hm₁, _, -, -, rfl⟩ := h
  exact ⟨m₁, .trap hs hin hm₁,
    .elsewhere rfl rfl rfl rfl rfl (fun _ => id) (fun _ => rfl) fun _ => id⟩

/-- A trap comes to what is learnt before and after one invalidation, if there is one. -/
lemma program_handleTrap (hs : Site.find (m.thread t) = .ok s) (h : m.handleTrap t q = .ok m') :
    ∃ m₁ m₂ : Machine, m.Learns m₁ ∧ m₂.Learns m' ∧ (m₂.program = m₁.program ∨
      m₁.program.invalidate s.region.ref m.cutoff = .ok (true, m₂.program)) := by
  have hl := m.learns_judge s q
  have hcutoff : (m.judge s q).2.cutoff = m.cutoff := by rw [cutoff, hl.config, cutoff]
  rw [handleTrap_eq_ok hs] at h
  rcases execute_cases h with
    ⟨m₂, -, hcarry, hp, hc⟩ | ⟨-, -, hp, hc⟩ | ⟨p, m₁, m₂, -, hi, rfl, hcarry, hp, hc⟩
  · exact ⟨_, _, hl, (learns_settle hcarry).of_eq hp hc, .inl rfl⟩
  · exact ⟨_, _, hl, (Learns.refl _).of_eq hp hc, .inl rfl⟩
  · have hnoted := learns_modifyMethod { (m.judge s q).2 with program := p } s.trapped
      fun st => ⟨st.grows_noteInvalidation s.scope.bci q.reason q.action,
        st.decompiles_mapHistory _⟩
    exact ⟨_, _, hl, (hnoted.trans (learns_settle hcarry)).of_eq hp hc, .inr (hcutoff ▸ hi)⟩

lemma Learns.accounts {cutoff : Nat} (h : m.Learns m') : m.program.Accounts cutoff m'.program := by
  refine .of_inUse (Nat.le_of_eq (by rw [h.code])) (fun r => by rw [h.code]) (by rw [h.code])
    (fun M hM => ?_) h.decompiles fun M => (h.grows M).notCompilable
  obtain ⟨x, hx⟩ := Option.isSome_iff_exists.1 hM
  obtain ⟨y, hy, -⟩ := (h.grows M).profile x hx
  rw [hy]
  rfl

lemma accounts_handleTrap (hs : Site.find (m.thread t) = .ok s) (hin : s.In m)
    (h : m.handleTrap t q = .ok m') : m.program.Accounts m.cutoff m'.program := by
  obtain ⟨m₁, m₂, hl, hl', hp⟩ := program_handleTrap hs h
  have hr : s.region.ref < m₁.program.code.regions.size := hl.code ▸ hin.ref_lt
  have hcode : ∀ {c : CodeCache}, c = m.program.code → m.program.code.Closes c := by
    rintro _ rfl
    exact .refl _
  rcases hp with hp | hi
  · have ha : m.program.Accounts m.cutoff m₂.program := hp ▸ hl.accounts
    exact ha.trans hl'.accounts (hcode (by rw [hp, hl.code])) (by rw [hl'.code])
  · have hcloses := Program.closes_invalidate hi hr
    have ha := hl.accounts.trans (Program.accounts_invalidate hi hr) (hcode hl.code) hcloses.size
    exact ha.trans hl'.accounts (hl.code ▸ hcloses) (by rw [hl'.code])

lemma tidy_handleTrap (hs : Site.find (m.thread t) = .ok s) (hin : s.In m)
    (h : m.handleTrap t q = .ok m') (hm : m.program.code.Tidy) : m'.program.code.Tidy := by
  obtain ⟨m₁, m₂, hl, hl', hp⟩ := program_handleTrap hs h
  rw [hl'.code]
  rcases hp with hp | hi
  · rwa [hp, hl.code]
  · rw [← hl.code] at hm
    exact hm.invalidate hi (hl.code ▸ hin.ref_lt)

/-! ### One turn -/

lemma Turn.config (h : m.Turn cause m') : m'.config = m.config := by
  cases h with
  | installed x hx => rfl
  | marked h => rfl
  | committed h => exact (program_commit h).1
  | invalidated hr h =>
    simp only [invalidate, bind_eq_ok, pure_eq_ok, Prod.mk.injEq] at h
    obtain ⟨_, -, -, rfl⟩ := h
    rfl
  | trap hs hin h => exact (handleTrap_spec hs h).config
  | elsewhere hconfig => exact hconfig

/-- The accounts are kept in every turn. -/
lemma Turn.accounts (h : m.Turn cause m') (hm : m.program.code.Tidy) :
    m.program.Accounts m.cutoff m'.program := by
  cases h with
  | installed x hx =>
    refine .of_inUse ?_ (fun r => ?_) rfl (fun _ => id) (fun _ => rfl) fun _ => id
    · exact Nat.le_of_lt (Nat.lt_of_lt_of_eq (Nat.lt_succ_self _) (CodeCache.size_install _ x).symm)
    · show ((m.program.code.install x).state r).inUse = _
      by_cases hr : r = m.program.code.regions.size
      · rw [hr, CodeCache.state_install_self, CodeCache.state_of_size_le (Nat.le_refl _)]
        rfl
      · rw [CodeCache.state_install_of_ne _ x hr]
  | @marked b b' code ref counts h =>
    rcases Batch.mark_cases h with rfl | ⟨-, rfl⟩
    · exact .refl _ _
    · refine .of_inUse (Nat.le_of_eq (CodeCache.size_modify _ _ _).symm) (fun r => ?_) rfl
        (fun _ => id) (fun _ => rfl) fun _ => id
      rcases m.program.code.state_modify ref r fun s => s.withMark counts m.generations.active
        with heq | ⟨rfl, heq⟩
      · exact congrArg _ heq
      · exact (congrArg RegionState.inUse heq :)
  | committed h =>
    rcases (program_commit h).2 with hp | ⟨n, target, hp⟩
    · rw [hp]
      exact .refl _ _
    · exact (Program.accounts_retireMarked hp fun r hr => hm.lt (List.mem_of_mem_filter hr)).1
  | invalidated hr h =>
    simp only [invalidate, bind_eq_ok, pure_eq_ok, Prod.mk.injEq] at h
    obtain ⟨⟨_, p⟩, hp, -, rfl⟩ := h
    exact Program.accounts_invalidate hp hr
  | trap hs hin h => exact accounts_handleTrap hs hin h
  | elsewhere hconfig hregions hinstalled hinvalidations _ hprofile hdecompiles hgiven =>
    exact .of_inUse (Nat.le_of_eq (by rw [hregions]))
      (fun r => by rw [CodeCache.state, hregions, CodeCache.state]) hinvalidations hprofile
      hdecompiles hgiven

lemma Turn.tidy (h : m.Turn cause m') (hm : m.program.code.Tidy) : m'.program.code.Tidy := by
  cases h with
  | installed x hx => exact hm.install hx
  | @marked b b' code ref counts h =>
    rcases Batch.mark_cases h with rfl | ⟨hopen, rfl⟩
    · exact hm
    · exact hm.mark hopen counts _
  | committed h =>
    rcases (program_commit h).2 with hp | ⟨n, target, hp⟩
    · rwa [hp]
    · exact hm.retires (Program.retireMarked_spec hp)
        (Program.accounts_retireMarked hp fun r hr => hm.lt (List.mem_of_mem_filter hr)).2
  | invalidated hr h =>
    simp only [invalidate, bind_eq_ok, pure_eq_ok, Prod.mk.injEq] at h
    obtain ⟨⟨_, p⟩, hp, -, rfl⟩ := h
    exact hm.invalidate hp hr
  | trap hs hin h => exact tidy_handleTrap hs hin h hm
  | elsewhere _ hregions hinstalled _ hdeoptimizations =>
    exact hm.of_regions hinstalled hregions hdeoptimizations

/-- A region that is deoptimized stays so. -/
lemma Turn.deoptimized (h : m.Turn cause m') (hm : m.program.code.Tidy)
    (hr : (m.program.code.state r).mark = .deoptimized) :
    (m'.program.code.state r).mark = .deoptimized := by
  cases h with
  | installed x hx =>
    show ((m.program.code.install x).state r).mark = _
    have hne : r ≠ m.program.code.regions.size := by
      rintro rfl
      rw [CodeCache.state_of_size_le (Nat.le_refl _)] at hr
      cases hr
    rwa [CodeCache.state_install_of_ne _ x hne]
  | @marked b b' code ref counts h =>
    rcases Batch.mark_cases h with rfl | ⟨hopen, rfl⟩
    · exact hr
    · show ((m.program.code.modify ref _).state r).mark = _
      have hne : r ≠ ref := by
        rintro rfl
        rw [hm.closed r hr] at hopen
        cases hopen
      rwa [CodeCache.state_modify_of_ne _ _ hne]
  | committed h =>
    rcases (program_commit h).2 with hp | ⟨n, target, hp⟩
    · rwa [hp]
    · have hretires := Program.retireMarked_spec hp
      by_cases hmem : r ∈ m.program.code.markedRegions target
      · rw [hretires.retired r hmem (hm.lt (List.mem_of_mem_filter hmem))]
      · rwa [hretires.state r hmem]
  | invalidated hlt h =>
    simp only [invalidate, bind_eq_ok, pure_eq_ok, Prod.mk.injEq] at h
    obtain ⟨⟨_, p⟩, hp, -, rfl⟩ := h
    rw [Program.mark_invalidate hp hlt]
    exact hr
  | trap hs hin h =>
    obtain ⟨m₁, m₂, hl, hl', hp⟩ := program_handleTrap hs h
    rw [hl'.code]
    rcases hp with hp | hi
    · rwa [hp, hl.code]
    · rwa [Program.mark_invalidate hi (hl.code ▸ hin.ref_lt), hl.code]
  | elsewhere _ hregions =>
    rw [CodeCache.state, hregions]
    exact hr

end Machine

/-! ### What traps note -/

/-- A number in a history that records and handlers have nothing to do with, and that goes up either
with recompilations or with tenure traps. -/
structure Tally (ψ : History → Nat) : Prop where
  empty : ∀ k, ψ (.empty k) = 0
  countTrap : ∀ (h : History) r, ψ (h.countTrap r) = ψ h
  records : ∀ (h : History) t, ψ { h with records := t } = ψ h
  handlers : ∀ (h : History) t, ψ { h with handlers := t } = ψ h
  rises : ∃ i j, i + j = 1 ∧
    ∀ h : History, ψ h.countOverflow ≤ ψ h + i ∧ ψ h.countTenure ≤ ψ h + j

namespace Tally

variable {ψ : History → Nat} {f : History → History} {o : Option Profile}

lemma saturatingNext_le (n : Nat) : saturatingNext n ≤ n + 1 := Nat.min_le_left _ _

lemma overflowRecompiles : Tally History.overflowRecompiles :=
  ⟨fun _ => rfl, fun _ _ => rfl, fun _ _ => rfl, fun _ _ => rfl,
    ⟨1, 0, rfl, fun _ => ⟨saturatingNext_le _, Nat.le_refl _⟩⟩⟩

lemma tenureTraps : Tally History.tenureTraps :=
  ⟨fun _ => rfl, fun _ _ => rfl, fun _ _ => rfl, fun _ _ => rfl,
    ⟨0, 1, rfl, fun _ => ⟨Nat.le_refl _, saturatingNext_le _⟩⟩⟩

lemma update (ht : Tally ψ) (h : History) (bci : Nat) (f : Record → Record) :
    ψ ((h.update? bci f).getD h) = ψ h := by
  unfold History.update?
  split_ifs
  · exact ht.records h _
  · rfl

/-- A trap that is looked up is only recorded. -/
lemma query (ht : Tally ψ) (h : History) (decompiles bci : Nat) (r : Reason) :
    ψ (h.query decompiles bci r true).1 = ψ h := by
  cases hr : r.standIn? with
  | none =>
    rw [History.fst_query_of_none hr, if_pos rfl]
    exact ht.countTrap h r
  | some x =>
    rw [History.fst_query_of_some hr, if_pos rfl, ht.update]
    exact ht.countTrap h r

lemma enterHandler (ht : Tally ψ) (h : History) (bci : Nat) :
    ψ ((h.enterHandler? bci).getD h) = ψ h := by
  unfold History.enterHandler?
  split_ifs
  · exact ht.handlers h _
  · rfl

/-- What is noted when code is invalidated, once. -/
lemma noteInvalidation (ht : Tally ψ) (h : History) (bci : Nat) (r : Reason) (a : Action)
    (recompile : Bool) :
    ψ (if recompile then (h.noteInvalidation bci r a).countOverflow
      else h.noteInvalidation bci r a) ≤ ψ h + 1 := by
  obtain ⟨i, j, hij, hrises⟩ := ht.rises
  have hnoted : ψ (h.noteInvalidation bci r a) ≤ ψ h + j := by
    have hrecorded : ψ (if MethodState.records r a then
        (h.update? bci fun rec => { rec with state := rec.state.setRecompiled true }).getD h
        else h) = ψ h := by
      split_ifs
      · exact ht.update h bci _
      · rfl
    simp only [History.noteInvalidation]
    by_cases htenured : r = .tenured
    · rw [if_pos htenured]
      exact hrecorded ▸ (hrises _).2
    · rw [if_neg htenured, hrecorded]
      exact Nat.le_add_right _ _
  have hcounted := (hrises (h.noteInvalidation bci r a)).1
  split_ifs <;> omega

/-- The number in a profile, if there is one. -/
def read (ψ : History → Nat) (o : Option Profile) : Nat := (o.map fun x => ψ x.history).getD 0

lemma read_mapHistory (hf : ∀ h, ψ (f h) = ψ h) : read ψ (o.map (·.mapHistory f)) = read ψ o := by
  cases o with
  | none => rfl
  | some x => exact hf x.history

lemma map_mapHistory (o : Option Profile) (f g : History → History) :
    (o.map (·.mapHistory f)).map (·.mapHistory g) = o.map (·.mapHistory fun h => g (f h)) := by
  cases o with
  | none => rfl
  | some x => rfl

lemma read_mapHistory_le (hf : ∀ h, ψ (f h) ≤ ψ h + 1) :
    read ψ (o.map (·.mapHistory f)) ≤ read ψ o + 1 := by
  cases o with
  | none => exact Nat.zero_le _
  | some x => exact hf x.history

end Tally

/-- By how much a number goes up in the profiles of all methods together. -/
def Program.rise (ψ : History → Nat) (p p' : Program) : Nat :=
  ∑ M ∈ Finset.range p'.methods.size,
    (Tally.read ψ (p'.method M).profile - Tally.read ψ (p.method M).profile)

namespace Machine

variable {ψ : History → Nat} {start m m' m₁ m₂ : Machine} {s : Site} {q : Request} {v : Verdict}
  {t M r : Nat}

/-- A trap that is judged leaves a tally as it is. -/
lemma read_judge (ht : Tally ψ) (hlt : s.trapped < m.program.methods.size) :
    Tally.read ψ ((m.judge s q).2.program.method M).profile =
      Tally.read ψ (m.program.method M).profile := by
  by_cases hM : M = s.trapped
  · have hfor : Tally.read ψ (m.profileFor s) =
        Tally.read ψ (m.program.method s.trapped).profile := by
      rw [profileFor, MethodState.profileWith]
      split_ifs
      · cases (m.program.method s.trapped).profile with
        | none => exact ht.empty _
        | some x => rfl
      · rfl
    rw [hM, profile_judge hlt, ← hfor]
    split_ifs
    · cases m.profileFor s with
      | none => rfl
      | some x => exact ht.query _ _ _ _
    · rfl
  · rw [profile_judge_of_ne hM]

/-- What follows from a verdict that counts no recompilation leaves a tally as it is. -/
lemma read_settle (ht : Tally ψ) (hv : v.countRecompile = false ∨ M ≠ s.trapped)
    (h : (m.countRecompile s v).2.carryOut s (m.countRecompile s v).1 = .ok m₂) :
    Tally.read ψ ((m₂.noteHandler s).program.method M).profile =
      Tally.read ψ (m.program.method M).profile := by
  rw [profile_settle h M]
  by_cases hM : M = s.trapped
  · have hcount := hv.resolve_right (not_not_intro hM)
    rw [if_pos hM, Tally.read_mapHistory fun h => ht.enterHandler h _,
      Tally.read_mapHistory fun h => by rw [hcount]; rfl]
  · rw [if_neg hM]

/-- A trap adds to a tally only in the method in which it fired, and only if it takes its region out
of use. -/
lemma read_handleTrap (ht : Tally ψ) (hs : Site.find (m.thread t) = .ok s) (hin : s.In m)
    (h : m.handleTrap t q = .ok m') (M : Nat) :
    Tally.read ψ (m'.program.method M).profile ≤ Tally.read ψ (m.program.method M).profile +
      if M = s.trapped then
        (m.program.code.leaves m'.program.code s.region.ref).toNat else 0 := by
  have hstate := (handleTrap_spec hs h).state hin.ref_lt
  have hcode := (m.learns_judge s q).code
  have hjudged : ∀ M, Tally.read ψ ((m.judge s q).2.program.method M).profile =
      Tally.read ψ (m.program.method M).profile := fun M => read_judge ht hin.trapped_lt
  rw [handleTrap_eq_ok hs] at h
  rcases execute_cases h with
    ⟨m₂, hv, hcarry, hp, -⟩ | ⟨-, -, hp, -⟩ | ⟨p, m₁, m₂, hv, hi, rfl, hcarry, hp, -⟩
  · have hcount : (m.judge s q).1.countRecompile = false := by
      by_contra hne
      rw [Bool.not_eq_false] at hne
      have hv' : (m.judge s q).1.invalidate = true :=
        Verdict.invalidate_of_decide _ _ _ _ (.inr hne)
      rw [hv] at hv'
      cases hv'
    rw [hp, read_settle ht (.inl hcount) hcarry, hjudged]
    exact Nat.le_add_right _ _
  · rw [hp, hjudged]
    exact Nat.le_add_right _ _
  · have hleaves : m.program.code.leaves m'.program.code s.region.ref = true := by
      have hnews := (Program.invalidate_news hi).1
      rw [hcode] at hnews
      rw [CodeCache.leaves, hstate, ← hnews, hv]
      rfl
    have hcharged : Tally.read ψ (p.method M).profile =
        Tally.read ψ (m.program.method M).profile :=
      Program.kept_invalidate (P := fun o => Tally.read ψ o = _) (fun _ hx => hx) hi (hjudged M)
    have hnoted := profile_noteInvalidation { (m.judge s q).2 with program := p } s q M
    rw [hleaves, hp]
    split_ifs with hM
    · rw [if_pos hM] at hnoted
      rw [profile_settle hcarry M, if_pos hM, Tally.read_mapHistory fun h => ht.enterHandler h _,
        hnoted, Tally.map_mapHistory, ← hcharged]
      exact Tally.read_mapHistory_le fun h => ht.noteInvalidation h _ _ _ _
    · rw [if_neg hM] at hnoted
      rw [read_settle ht (.inr hM) hcarry, hnoted, hcharged]
      exact Nat.le_add_right _ _

/-- All that a trap adds to a tally is one, if it takes its region out of use. -/
lemma rise_handleTrap (ht : Tally ψ) (hs : Site.find (m.thread t) = .ok s) (hin : s.In m)
    (h : m.handleTrap t q = .ok m') : m.program.rise ψ m'.program ≤
      (m.program.code.leaves m'.program.code s.region.ref).toNat := by
  have hle : m.program.rise ψ m'.program ≤ ∑ M ∈ Finset.range m'.program.methods.size,
      if M = s.trapped then (m.program.code.leaves m'.program.code s.region.ref).toNat else 0 :=
    Finset.sum_le_sum fun M _ => Nat.sub_le_iff_le_add'.2 (read_handleTrap ht hs hin h M)
  refine Nat.le_trans hle ?_
  rw [Finset.sum_ite_eq']
  split_ifs
  · exact Nat.le_refl _
  · exact Nat.zero_le _

/-! ### Whole runs -/

namespace Passage

/-- A region of a method goes out of use, and that counts against the method. -/
def charges (M r : Nat) (p : Passage) : Bool :=
  p.before.program.code.charges p.after.program.code M r

/-- A trap fires in an activation of a region. -/
def isTrapIn (r : Nat) (p : Passage) : Bool := p.cause.any fun s => s.region.ref = r

end Passage

/-- By how much a number goes up in all profiles with the traps in a region. -/
def risesIn (ψ : History → Nat) (r : Nat) (ps : List Passage) : Nat :=
  ((ps.filter (Passage.isTrapIn r)).map fun p => p.before.program.rise ψ p.after.program).sum

variable {ps : List Passage}

lemma Turns.config (h : Turns start ps m) : m.config = start.config := by
  induction h with
  | nil => rfl
  | snoc _ ht ih => exact ht.config.trans ih

lemma Turns.tidy (h : Turns start ps m) (hcode : start.program.code = {}) :
    m.program.code.Tidy := by
  induction h with
  | nil =>
    rw [hcode]
    exact ⟨rfl, fun r hr => (by cases hr), rfl⟩
  | snoc _ ht ih => exact ht.tidy ih

/-- What is out of use at some time is so at the end, and so is what is deoptimized. -/
lemma Turns.stays (h : Turns start ps m) (hcode : start.program.code = {}) : ∀ p ∈ ps, ∀ r,
    ((p.before.program.code.state r).inUse = false → (m.program.code.state r).inUse = false) ∧
    ((p.after.program.code.state r).inUse = false → (m.program.code.state r).inUse = false) ∧
    ((p.before.program.code.state r).mark = .deoptimized →
      (m.program.code.state r).mark = .deoptimized) := by
  induction h with
  | nil => simp
  | snoc h ht ih =>
    have hm := h.tidy hcode
    have hclosed := (ht.accounts hm).closed
    intro p hp r
    rcases List.mem_append.1 hp with hp | hp
    · obtain ⟨hbefore, hafter, hmark⟩ := ih p hp r
      exact ⟨fun hr => hclosed r (hbefore hr), fun hr => hclosed r (hafter hr),
        fun hr => ht.deoptimized hm (hmark hr)⟩
    · obtain rfl := List.mem_singleton.1 hp
      exact ⟨hclosed r, id, ht.deoptimized hm⟩

/-- All that was never installed is in use, as it were. -/
lemma lt_of_not_inUse (hr : (m.program.code.state r).inUse = false) :
    r < m.program.code.regions.size := by
  by_contra hge
  rw [CodeCache.state_of_size_le (Nat.not_lt.1 hge)] at hr
  cases hr

/-- The counter of invalidations counts the regions that are out of use. -/
lemma Turns.invalidations (h : Turns start ps m) (hcode : start.program.code = {}) :
    m.program.code.invalidations = (List.range m.program.code.regions.size).countP
      fun r => !(m.program.code.state r).inUse := by
  induction h with
  | nil =>
    rw [hcode]
    rfl
  | @snoc ps m m' cause h ht ih =>
    have ha := ht.accounts (h.tidy hcode)
    rw [ha.invalidations, ih, ← countP_range_of_le ha.size_le, ← countP_add]
    · intro r _
      cases hr : (m.program.code.state r).inUse with
      | false => simp [CodeCache.leaves, hr, ha.closed r hr]
      | true => simp [CodeCache.leaves, hr]
    · intro r hr
      by_contra hne
      have hopen : (m.program.code.state r).inUse = false := by simpa using hne
      exact absurd (lt_of_not_inUse hopen) (Nat.not_lt.2 hr)

/-- A method that has a profile is charged for each of its regions that went out of use, unless the
region was marked otherwise then. -/
lemma Turns.decompiles (h : Turns start ps m) (hcode : start.program.code = {})
    (hM : (start.program.method M).profile.isSome = true) :
    (m.program.method M).profile.isSome = true ∧
      (m.program.method M).decompiles = (start.program.method M).decompiles +
        (List.range m.program.code.regions.size).countP
          fun r => ps.any (Passage.charges M r) := by
  induction h with
  | nil => exact ⟨hM, by rw [hcode]; rfl⟩
  | @snoc ps m m' cause h ht ih =>
    have ha := ht.accounts (h.tidy hcode)
    obtain ⟨hsome, hd⟩ := ih
    obtain ⟨hsome', hd'⟩ := ha.decompiles M hsome
    -- A region that was charged for is out of use by now.
    have hout : ∀ r, ps.any (Passage.charges M r) = true →
        (m.program.code.state r).inUse = false := by
      intro r hr
      obtain ⟨p, hp, hcharges⟩ := List.any_eq_true.1 hr
      simp only [Passage.charges, CodeCache.charges, CodeCache.leaves, Bool.and_eq_true,
        Bool.not_eq_true'] at hcharges
      exact (h.stays hcode p hp r).2.1 hcharges.1.1.2
    refine ⟨hsome', ?_⟩
    rw [hd', hd, Nat.add_assoc, ← countP_range_of_le ha.size_le, ← countP_add]
    · intro r _
      rw [List.any_append, List.any_cons, List.any_nil, Bool.or_false]
      cases hr : ps.any (Passage.charges M r) with
      | false => simp [Passage.charges]
      | true => simp [CodeCache.charges, CodeCache.leaves, hout r hr]
    · intro r hr
      by_contra hne
      rw [Bool.not_eq_false] at hne
      exact absurd (lt_of_not_inUse (hout r hne)) (Nat.not_lt.2 hr)

lemma Turns.withinCutoff (h : Turns start ps m) (hcode : start.program.code = {})
    (hM : (start.program.method M).WithinCutoff start.cutoff) :
    (m.program.method M).WithinCutoff start.cutoff := by
  induction h with
  | nil => exact hM
  | @snoc ps m m' cause h ht ih =>
    have hcutoff : m.cutoff = start.cutoff := by rw [cutoff, h.config, cutoff]
    exact (hcutoff ▸ ht.accounts (h.tidy hcode)).withinCutoff M ih

/-- Traps in a region add to a tally only as long as the region is in use. -/
lemma Turns.risesIn_le (ht : Tally ψ) (h : Turns start ps m) (hcode : start.program.code = {})
    (r : Nat) : risesIn ψ r ps ≤ (!(m.program.code.state r).inUse).toNat := by
  induction h with
  | nil => exact Nat.zero_le _
  | @snoc ps m m' cause h hturn ih =>
    have ha := hturn.accounts (h.tidy hcode)
    have hsum : (!(m.program.code.state r).inUse).toNat +
        (m.program.code.leaves m'.program.code r).toNat =
          (!(m'.program.code.state r).inUse).toNat := by
      cases hr : (m.program.code.state r).inUse with
      | false => simp [CodeCache.leaves, hr, ha.closed r hr]
      | true => simp [CodeCache.leaves, hr]
    rw [risesIn, List.filter_append, List.map_append, List.sum_append, ← hsum]
    refine Nat.add_le_add ih ?_
    rw [List.filter_singleton]
    cases hturn with
    | @trap t s q _ hs hin h =>
      by_cases hr : s.region.ref = r
      · subst hr
        simpa [Passage.isTrapIn] using rise_handleTrap ht hs hin h
      · simp [Passage.isTrapIn, hr]
    | _ => exact Nat.zero_le _

/-! ### Every region is charged once -/

/-- What a run comes to that starts without code. What goes out of use stays so, and so does what is
deoptimized. The cache counts both. A method that has a profile from the start is charged for each
of its regions that went out of use, unless the region was marked otherwise then, and is given up
beyond the cutoff. With all traps in one region together, at most one recompilation is counted that
a bytecode caused again, and at most one tenure trap. -/
theorem charged_once (h : Turns start ps m) (hcode : start.program.code = {}) :
    (∀ p ∈ ps, ∀ r,
      ((p.before.program.code.state r).inUse = false → (m.program.code.state r).inUse = false) ∧
      ((p.before.program.code.state r).mark = .deoptimized →
        (m.program.code.state r).mark = .deoptimized)) ∧
    m.program.code.invalidations = m.program.code.installed.values.countP
      (fun r => !(m.program.code.state r).inUse) ∧
    m.program.code.deoptimizations = m.program.code.installed.values.countP
      (fun r => (m.program.code.state r).mark = .deoptimized) ∧
    (∀ M, (start.program.method M).profile.isSome = true →
      (m.program.method M).decompiles = (start.program.method M).decompiles +
        m.program.code.installed.values.countP fun r => ps.any (Passage.charges M r)) ∧
    (∀ M, (start.program.method M).decompiles ≤ start.config.perMethodRecompilationCutoff →
      start.config.perMethodRecompilationCutoff < (m.program.method M).decompiles →
      (m.program.method M).notCompilable = true) ∧
    ∀ r, risesIn History.overflowRecompiles r ps ≤ 1 ∧ risesIn History.tenureTraps r ps ≤ 1 := by
  have hm := h.tidy hcode
  have hstays := h.stays hcode
  rw [hm.values]
  refine ⟨fun p hp r => ⟨(hstays p hp r).1, (hstays p hp r).2.2⟩, h.invalidations hcode,
    hm.deoptimizations, fun M hM => (h.decompiles hcode hM).2, fun M hle => ?_, fun r => ?_⟩
  · exact h.withinCutoff hcode fun hlt => absurd hle (Nat.not_le.2 hlt)
  · exact ⟨Nat.le_trans (h.risesIn_le .overflowRecompiles hcode r) (Bool.toNat_le _),
      Nat.le_trans (h.risesIn_le .tenureTraps hcode r) (Bool.toNat_le _)⟩

namespace Worn

/-- The method has a profile, but is not compiled so far. -/
def bare : Machine where
  config := config
  program := { methods := #[{ method, profile := some (.empty 1 1) }] }
  roster := { initialized := true }

/-- A thread runs in each of the regions by now. -/
def manned (m : Machine) : Machine :=
  { m with roster := {
      threads := #[thread 0, thread 1, thread 2], registered := [0, 1, 2], initialized := true } }

lemma turn_manned (m : Machine) : m.Turn none (manned m) :=
  .elsewhere rfl rfl rfl rfl rfl (fun _ => id) (fun _ => rfl) fun _ => id

end Worn

/-- One region is marked so that it does not count, and traps; one that is not marked traps; one is
marked and retired by a commit. The method is charged for the last two. -/
theorem charged_once_worn : ∃ ps m, Turns Worn.bare ps m ∧
    m.program.code.invalidations = 3 ∧ m.program.code.deoptimizations = 2 ∧
    (m.program.method 0).decompiles = 2 := by
  have h : Turns Worn.bare [] _ := .nil
  have h := h.snoc (.installed (Worn.region 0) rfl)
  have h := h.snoc (.installed (Worn.region 1) rfl)
  have h := h.snoc (.installed (Worn.region 2) rfl)
  have h := h.snoc (Worn.turn_manned _)
  have h := h.snoc (@Turn.marked _ ⟨0⟩ _ _ 1 false rfl)
  have h := h.snoc (@Turn.marked _ ⟨1⟩ _ _ 2 true rfl)
  have h := h.snoc (@Turn.trap _ 1 _ (Worn.nullCheck .makeNotEntrant) _ rfl
    ⟨rfl, by decide, by decide⟩ rfl)
  have h := h.snoc (@Turn.trap _ 0 _ (Worn.nullCheck .reinterpret) _ rfl
    ⟨rfl, by decide, by decide⟩ rfl)
  have h := h.snoc (@Turn.committed _ ⟨1⟩ _ rfl)
  obtain ⟨-, hinvalidations, hdeoptimizations, hdecompiles, -⟩ := charged_once h rfl
  exact ⟨_, _, h, hinvalidations.trans (by decide), hdeoptimizations.trans (by decide),
    (hdecompiles 0 rfl).trans (by decide)⟩

end Machine
end Bailout
