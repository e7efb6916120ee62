import Bailout.Proofs.Counting
import Bailout.Proofs.Machine.Kept
import Bailout.Proofs.Round.AtOnce

/-!
# The accounts of invalidations

Invalidations are counted in the code cache and charged to methods. What a change of a program comes
to is told by the regions that go out of use with it: each of them is counted, and charged unless it
is marked otherwise. Deoptimized regions are counted apart. An invalidation by itself keeps these
accounts, and so does a commit, region by region.
-/

namespace Bailout

/-! ### Regions that go out of use -/

namespace CodeCache

variable {c c' c'' : CodeCache} {M r ref : Nat}

/-- A region goes out of use. -/
def leaves (c c' : CodeCache) (r : Nat) : Bool := (c.state r).inUse && !(c'.state r).inUse

/-- A region of a method goes out of use, and that counts against the method. -/
def charges (c c' : CodeCache) (M r : Nat) : Bool :=
  c.leaves c' r && (c.region r).method.ref = M && (c.state r).mark ≠ .uncounted

/-- Regions go out of use, and those that do not stay as they are. -/
structure Closes (c c' : CodeCache) : Prop where
  size : c'.regions.size = c.regions.size
  region : ∀ r, c'.region r = c.region r
  state : ∀ r, (c'.state r).inUse = true → c'.state r = c.state r

lemma Closes.refl (c : CodeCache) : c.Closes c := ⟨rfl, fun _ => rfl, fun _ _ => rfl⟩

lemma Closes.trans (h : c.Closes c') (h' : c'.Closes c'') : c.Closes c'' where
  size := h'.size.trans h.size
  region r := (h'.region r).trans (h.region r)
  state r hr := by
    have hr' := h'.state r hr
    exact hr'.trans (h.state r (hr' ▸ hr))

lemma Closes.of_changesAt (h : c.ChangesAt c' ref) (href : (c'.state ref).inUse = false) :
    c.Closes c' where
  size := h.size
  region := h.region
  state r hr := by
    refine h.state r ?_
    rintro rfl
    rw [href] at hr
    cases hr

/-- Either the one region goes out of use, or none does. -/
lemma leaves_of_changesAt (h : c.ChangesAt c' ref) (href : (c'.state ref).inUse = false) :
    c.leaves c' r = (decide (r = ref) && (c.state ref).inUse) := by
  rw [leaves]
  by_cases hr : r = ref
  · subst hr
    simp [href]
  · simp [h.state r hr, hr]

/-- The regions in the cache are all that were ever installed, those that are deoptimized are out of
use, and they are counted. -/
structure Tidy (c : CodeCache) : Prop where
  values : c.installed.values = List.range c.regions.size
  closed : ∀ r, (c.state r).mark = .deoptimized → (c.state r).inUse = false
  deoptimizations : c.deoptimizations =
    (List.range c.regions.size).countP fun r => (c.state r).mark = .deoptimized

end CodeCache

namespace MethodState

variable {s s' : MethodState} {cutoff : Nat}

/-- If the method was charged more often than the cutoff allows, it is given up. -/
def WithinCutoff (s : MethodState) (cutoff : Nat) : Prop :=
  cutoff < s.decompiles → s.notCompilable = true

lemma WithinCutoff.of_eq (h : s.WithinCutoff cutoff) (hd : s'.decompiles = s.decompiles)
    (hn : s.notCompilable = true → s'.notCompilable = true) : s'.WithinCutoff cutoff :=
  fun hlt => hn (h (hd ▸ hlt))

lemma WithinCutoff.charge (h : s.WithinCutoff cutoff) (hs : s.charge cutoff = .ok s') :
    s'.WithinCutoff cutoff := by
  unfold MethodState.charge at hs
  cases hp : s.profile with
  | none =>
    rw [hp] at hs
    cases hs
    exact h
  | some x =>
    simp only [hp, bind_eq_ok, pure_eq_ok, Profile.countDecompile] at hs
    obtain ⟨y, -, rfl⟩ := hs
    split_ifs with hlt
    · exact fun _ => rfl
    · exact fun hlt' => absurd hlt' hlt

end MethodState

/-! ### Accounts -/

namespace Program

variable {p p' p'' : Program} {M ref cutoff target n : Nat} {b : Bool}

/-- How a program goes on, as far as invalidations are concerned. Nothing comes back into use;
whatever goes out of use is counted, and charged to its method if that has a profile; and no method
is charged beyond the cutoff without being given up. -/
structure Accounts (cutoff : Nat) (p p' : Program) : Prop where
  size_le : p.code.regions.size ≤ p'.code.regions.size
  closed : ∀ r, (p.code.state r).inUse = false → (p'.code.state r).inUse = false
  invalidations : p'.code.invalidations = p.code.invalidations +
    (List.range p'.code.regions.size).countP (p.code.leaves p'.code)
  decompiles : ∀ M, (p.method M).profile.isSome = true →
    (p'.method M).profile.isSome = true ∧ (p'.method M).decompiles = (p.method M).decompiles +
      (List.range p'.code.regions.size).countP (p.code.charges p'.code M)
  withinCutoff : ∀ M, (p.method M).WithinCutoff cutoff → (p'.method M).WithinCutoff cutoff

namespace Accounts

/-- Nothing goes out of use, and nothing is charged. -/
lemma of_inUse (hsize : p.code.regions.size ≤ p'.code.regions.size)
    (huse : ∀ r, (p'.code.state r).inUse = (p.code.state r).inUse)
    (hcount : p'.code.invalidations = p.code.invalidations)
    (hprofile : ∀ M, (p.method M).profile.isSome = true → (p'.method M).profile.isSome = true)
    (hdecompiles : ∀ M, (p'.method M).decompiles = (p.method M).decompiles)
    (hgiven : ∀ M, (p.method M).notCompilable = true → (p'.method M).notCompilable = true) :
    p.Accounts cutoff p' := by
  have hleaves : ∀ r, p.code.leaves p'.code r = false := by
    intro r
    rw [CodeCache.leaves, huse, Bool.and_not_self]
  refine ⟨hsize, fun r hr => (huse r).trans hr, ?_, fun M hM => ⟨hprofile M hM, ?_⟩,
    fun M hM => hM.of_eq (hdecompiles M) (hgiven M)⟩
  · rw [hcount, List.countP_eq_zero.2 fun r _ => by simp [hleaves], Nat.add_zero]
  · rw [hdecompiles, List.countP_eq_zero.2 fun r _ => by simp [CodeCache.charges, hleaves],
      Nat.add_zero]

lemma refl (cutoff : Nat) (p : Program) : p.Accounts cutoff p :=
  of_inUse (Nat.le_refl _) (fun _ => rfl) rfl (fun _ => id) (fun _ => rfl) fun _ => id

/-- Whatever goes out of use does so in one of two parts, with the mark that it has all along. -/
lemma trans (h : p.Accounts cutoff p') (h' : p'.Accounts cutoff p'')
    (hcloses : p.code.Closes p'.code) (hsize : p''.code.regions.size = p'.code.regions.size) :
    p.Accounts cutoff p'' := by
  have hleaves : ∀ r, (p.code.leaves p''.code r).toNat =
      (p.code.leaves p'.code r).toNat + (p'.code.leaves p''.code r).toNat := by
    intro r
    simp only [CodeCache.leaves]
    cases hr : (p.code.state r).inUse with
    | false => simp [h.closed r hr]
    | true =>
      cases hr' : (p'.code.state r).inUse with
      | false => simp [h'.closed r hr']
      | true => simp
  have hcharges : ∀ M r, (p.code.charges p''.code M r).toNat =
      (p.code.charges p'.code M r).toNat + (p'.code.charges p''.code M r).toNat := by
    intro M r
    simp only [CodeCache.charges, hcloses.region]
    cases hr : (p'.code.state r).inUse with
    | false => simp [CodeCache.leaves, hr, h'.closed r hr]
    | true => simp [CodeCache.leaves, hcloses.state r hr]
  refine ⟨hsize ▸ h.size_le, fun r hr => h'.closed r (h.closed r hr), ?_, fun M hM => ?_,
    fun M hM => h'.withinCutoff M (h.withinCutoff M hM)⟩
  · rw [h'.invalidations, h.invalidations, hsize, Nat.add_assoc, ← countP_add fun r _ => hleaves r]
  · obtain ⟨hM', hd⟩ := h.decompiles M hM
    obtain ⟨hM'', hd'⟩ := h'.decompiles M hM'
    refine ⟨hM'', ?_⟩
    rw [hd', hd, hsize, Nat.add_assoc, ← countP_add fun r _ => hcharges M r]

end Accounts

lemma withinCutoff_charge (h : p.charge ref cutoff = .ok p')
    (hM : (p.method M).WithinCutoff cutoff) : (p'.method M).WithinCutoff cutoff := by
  unfold charge at h
  split_ifs at h
  · cases h
    exact hM
  · simp only [bind_eq_ok, pure_eq_ok] at h
    obtain ⟨s, hs, rfl⟩ := h
    rcases p.method_modifyMethod (p.code.region ref).method.ref M fun _ => s with heq | ⟨rfl, heq⟩
    · rwa [heq]
    · rw [heq]
      exact hM.charge hs

/-- What an invalidation does to the counters of the cache, and that it keeps to the cutoff. -/
lemma counters_invalidate (h : p.invalidate ref cutoff = .ok (b, p')) :
    p'.code.invalidations = p.code.invalidations + (p.code.state ref).inUse.toNat ∧
      p'.code.deoptimizations = p.code.deoptimizations ∧
      ∀ M, (p.method M).WithinCutoff cutoff → (p'.method M).WithinCutoff cutoff := by
  have hclose : (p.code.close ref).2.invalidations = p.code.invalidations ∧
      (p.code.close ref).2.deoptimizations = p.code.deoptimizations := by
    unfold CodeCache.close
    split_ifs
    · exact ⟨rfl, rfl⟩
    · exact ⟨rfl, rfl⟩
  simp only [invalidate] at h
  rw [CodeCache.close_inUse] at h
  split_ifs at h with hnews
  · simp only [bind_eq_ok, pure_eq_ok, Prod.mk.injEq] at h
    obtain ⟨_, hp, -, rfl⟩ := h
    refine ⟨?_, ?_, fun M hM => withinCutoff_charge hp hM⟩
    · rw [code_charge hp, hnews]
      exact congrArg (· + 1) hclose.1
    · rw [code_charge hp]
      exact hclose.2
  · simp only [pure_eq_ok, Prod.mk.injEq] at h
    obtain ⟨-, rfl⟩ := h
    rw [Bool.not_eq_true] at hnews
    exact ⟨by simp [hnews], rfl, fun M => id⟩

/-- After an invalidation the region is out of use, and nothing else is. -/
lemma closes_invalidate (h : p.invalidate ref cutoff = .ok (b, p'))
    (hr : ref < p.code.regions.size) : p.code.Closes p'.code := by
  obtain ⟨hchange, hstate⟩ := invalidate_spec h
  exact .of_changesAt hchange (by rw [hstate hr])

/-- An invalidation leaves all marks as they are. -/
lemma mark_invalidate (h : p.invalidate ref cutoff = .ok (b, p'))
    (hr : ref < p.code.regions.size) (r : Nat) :
    (p'.code.state r).mark = (p.code.state r).mark := by
  obtain ⟨hchange, hstate⟩ := invalidate_spec h
  by_cases hne : r = ref
  · rw [hne, hstate hr]
  · rw [hchange.state r hne]

lemma accounts_invalidate (h : p.invalidate ref cutoff = .ok (b, p'))
    (hr : ref < p.code.regions.size) : p.Accounts cutoff p' := by
  obtain ⟨hchange, hstate⟩ := invalidate_spec h
  obtain ⟨hcount, -, hcutoff⟩ := counters_invalidate h
  have hcloses := closes_invalidate h hr
  have href : (p'.code.state ref).inUse = false := by rw [hstate hr]
  have hleaves : ∀ r, p.code.leaves p'.code r = (decide (r = ref) && (p.code.state ref).inUse) :=
    fun r => CodeCache.leaves_of_changesAt hchange href
  refine ⟨Nat.le_of_eq hcloses.size.symm, fun r hopen => ?_, ?_, fun M hM => ?_, hcutoff⟩
  · by_contra hne
    rw [Bool.not_eq_false] at hne
    rw [← hcloses.state r hne, hne] at hopen
    cases hopen
  · rw [hcount, hcloses.size, countP_range_single hr fun r hne => by simp [hleaves, hne]]
    simp [hleaves]
  · obtain ⟨x, hx⟩ := Option.isSome_iff_exists.1 hM
    have hprofile := profile_of_invalidate h hr M
    have hcharges : p.code.charges p'.code M ref =
        decide ((p.code.state ref).inUse = true ∧ (p.code.state ref).mark ≠ .uncounted ∧
          M = (p.code.region ref).method.ref) := by
      rw [CodeCache.charges, hleaves, Bool.eq_iff_iff]
      simp only [decide_true, Bool.true_and, Bool.and_eq_true, decide_eq_true_eq, and_assoc,
        eq_comm (a := M), and_comm (a := (p.code.region ref).method.ref = M)]
    rw [hcloses.size, countP_range_single hr fun r hne => by
      simp [CodeCache.charges, hleaves, hne], hcharges, MethodState.decompiles_of_profile hx]
    split_ifs at hprofile with hcharged
    · rw [hx, Option.map_some] at hprofile
      rw [hprofile, MethodState.decompiles_of_profile hprofile, decide_eq_true hcharged]
      exact ⟨rfl, rfl⟩
    · rw [hx] at hprofile
      rw [hprofile, MethodState.decompiles_of_profile hprofile, decide_eq_false hcharged]
      exact ⟨rfl, rfl⟩

lemma accounts_retire (h : p.retire cutoff ref = .ok p') (hr : ref < p.code.regions.size) :
    p.Accounts cutoff p' ∧ p.code.Closes p'.code ∧
      p'.code.deoptimizations = p.code.deoptimizations := by
  obtain ⟨hchange, hstate⟩ := retire_spec h
  simp only [retire, bind_eq_ok, pure_eq_ok] at h
  obtain ⟨⟨_, p₁⟩, hp, rfl⟩ := h
  have hcloses := closes_invalidate hp hr
  have hmarked : p₁.Accounts cutoff
      { p₁ with code := p₁.code.modify ref fun s => { s with mark := .deoptimized } } := by
    refine .of_inUse (Nat.le_of_eq (CodeCache.size_modify _ _ _).symm) (fun r => ?_) rfl
      (fun _ => id) (fun _ => rfl) fun _ => id
    rcases p₁.code.state_modify ref r fun s => { s with mark := .deoptimized } with
      heq | ⟨rfl, heq⟩
    · exact congrArg _ heq
    · exact (congrArg RegionState.inUse heq :)
  exact ⟨(accounts_invalidate hp hr).trans hmarked hcloses (CodeCache.size_modify _ _ _),
    .of_changesAt hchange (by rw [hstate hr]), (counters_invalidate hp).2.1⟩

lemma accounts_retireMarked (h : p.retireMarked target cutoff = .ok (n, p'))
    (hrefs : ∀ r ∈ p.code.markedRegions target, r < p.code.regions.size) :
    p.Accounts cutoff p' ∧ p'.code.deoptimizations =
      p.code.deoptimizations + (p.code.markedRegions target).length := by
  simp only [retireMarked, bind_eq_ok, pure_eq_ok, Prod.mk.injEq] at h
  obtain ⟨p₁, hp, -, rfl⟩ := h
  have hfold : (∀ r ∈ p.code.markedRegions target, r < p.code.regions.size) →
      p.Accounts cutoff p₁ ∧ p.code.Closes p₁.code ∧
        p₁.code.deoptimizations = p.code.deoptimizations := by
    refine foldlM_induction (fun pre p₁ => (∀ r ∈ pre, r < p.code.regions.size) →
      p.Accounts cutoff p₁ ∧ p.code.Closes p₁.code ∧
        p₁.code.deoptimizations = p.code.deoptimizations)
      (fun _ => ⟨.refl _ p, .refl _, rfl⟩) (fun pre ref p₁ p₂ ih hr hpre => ?_) hp
    obtain ⟨ha, hc, hd⟩ := ih fun r hmem => hpre r (List.mem_append_left _ hmem)
    have href : ref < p₁.code.regions.size := hc.size ▸ hpre ref (by simp)
    obtain ⟨ha', hc', hd'⟩ := accounts_retire hr href
    exact ⟨ha.trans ha' hc hc'.size, hc.trans hc', hd'.trans hd⟩
  obtain ⟨ha, -, hd⟩ := hfold hrefs
  exact ⟨⟨ha.size_le, ha.closed, ha.invalidations, ha.decompiles, ha.withinCutoff⟩,
    congrArg (· + _) hd⟩

end Program

/-! ### The cache stays tidy -/

namespace CodeCache

variable {c c' : CodeCache} {ref target : Nat}

lemma Tidy.lt (h : c.Tidy) {r : Nat} (hr : r ∈ c.installed.values) : r < c.regions.size := by
  rw [h.values] at hr
  exact List.mem_range.1 hr

/-- Only the states, the cache itself and one counter matter. -/
lemma Tidy.congr (h : c.Tidy) (hinstalled : c'.installed = c.installed)
    (hsize : c'.regions.size = c.regions.size)
    (hclosed : ∀ r, (c'.state r).mark = .deoptimized → (c'.state r).inUse = false)
    (hmark : ∀ r, (c'.state r).mark = .deoptimized ↔ (c.state r).mark = .deoptimized)
    (hcount : c'.deoptimizations = c.deoptimizations) : c'.Tidy where
  values := by rw [hinstalled, hsize, h.values]
  closed := hclosed
  deoptimizations := by
    rw [hcount, hsize, h.deoptimizations]
    exact List.countP_congr fun r _ => by simp [hmark]

lemma Tidy.of_regions (h : c.Tidy) (hinstalled : c'.installed = c.installed)
    (hregions : c'.regions = c.regions) (hcount : c'.deoptimizations = c.deoptimizations) :
    c'.Tidy := by
  have hstate : ∀ r, c'.state r = c.state r := fun r => by rw [state, hregions, state]
  exact h.congr hinstalled (by rw [hregions]) (fun r => by rw [hstate]; exact h.closed r)
    (fun r => by rw [hstate]) hcount

lemma Tidy.install (h : c.Tidy) {x : Region} (hx : c.get? x.compileId = none) :
    (c.install x).Tidy := by
  have hnew := c.state_install_self x
  have hold := fun r (hr : r ≠ c.regions.size) => c.state_install_of_ne x hr
  refine ⟨?_, fun r hr => ?_, ?_⟩
  · rw [size_install, List.range_succ, ← h.values]
    exact Table.values_set_of_none _ hx
  · by_cases hne : r = c.regions.size
    · rw [hne, hnew] at hr
      cases hr
    · rw [hold r hne] at hr ⊢
      exact h.closed r hr
  · show c.deoptimizations = _
    rw [size_install, List.range_succ, List.countP_append, List.countP_singleton, hnew,
      h.deoptimizations]
    exact List.countP_congr fun r hr => by rw [hold r (Nat.ne_of_lt (List.mem_range.1 hr))]

/-- A region in use is not deoptimized so far, and being marked it still is not. -/
lemma Tidy.mark (h : c.Tidy) (hopen : (c.state ref).inUse = true) (counts : Bool) (n : Nat) :
    (c.modify ref fun s => s.withMark counts n).Tidy := by
  have hopen' : (c.state ref).mark ≠ .deoptimized := by
    intro hd
    rw [h.closed ref hd] at hopen
    cases hopen
  have hmark : ((c.state ref).withMark counts n).mark ≠ .deoptimized := by
    cases counts <;> simp [RegionState.withMark]
  refine h.congr rfl (size_modify _ _ _) (fun r hr => ?_) (fun r => ?_) rfl
  · rcases c.state_modify ref r fun s => s.withMark counts n with heq | ⟨-, heq⟩
    · rw [heq] at hr ⊢
      exact h.closed r hr
    · rw [heq] at hr
      exact absurd hr hmark
  · rcases c.state_modify ref r fun s => s.withMark counts n with heq | ⟨rfl, heq⟩
    · rw [heq]
    · rw [heq]
      exact iff_of_false hmark hopen'

/-- What an invalidation takes out of use keeps its mark. -/
lemma Tidy.invalidate {p p' : Program} {b : Bool} {cutoff : Nat} (h : p.code.Tidy)
    (hi : p.invalidate ref cutoff = .ok (b, p')) (href : ref < p.code.regions.size) :
    p'.code.Tidy := by
  obtain ⟨hchange, -⟩ := Program.invalidate_spec hi
  have hmark := Program.mark_invalidate hi href
  have hclosed := (Program.accounts_invalidate hi href).closed
  exact h.congr hchange.installed hchange.size
    (fun r hr => hclosed r (h.closed r (hmark r ▸ hr))) (fun r => by rw [hmark])
    (Program.counters_invalidate hi).2.1

/-- A region that is marked pending is not deoptimized so far. -/
lemma Tidy.retires (h : c.Tidy) (hretires : c.Retires c' (c.markedRegions target))
    (hcount : c'.deoptimizations = c.deoptimizations + (c.markedRegions target).length) :
    c'.Tidy := by
  have hlt : ∀ r ∈ c.markedRegions target, r < c.regions.size :=
    fun r hr => h.lt (List.mem_of_mem_filter hr)
  refine ⟨by rw [hretires.installed, hretires.size, h.values], fun r hr => ?_, ?_⟩
  · by_cases hmem : r ∈ c.markedRegions target
    · rw [hretires.retired r hmem (hlt r hmem)]
    · rw [hretires.state r hmem] at hr ⊢
      exact h.closed r hr
  · rw [hcount, h.deoptimizations, markedRegions, ← List.countP_eq_length_filter, h.values,
      hretires.size]
    refine (countP_add fun r hr => ?_).symm
    by_cases hmarked : c.isMarkedUpTo target r = true
    · have hmem : r ∈ c.markedRegions target :=
        List.mem_filter.2 ⟨h.values ▸ hr, hmarked⟩
      obtain ⟨n, -, hn⟩ := isMarkedUpTo_eq_true.1 hmarked
      have hpending := (RegionState.pendingGeneration?_eq_some.1 hn).1
      have hmark : (c.state r).mark ≠ .deoptimized := by
        intro hd
        rw [hd] at hpending
        cases hpending
      simp [hretires.retired r hmem (hlt r hmem), hmark, hmarked]
    · have hmem : r ∉ c.markedRegions target := fun hmem => hmarked (List.mem_filter.1 hmem).2
      simp [hretires.state r hmem, hmarked]

end CodeCache

end Bailout
