import Bailout.Proofs.Compiled.Installed
import Bailout.Proofs.Round.Interleaving

/-!
# What rounds do to generations and to code

Marking a region, invalidating it and retiring it change the state of that region only; counters
and profiles aside, the code stays what it was. For each of the three it is said what the state of
the region becomes.
-/

namespace Bailout

/-! ### Generations -/

namespace Generations

variable {g g' : Generations} {required target : Nat} {c : Claim}

/-- Either there is nothing left to do, or another round is under way, or a round begins and brings
the active generation to an end. -/
theorem claim_spec (h : g.claim required = .ok (c, g')) :
    c = .satisfied ∧ required ≤ g.committed ∧ g' = g ∨
    c = .busy ∧ g.committed < required ∧ g.inFlight = true ∧ g' = g ∨
    c = .claimed g.active ∧ g.committed < required ∧ g.inFlight = false ∧
      g' = { g with active := g.active + 1, inFlight := true } := by
  unfold claim at h
  split_ifs at h with hr hf
  · cases h
    exact .inl ⟨rfl, hr, rfl⟩
  · cases h
    exact .inr (.inl ⟨rfl, Nat.not_le.1 hr, hf, rfl⟩)
  · simp only [bind_eq_ok, next, checkedAdd_eq_ok, pure_eq_ok, Prod.mk.injEq] at h
    obtain ⟨_, ⟨-, rfl⟩, rfl, rfl⟩ := h
    exact .inr (.inr ⟨rfl, Nat.not_le.1 hr, by simpa using hf, rfl⟩)

/-- When a round begins. -/
theorem claim_eq_claimed : g.claim required = .ok (.claimed target, g') ↔
    g.committed < required ∧ g.inFlight = false ∧ target = g.active ∧
      g.active + 1 < wordLimit ∧ g' = { g with active := g.active + 1, inFlight := true } := by
  unfold claim
  split_ifs with hr hf
  · simp [Nat.not_lt.2 hr]
  · simp [hf]
  · simp only [bind_eq_ok, next, checkedAdd_eq_ok, pure_eq_ok, Prod.mk.injEq]
    constructor
    · rintro ⟨_, ⟨hlt, rfl⟩, ht, rfl⟩
      cases ht
      exact ⟨Nat.not_le.1 hr, by simpa using hf, rfl, hlt, rfl⟩
    · rintro ⟨-, -, rfl, hlt, rfl⟩
      exact ⟨_, ⟨hlt, rfl⟩, rfl, rfl⟩

theorem finish_eq_ok : g.finish target = .ok g' ↔
    max g.committed target < g.active ∧
      g' = { g with committed := max g.committed target, inFlight := false } := by
  simp only [finish, bind_eq_ok, ensure_eq_ok, decide_eq_true_eq, pure_eq_ok, exists_const]
  rw [eq_comm (a := g')]

theorem advance_spec (h : g.advance = .ok (target, g')) :
    target = g.active ∧ g' = { g with committed := g.active, active := g.active + 1 } := by
  simp only [advance, bind_eq_ok, next, checkedAdd_eq_ok, pure_eq_ok, Prod.mk.injEq] at h
  obtain ⟨_, ⟨-, rfl⟩, rfl, rfl⟩ := h
  exact ⟨rfl, rfl⟩

end Generations

/-! ### Changes of one region -/

/-- The code differs at most in the state of one region. Counters and addresses do not matter. -/
structure CodeCache.ChangesAt (c c' : CodeCache) (ref : Nat) : Prop where
  size : c'.regions.size = c.regions.size
  region : ∀ q, c'.region q = c.region q
  installed : c'.installed = c.installed
  state : ∀ q, q ≠ ref → c'.state q = c.state q

namespace CodeCache

variable {c c' c'' : CodeCache} {ref : Nat}

lemma ChangesAt.refl (c : CodeCache) (ref : Nat) : c.ChangesAt c ref :=
  ⟨rfl, fun _ => rfl, rfl, fun _ _ => rfl⟩

lemma ChangesAt.trans (h : c.ChangesAt c' ref) (h' : c'.ChangesAt c'' ref) :
    c.ChangesAt c'' ref where
  size := h'.size.trans h.size
  region q := (h'.region q).trans (h.region q)
  installed := h'.installed.trans h.installed
  state q hq := (h'.state q hq).trans (h.state q hq)

lemma changesAt_modify (c : CodeCache) (ref : Nat) (f : RegionState → RegionState) :
    c.ChangesAt (c.modify ref f) ref where
  size := size_modify c ref f
  region q := region_modify c ref q f
  installed := rfl
  state _ hq := state_modify_of_ne c f hq

lemma state_of_size_le (h : c.regions.size ≤ ref) : c.state ref = default := by
  simp only [state, Array.getD_eq_getD_getElem?, Array.getElem?_eq_none h]
  rfl

/-- The state of one region changes, if it is there. -/
lemma state_modify (c : CodeCache) (ref r : Nat) (f : RegionState → RegionState) :
    (c.modify ref f).state r = c.state r ∨
      r = ref ∧ (c.modify ref f).state r = f (c.state ref) := by
  by_cases hr : r = ref
  · subst hr
    by_cases hlt : r < c.regions.size
    · exact .inr ⟨rfl, state_modify_self c f hlt⟩
    · have hge := Nat.not_lt.1 hlt
      rw [state_of_size_le hge, state_of_size_le (by rwa [size_modify])]
      exact .inl rfl
  · exact .inl (state_modify_of_ne c f hr)

lemma lt_size_of_needsPatching (h : (c.state ref).needsPatching = true) :
    ref < c.regions.size := by
  by_contra hr
  rw [state_of_size_le (Nat.not_lt.1 hr)] at h
  exact absurd h (by decide)

lemma close_inUse (c : CodeCache) (ref : Nat) : (c.close ref).1 = (c.state ref).inUse := by
  unfold close
  split_ifs with h <;> simp [h]

lemma changesAt_close (c : CodeCache) (ref : Nat) : c.ChangesAt (c.close ref).2 ref := by
  unfold close
  split_ifs
  · exact c.changesAt_modify ref fun s => { s with inUse := false }
  · exact .refl c ref

/-- A region that was closed is not in use, and nothing else is different. -/
lemma state_close (c : CodeCache) (hr : ref < c.regions.size) :
    (c.close ref).2.state ref = { c.state ref with inUse := false } := by
  unfold close
  split_ifs with h
  · exact state_modify_self c _ hr
  · simp only [Bool.not_eq_true] at h
    simp [← h]

end CodeCache

/-! ### Invalidation and retirement -/

namespace Program

variable {p p' : Program} {ref cutoff : Nat} {b : Bool}

lemma code_charge (h : p.charge ref cutoff = .ok p') : p'.code = p.code := by
  unfold charge at h
  split_ifs at h
  · cases h
    rfl
  · simp only [bind_eq_ok, pure_eq_ok] at h
    obtain ⟨_, _, rfl⟩ := h
    rfl

/-- An invalidated region is not in use. Its mark, if it has one, stays. -/
theorem invalidate_spec (h : p.invalidate ref cutoff = .ok (b, p')) :
    p.code.ChangesAt p'.code ref ∧ (ref < p.code.regions.size →
      p'.code.state ref = { p.code.state ref with inUse := false }) := by
  have hchange := p.code.changesAt_close ref
  simp only [invalidate] at h
  split_ifs at h with hnews
  · simp only [bind_eq_ok, pure_eq_ok, Prod.mk.injEq] at h
    obtain ⟨_, hc, -, rfl⟩ := h
    rw [code_charge hc]
    exact ⟨⟨hchange.size, hchange.region, hchange.installed, hchange.state⟩,
      fun hr => p.code.state_close hr⟩
  · simp only [pure_eq_ok, Prod.mk.injEq] at h
    obtain ⟨-, rfl⟩ := h
    rw [CodeCache.close_inUse, Bool.not_eq_true] at hnews
    exact ⟨.refl _ _, fun _ => by simp [← hnews]⟩

/-- A retired region is not in use, and its mark says that it is deoptimized. -/
theorem retire_spec (h : p.retire cutoff ref = .ok p') :
    p.code.ChangesAt p'.code ref ∧ (ref < p.code.regions.size →
      p'.code.state ref = { p.code.state ref with inUse := false, mark := .deoptimized }) := by
  simp only [retire, bind_eq_ok, pure_eq_ok] at h
  obtain ⟨⟨_, p₁⟩, hp, rfl⟩ := h
  obtain ⟨hchange, hstate⟩ := invalidate_spec hp
  refine ⟨hchange.trans (p₁.code.changesAt_modify ref fun s => { s with mark := .deoptimized }),
    fun hr => ?_⟩
  rw [CodeCache.state_modify_self _ _ (by rwa [hchange.size]), hstate hr]

end Program

/-! ### Marking -/

namespace RegionState

@[simp] lemma isPending_withMark (s : RegionState) (counts : Bool) (generation : Nat) :
    (s.withMark counts generation).mark.isPending = true := by
  cases counts <;> rfl

lemma pendingGeneration?_eq_some {s : RegionState} {n : Nat} :
    s.pendingGeneration? = some n ↔ s.mark.isPending = true ∧ s.generation = n := by
  simp [pendingGeneration?]

lemma needsPatching_of_pending {s : RegionState} {n : Nat} (h : s.pendingGeneration? = some n) :
    s.needsPatching = true := by
  simp [needsPatching, (pendingGeneration?_eq_some.1 h).1]

end RegionState

namespace Batch

variable {b b' : Batch} {g : Generations} {c c' : CodeCache} {ref : Nat} {counts : Bool}

/-- What it comes to that a region is tagged for a batch: the region is pending in a generation `n`,
either since before or as of now, and the batch waits for it. -/
structure Tags (b : Batch) (g : Generations) (c : CodeCache) (ref n : Nat) (b' : Batch)
    (c' : CodeCache) : Prop where
  changesAt : c.ChangesAt c' ref
  inUse : (c'.state ref).inUse = (c.state ref).inUse
  pending : (c'.state ref).pendingGeneration? = some n
  required : b'.required = max b.required n
  before : (c.state ref).pendingGeneration? = some n ∨
    (c.state ref).pendingGeneration? = none ∧ n = g.active

theorem tag_spec (hr : ref < c.regions.size) (hb : b.required ≤ g.active)
    (h : b.tag g c ref counts = .ok (b', c')) : ∃ n, Tags b g c ref n b' c' := by
  unfold tag at h
  split_ifs at h with hm
  · simp only [pure_eq_ok, Prod.mk.injEq] at h
    obtain ⟨rfl, rfl⟩ := h
    have hp := RegionState.pendingGeneration?_eq_some.2 ⟨hm, rfl⟩
    exact ⟨_, .refl _ _, rfl, hp, rfl, .inl hp⟩
  · simp only [bind_eq_ok, guarantee_eq_ok, decide_eq_true_eq, pure_eq_ok, Prod.mk.injEq] at h
    obtain ⟨_, hg, rfl, rfl⟩ := h
    have hst := c.state_modify_self (fun s => s.withMark counts g.active) hr
    refine ⟨g.active, c.changesAt_modify ref _, hst ▸ rfl, ?_, (Nat.max_eq_right hb).symm, ?_⟩
    · rw [hst]
      exact RegionState.pendingGeneration?_eq_some.2 ⟨by simp, rfl⟩
    · exact .inr ⟨by simp [RegionState.pendingGeneration?, hm], rfl⟩

/-- Code that is marked is in use, and goes on so. -/
lemma mark_cases (h : b.mark g c ref counts = .ok (b', c')) : c' = c ∨
    (c.state ref).inUse = true ∧ c' = c.modify ref fun s => s.withMark counts g.active := by
  simp only [mark] at h
  split_ifs at h with hopen
  · cases h
    exact .inl rfl
  · cases h
    exact .inl rfl
  · simp only [bind_eq_ok, pure_eq_ok, Prod.mk.injEq] at h
    obtain ⟨_, -, -, rfl⟩ := h
    exact .inr ⟨by simpa using hopen, rfl⟩

end Batch

/-! ### The regions in the cache -/

namespace CodeCache

variable {c : CodeCache} {r n : Nat}

lemma isMarkedUpTo_eq_true :
    c.isMarkedUpTo n r = true ↔ ∃ m ≤ n, (c.state r).pendingGeneration? = some m := by
  cases h : (c.state r).pendingGeneration? <;> simp [isMarkedUpTo, h]

end CodeCache

end Bailout
