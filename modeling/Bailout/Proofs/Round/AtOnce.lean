import Bailout.Proofs.Round.Steps

/-!
# A round at once

What `Rounds.deoptimizeMarked` comes to when nothing comes between: every region that is due is
retired, and after that no registered thread has a frame that goes on in code that must not. A party
that has it done for itself leaves the invariant as it is, and may call the generation committed.
-/

namespace Bailout

/-! ### Code -/

/-- Some regions are retired, and nothing else is different. Counters do not matter. -/
structure CodeCache.Retires (c c' : CodeCache) (refs : List Nat) : Prop where
  size : c'.regions.size = c.regions.size
  region : ∀ r, c'.region r = c.region r
  installed : c'.installed = c.installed
  retired : ∀ r ∈ refs, r < c.regions.size →
    c'.state r = { c.state r with inUse := false, mark := .deoptimized }
  state : ∀ r ∉ refs, c'.state r = c.state r

namespace CodeCache.Retires

variable {c c' : CodeCache} {refs : List Nat} {r n : Nat}

/-- A region keeps its state, or it cannot be entered and its mark is no longer pending. -/
lemma state_cases (h : c.Retires c' refs) (hrefs : ∀ r ∈ refs, r < c.regions.size) (r : Nat) :
    c'.state r = c.state r ∨
      ((c'.state r).inUse = false ∧ (c'.state r).needsPatching = true) ∧
        (c'.state r).pendingGeneration? = none ∧
        (c'.state r).generation = (c.state r).generation := by
  by_cases hr : r ∈ refs
  · rw [h.retired r hr (hrefs r hr)]
    exact .inr ⟨⟨rfl, rfl⟩, rfl, rfl⟩
  · exact .inl (h.state r hr)

/-- No mark comes to be pending. -/
lemma pending (h : c.Retires c' refs) (hrefs : ∀ r ∈ refs, r < c.regions.size)
    (hn : (c'.state r).pendingGeneration? = some n) :
    (c.state r).pendingGeneration? = some n := by
  rcases h.state_cases hrefs r with heq | ⟨-, hnone, -⟩
  · rwa [heq] at hn
  · rw [hnone] at hn
    cases hn

end CodeCache.Retires

variable {cutoff target : Nat}

namespace Program

variable {p p' : Program} {refs : List Nat}

theorem foldlM_retire_spec (h : refs.foldlM (fun p ref => p.retire cutoff ref) p = .ok p') :
    p.code.Retires p'.code refs := by
  refine foldlM_induction (fun pre (p₁ : Program) => p.code.Retires p₁.code pre)
    ⟨rfl, fun _ => rfl, rfl, by simp, fun _ _ => rfl⟩ ?_ h
  intro pre ref p₁ p₂ hpre hr
  obtain ⟨hchange, hstate⟩ := retire_spec hr
  refine ⟨hchange.size.trans hpre.size, fun r => (hchange.region r).trans (hpre.region r),
    hchange.installed.trans hpre.installed, fun r hmem hlt => ?_, fun r hmem => ?_⟩
  · by_cases hne : r = ref
    · subst hne
      rw [hstate (hpre.size.symm ▸ hlt)]
      by_cases hin : r ∈ pre
      · rw [hpre.retired r hin hlt]
      · rw [hpre.state r hin]
    · rw [hchange.state r hne]
      exact hpre.retired r ((List.mem_append.1 hmem).resolve_right (by simpa using hne)) hlt
  · obtain ⟨hin, hne⟩ : r ∉ pre ∧ r ≠ ref := by simpa using hmem
    rw [hchange.state r hne, hpre.state r hin]

theorem retireMarked_spec {n : Nat} (h : p.retireMarked target cutoff = .ok (n, p')) :
    p.code.Retires p'.code (p.code.markedRegions target) := by
  simp only [retireMarked, bind_eq_ok, pure_eq_ok, Prod.mk.injEq] at h
  obtain ⟨p₁, hp, -, rfl⟩ := h
  obtain ⟨hsize, hregion, hinstalled, hretired, hstate⟩ := foldlM_retire_spec hp
  exact ⟨hsize, hregion, hinstalled, hretired, hstate⟩

end Program

/-! ### All of a round -/

namespace Rounds

variable {r r' : Rounds}

/-- What a round comes to that is done at once. -/
structure Finishes (r r' : Rounds) (target : Nat) : Prop where
  generations : r'.generations = r.generations
  code : r.program.code.Retires r'.program.code (r.program.code.markedRegions target)
  roster : r.roster.Keeps r'.roster
  patched : ∀ t ∈ r.roster.registered, ∀ ref, (r'.program.code.state ref).needsPatching = true →
    ¬ (r'.roster.thread t).GoesOnIn ref

theorem deoptimizeMarked_spec (h : r.deoptimizeMarked cutoff target = .ok r') :
    r.Finishes r' target := by
  simp only [deoptimizeMarked, bind_eq_ok, pure_eq_ok] at h
  obtain ⟨⟨_, program⟩, hp, ⟨histogram, roster⟩, hv, rfl⟩ := h
  simp only at hv
  obtain ⟨roster₀, hreg, hthread, hv⟩ := Roster.visitAll_of_visitThreads hv
  have hkeeps : r.roster.Keeps roster₀ := by
    refine ⟨hreg, fun s origin hs => ?_, fun s ref hs => ?_⟩
    · rwa [hthread]
    · rwa [hthread] at hs
  obtain ⟨hkeeps', hpatched⟩ := visitAll_keeps hv
  refine ⟨rfl, Program.retireMarked_spec hp, hkeeps.trans hkeeps', fun t ht => hpatched t ?_⟩
  rwa [hkeeps.registered]

end Rounds

/-! ### The invariant -/

namespace World

variable {w : World} {i c : Nat} {q : Party} {rounds : Rounds}

lemma CodeOk.markedRegions_lt {g : Generations} {code : CodeCache} (h : CodeOk g code) :
    ∀ r ∈ code.markedRegions target, r < code.regions.size :=
  fun r hr => h.installed_lt r (List.mem_of_mem_filter hr)

/-- Once all regions are retired that are due by a generation, the generation may be called
committed. -/
lemma CodeOk.retires {g : Generations} {code code' : CodeCache} (h : CodeOk g code)
    (hcode : code.Retires code' (code.markedRegions target)) (hlt : target < g.active) :
    CodeOk { g with committed := max target g.committed } code' where
  committed_lt := Nat.max_lt.2 ⟨hlt, h.committed_lt⟩
  installed_lt r hr := by
    rw [hcode.installed] at hr
    exact hcode.size ▸ h.installed_lt r hr
  ref_eq r hr := by
    rw [hcode.size] at hr
    rw [hcode.region, h.ref_eq r hr]
  generation_le r := by
    rcases hcode.state_cases h.markedRegions_lt r with heq | ⟨-, -, hgen⟩
    · exact heq ▸ h.generation_le r
    · exact hgen ▸ h.generation_le r
  pending_gt r hr n hn := by
    rw [hcode.installed] at hr
    have hp := hcode.pending h.markedRegions_lt hn
    refine Nat.max_lt.2 ⟨?_, h.pending_gt r hr n hp⟩
    by_contra hle
    have hm := CodeCache.isMarkedUpTo_eq_true.2 ⟨n, Nat.not_lt.1 hle, hp⟩
    rw [hcode.retired r (List.mem_filter.2 ⟨hr, hm⟩) (h.installed_lt r hr)] at hn
    cases hn

/-- The world as it were if just the generations up to `c` were committed. -/
def asOf (w : World) (c : Nat) : World :=
  { w with generations := { w.generations with committed := c } }

/-- A round that is done at once may be committed before. What the invariant says of the earlier
generation it says of the generation of the round as soon as the round is done. -/
theorem Inv.atOnce (hw : (w.asOf c).Inv) (hi : w.parties[i]? = some q)
    (hlt : target < w.generations.active) (hc : w.generations.committed = max target c)
    (h : w.toRounds.deoptimizeMarked cutoff target = .ok rounds) :
    (World.put { w with toRounds := rounds } i { q with stage := .returned }).Inv := by
  obtain ⟨hgen, hcode, hkeeps, hpatched⟩ := Rounds.deoptimizeMarked_spec h
  set w' : World := World.put { w with toRounds := rounds } i { q with stage := .returned }
  have hgen : w'.generations = { (w.asOf c).generations with committed := max target c } := by
    rw [show w'.generations = _ from hgen, asOf, ← hc]
  have hstate := hcode.state_cases hw.code.markedRegions_lt
  have hshut : ∀ r, w.Shut r → w'.Shut r := by
    intro r hs
    rcases hstate r with heq | ⟨hs', -⟩
    · rwa [Shut, show w'.code.state r = _ from heq]
    · exact hs'
  have hclear : ∀ r, w'.Shut r → w'.Clear r := fun r hs t ht =>
    hpatched t (hkeeps.registered ▸ ht) r hs.2
  have hinstalled : ∀ r, r ∈ w'.code.installed.values → r ∈ w.code.installed.values := by
    intro r hr
    rwa [show w'.code.installed = _ from hcode.installed] at hr
  have he : (w.asOf c).Evolves w' := by
    constructor
    · exact Nat.le_of_eq hcode.size.symm
    · exact Nat.le_of_eq (by rw [hgen])
    · exact hgen ▸ Nat.le_max_right _ _
    · exact fun r _ => hinstalled r
    · intro n _ r hr hm
      obtain ⟨m, hm, hp⟩ := CodeCache.isMarkedUpTo_eq_true.1 hm
      exact ⟨hinstalled r hr,
        CodeCache.isMarkedUpTo_eq_true.2 ⟨m, hm, hcode.pending hw.code.markedRegions_lt hp⟩⟩
    · exact hshut
    · exact fun r _ t ht hx => ⟨hkeeps.registered ▸ ht, hkeeps.goesOnIn t r hx⟩
  have hok : CodeOk w'.generations w'.code := hgen ▸ hw.code.retires hcode hlt
  have hpending : ∀ r ∈ w.code.installed.values, ∀ n,
      (w.code.state r).pendingGeneration? = some n → w'.Awaited n r := by
    intro r _ n hn
    rcases hstate r with heq | ⟨hs, -⟩
    · exact .of_pending (by rwa [show w'.code.state r = _ from heq])
    · exact .inr ⟨hs, .inl (hclear r hs)⟩
  have hcovered : ∀ r, w.Shut r → w.Covered r → w'.Clear r ∨
      w'.generations.committed = c ∧ w'.Covered r := fun r hs _ => .inl (hclear r (hshut r hs))
  have hflight : w'.generations.inFlight = (w.asOf c).generations.inFlight := by rw [hgen]
  refine hw.move hi rfl hok (fun t => hkeeps.inOrder t _ (hw.frames t)) he
    (fun _ _ _ _ _ => hflight) hpending hcovered ?_ (by simp [Stage.target?])
  have hq := (hw.parties q (List.mem_of_getElem? hi)).evolves he (fun _ => hflight) hpending
    hcovered
  exact hq.withStage _ (by simp [Stage.regions]) (by simp [Stage.target?]) trivial

end World
end Bailout
