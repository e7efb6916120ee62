import Bailout.Proofs.Round.Invariant

/-!
# Every step keeps the invariant

First what the steps do to code, to threads and to the reliance of other parties, by kind of change.
Then the steps of a batch, those of a round, and those of threads.
-/

namespace Bailout

/-! ### Code -/

namespace World

variable {g : Generations} {c c' : CodeCache} {ref : Nat}

/-- The marks agree with the generations if those of the region that changed do. -/
lemma CodeOk.changesAt (h : CodeOk g c) (hc : c.ChangesAt c' ref)
    (hgen : (c'.state ref).generation ≤ g.active)
    (hpend : ref ∈ c.installed.values →
      ∀ n, (c'.state ref).pendingGeneration? = some n → g.committed < n) : CodeOk g c' where
  committed_lt := h.committed_lt
  installed_lt r hr := by
    rw [hc.installed] at hr
    exact hc.size ▸ h.installed_lt r hr
  ref_eq r hr := by
    rw [hc.size] at hr
    rw [hc.region, h.ref_eq r hr]
  generation_le r := by
    by_cases hr : r = ref
    · exact hr ▸ hgen
    · exact hc.state r hr ▸ h.generation_le r
  pending_gt r hr n hn := by
    rw [hc.installed] at hr
    by_cases hne : r = ref
    · subst hne
      exact hpend hr n hn
    · rw [hc.state r hne] at hn
      exact h.pending_gt r hr n hn

lemma CodeOk.install (h : CodeOk g c) (x : Region) : CodeOk g (c.install x) where
  committed_lt := h.committed_lt
  installed_lt r hr := by
    rw [CodeCache.size_install]
    rcases CodeCache.mem_values_set hr with rfl | hr
    · exact Nat.lt_succ_self _
    · exact Nat.lt_succ_of_lt (h.installed_lt r hr)
  ref_eq r hr := by
    rw [CodeCache.size_install] at hr
    rw [CodeCache.ref_region_install]
    split_ifs with hr'
    · rfl
    · exact h.ref_eq r (by omega)
  generation_le r := by
    by_cases hr : r = c.regions.size
    · rw [hr, CodeCache.state_install_self]
      exact Nat.zero_le _
    · rw [CodeCache.state_install_of_ne c x hr]
      exact h.generation_le r
  pending_gt r hr n hn := by
    rcases CodeCache.mem_values_set hr with rfl | hr
    · rw [CodeCache.state_install_self] at hn
      cases hn
    · rw [CodeCache.state_install_of_ne c x (Nat.ne_of_lt (h.installed_lt r hr))] at hn
      exact h.pending_gt r hr n hn

lemma CodeOk.remove (h : CodeOk g c) (compileId : Nat) : CodeOk g (c.remove compileId) where
  committed_lt := h.committed_lt
  installed_lt r hr := h.installed_lt r (CodeCache.mem_values_erase hr)
  ref_eq := h.ref_eq
  generation_le := h.generation_le
  pending_gt r hr := h.pending_gt r (CodeCache.mem_values_erase hr)

/-! ### What other parties rely on -/

variable {w w' : World} {i r : Nat} {q q' : Party} {cutoff : Nat}

/-- Only parties, generations and counters change. -/
lemma evolves_of_eq (hregions : w'.code.regions = w.code.regions)
    (hinstalled : w'.code.installed = w.code.installed)
    (ha : w.generations.active ≤ w'.generations.active)
    (hc : w.generations.committed ≤ w'.generations.committed)
    (hthreads : w'.roster.threads = w.roster.threads)
    (hregistered : w'.roster.registered = w.roster.registered) : w.Evolves w' := by
  have hstate : ∀ r, w'.code.state r = w.code.state r := fun r => by
    simp only [CodeCache.state, hregions]
  have hthread : ∀ t, w'.roster.thread t = w.roster.thread t := fun t => by
    simp only [Roster.thread, hthreads]
  constructor
  · exact Nat.le_of_eq (by rw [hregions])
  · exact ha
  · exact hc
  · intro r _ hr
    rwa [hinstalled] at hr
  · intro n _ r hr hm
    rw [hinstalled] at hr
    rw [CodeCache.isMarkedUpTo, hstate] at hm
    exact ⟨hr, hm⟩
  · intro r hs
    rwa [Shut, hstate]
  · intro r _ t ht hx
    rw [hregistered] at ht
    rw [Exposed, hthread] at hx
    exact ⟨ht, hx⟩

/-- Only the state of one region changes. -/
lemma evolves_of_changesAt (hc : w.code.ChangesAt w'.code ref)
    (hg : w'.generations = w.generations) (hr : w'.roster = w.roster)
    (hmarked : ∀ n < w.generations.active, w'.code.isMarkedUpTo n ref = true →
      w.code.isMarkedUpTo n ref = true)
    (hshut : w.Shut ref → w'.Shut ref) : w.Evolves w' := by
  constructor
  · exact Nat.le_of_eq hc.size.symm
  · exact Nat.le_of_eq (by rw [hg])
  · exact Nat.le_of_eq (by rw [hg])
  · intro r _ hr
    rwa [hc.installed] at hr
  · intro n hn r hr hm
    rw [hc.installed] at hr
    refine ⟨hr, ?_⟩
    by_cases hne : r = ref
    · subst hne
      exact hmarked n hn hm
    · rwa [CodeCache.isMarkedUpTo, hc.state r hne] at hm
  · intro r hs
    by_cases hne : r = ref
    · subst hne
      exact hshut hs
    · rwa [Shut, hc.state r hne]
  · intro r _ t ht hx
    rw [hr] at ht
    rw [Exposed, hr] at hx
    exact ⟨ht, hx⟩

/-- Only threads change. -/
lemma evolves_of_exposed (hc : w'.code = w.code) (hg : w'.generations = w.generations)
    (hx : ∀ r, w.Shut r → ∀ t ∈ w'.roster.registered, w'.Exposed t r →
      t ∈ w.roster.registered ∧ w.Exposed t r) : w.Evolves w' := by
  constructor
  · exact Nat.le_of_eq (by rw [hc])
  · exact Nat.le_of_eq (by rw [hg])
  · exact Nat.le_of_eq (by rw [hg])
  · intro r _ hr
    rwa [hc] at hr
  · intro n _ r hr hm
    rw [hc] at hr hm
    exact ⟨hr, hm⟩
  · intro r hs
    rwa [Shut, hc]
  · exact hx

/-- Threads are visited. -/
lemma evolves_of_keeps (hc : w'.code = w.code) (hg : w'.generations = w.generations)
    (hr : w.roster.Keeps w'.roster) : w.Evolves w' :=
  evolves_of_exposed hc hg fun r _ t ht hx => ⟨hr.registered ▸ ht, hr.goesOnIn t r hx⟩

/-- A thread is put in the place of one with as many frames that go on in regions that are shut. -/
lemma evolves_setThread {t : Nat} {u : Thread} (hcode : w'.code = w.code)
    (hg : w'.generations = w.generations) (hregistered : w'.roster.registered = w.roster.registered)
    (hthreads : w'.roster.threads = (w.roster.set t u).threads)
    (hu : ∀ r, w.Shut r → u.GoesOnIn r → (w.roster.thread t).GoesOnIn r) : w.Evolves w' := by
  refine evolves_of_exposed hcode hg fun r hs s hm hx => ?_
  rw [hregistered] at hm
  rw [Exposed, Roster.thread, hthreads] at hx
  exact ⟨hm, Roster.goesOnIn_set (hu r hs) hx⟩

/-! ### Steps of a batch -/

/-- Only one party moves. -/
lemma Inv.put (hw : w.Inv) (hi : w.parties[i]? = some q) (hq : w.PartyOk q')
    (hcov : ∀ r, q.stage.Covers w r → q'.stage.Covers w r)
    (hsingle : q'.stage.target?.isSome = true → q.stage.target?.isSome = true) :
    (w.put i q').Inv := by
  have he : w.Evolves (w.put i q') :=
    evolves_of_eq rfl rfl (Nat.le_refl _) (Nat.le_refl _) rfl rfl
  have hcovers : ∀ r, w.Shut r → q.stage.Covers w r → q'.stage.Covers (w.put i q') r :=
    fun r hs hc => covers_evolves he hs (hcov r hc)
  refine hw.move_still hi rfl rfl hw.code hw.frames he (fun r _ n hn => .of_pending hn) hcovers
    (fun _ => ?_) hsingle
  exact hq.evolves he (fun _ => rfl) (fun r _ n hn => .of_pending hn)
    fun r hs hc => .inr ⟨rfl, hc.evolves_set he hi rfl hs (hcovers r hs)⟩

/-- Only one party moves, and not within a round. -/
lemma Inv.put_outside (hw : w.Inv) (hi : w.parties[i]? = some q) (hq : w.PartyOk q')
    (hout : q.stage.target? = none) (hout' : q'.stage.target? = none) : (w.put i q').Inv := by
  refine hw.put hi hq (fun r hc => ?_) (fun h => ?_)
  · cases hs : q.stage <;> simp [hs, Stage.target?, Stage.Covers] at hout hc
  · rw [hout'] at h
    cases h

/-- A party that is in no round goes on to something else that is none. -/
lemma Inv.move_outside {s : Stage} {batch : Batch} (hw : w.Inv) (hi : w.parties[i]? = some q)
    (hout : q.stage.target? = none) (hs : s.target? = none)
    (hregions : ∀ r ∈ s.regions, r < w.code.regions.size) (hlists : s.Lists w.code)
    (hmono : q.batch.required ≤ batch.required) (hle : batch.required ≤ w.generations.active) :
    (w.put i { q with batch, stage := s }).Inv := by
  have hok := hw.parties q (List.mem_of_getElem? hi)
  refine hw.put_outside hi ⟨hle, hok.asked_lt, hregions, ?_, hlists, ?_⟩ hout hs
  · intro n hn
    rw [show ({ q with batch, stage := s } : Party).stage.target? = none from hs] at hn
    cases hn
  · intro r hr hin
    exact (hok.awaited r hr hin).mono hmono

lemma Inv.returned (hw : w.Inv) (hi : w.parties[i]? = some q) (hout : q.stage.target? = none) :
    (w.put i { q with stage := .returned }).Inv :=
  hw.move_outside hi hout rfl (by simp [Stage.regions]) trivial (Nat.le_refl _)
    (hw.parties q (List.mem_of_getElem? hi)).required_le

/-- A party comes with a batch that nothing was marked for. -/
lemma Inv.join {batch : Batch} (hw : w.Inv) (hb : batch.required ≤ w.generations.active) :
    ({ w with parties := w.parties ++ [{ batch }] } : World).Inv := by
  set w' : World := { w with parties := w.parties ++ [{ batch }] }
  have he : w.Evolves w' := evolves_of_eq rfl rfl (Nat.le_refl _) (Nat.le_refl _) rfl rfl
  have hcovered : ∀ r, w.Shut r → w.Covered r → w'.Covered r := by
    rintro r hs ⟨p, hp, hc⟩
    exact ⟨p, List.mem_append_left _ hp, covers_evolves he hs hc⟩
  refine ⟨hw.code, hw.frames, fun p hp => ?_, single_append hw.single rfl⟩
  rcases List.mem_append.1 hp with hp | hp
  · exact (hw.parties p hp).evolves he (fun _ => rfl) (fun r _ n hn => .of_pending hn)
      fun r hs hc => .inr ⟨rfl, hcovered r hs hc⟩
  · rw [List.mem_singleton] at hp
    subst hp
    exact ⟨hb, by simp, by simp [Stage.regions], by simp [Stage.target?], trivial, by simp⟩

/-- The region that is tagged is pending then, and its generation is waited for. Other parties are
not concerned: a region that they asked for and that is marked anew was shut before. -/
lemma Inv.tag {counts : Bool} {batch : Batch} {code : CodeCache} (hw : w.Inv)
    (hi : w.parties[i]? = some q) (hq : q.stage = .marking ref counts)
    (ht : q.batch.tag w.generations w.code ref counts = .ok (batch, code)) :
    ((w.setCode code).put i { batch, asked := ref :: q.asked, stage := .building }).Inv := by
  have hok := hw.parties q (List.mem_of_getElem? hi)
  have hlt : ref < w.code.regions.size := hok.regions_lt ref (by simp [hq, Stage.regions])
  set w' := (w.setCode code).put i { batch, asked := ref :: q.asked, stage := .building } with hw'
  obtain ⟨n, hn⟩ := Batch.tag_spec hlt hok.required_le ht
  have hle : n ≤ w.generations.active := by
    rcases hn.before with hp | ⟨-, rfl⟩
    · exact (RegionState.pendingGeneration?_eq_some.1 hp).2 ▸ hw.code.generation_le ref
    · exact Nat.le_refl _
  have hpending : ∀ r m, (w.code.state r).pendingGeneration? = some m →
      (code.state r).pendingGeneration? = some m := by
    intro r m hm
    by_cases hr : r = ref
    · subst hr
      rcases hn.before with hp | ⟨hp, -⟩
      · rw [hn.pending, ← hp, hm]
      · rw [hp] at hm
        cases hm
    · rw [hn.changesAt.state r hr, hm]
  have hcode : CodeOk w.generations code := by
    refine hw.code.changesAt hn.changesAt ?_ fun hr m hm => ?_
    · exact (RegionState.pendingGeneration?_eq_some.1 hn.pending).2 ▸ hle
    · rw [hn.pending, Option.some.injEq] at hm
      subst hm
      rcases hn.before with hp | ⟨-, rfl⟩
      · exact hw.code.pending_gt ref hr n hp
      · exact hw.code.committed_lt
  have he : w.Evolves w' := by
    refine evolves_of_changesAt hn.changesAt rfl rfl (fun m hm hmarked => ?_) fun hs => ?_
    · rw [CodeCache.isMarkedUpTo_eq_true] at hmarked ⊢
      obtain ⟨k, hk, hp⟩ := hmarked
      rw [show (w'.code.state ref).pendingGeneration? = some n from hn.pending,
        Option.some.injEq] at hp
      rcases hn.before with hp' | ⟨-, rfl⟩
      · exact ⟨n, hp ▸ hk, hp'⟩
      · omega
    · exact ⟨hn.inUse.trans hs.1, RegionState.needsPatching_of_pending hn.pending⟩
  refine hw.move_still hi rfl rfl hcode hw.frames he (fun r _ m hm => .of_pending (hpending r m hm))
    (by simp [hq, Stage.Covers]) (fun hok' => ?_) (by simp [Stage.target?])
  have hmono : q.batch.required ≤ batch.required := hn.required ▸ Nat.le_max_left _ _
  refine ⟨?_, ?_, by simp [Stage.regions], by simp [Stage.target?], trivial, ?_⟩
  · exact hn.required ▸ Nat.max_le.2 ⟨hok.required_le, hle⟩
  · intro r hr
    rcases List.mem_cons.1 hr with rfl | hr
    · exact Nat.lt_of_lt_of_le hlt he.size_le
    · exact hok'.asked_lt r hr
  · intro r hr hin
    rcases List.mem_cons.1 hr with rfl | hr
    · exact .inl ⟨n, hn.required ▸ Nat.le_max_right _ _, hn.pending⟩
    · exact (hok'.awaited r hr hin).mono hmono

/-! ### Steps of a round -/

/-- A round is claimed while there is none. No mark is made in its generation from then on. -/
lemma Inv.claim {target : Nat} {g : Generations} {todo : List Nat} (hw : w.Inv)
    (hi : w.parties[i]? = some q) (hq : q.stage = .waiting)
    (hc : w.generations.claim q.batch.required = .ok (.claimed target, g))
    (hp : todo.Perm w.code.installed.values) :
    (World.put { w with generations := g } i { q with stage := .scanning target todo [] }).Inv := by
  have hok := hw.parties q (List.mem_of_getElem? hi)
  obtain ⟨hfree, rfl, rfl⟩ : w.generations.inFlight = false ∧ target = w.generations.active ∧
      g = { w.generations with active := w.generations.active + 1, inFlight := true } := by
    rcases Generations.claim_spec hc with ⟨h, -⟩ | ⟨h, -⟩ | ⟨h, -, hf, rfl⟩
    · cases h
    · cases h
    · cases h
      exact ⟨hf, rfl, rfl⟩
  set w' : World := World.put { w with generations := { w.generations with
    active := w.generations.active + 1, inFlight := true } } i
      { q with stage := .scanning w.generations.active todo [] }
  have he : w.Evolves w' := evolves_of_eq rfl rfl (Nat.le_succ _) (Nat.le_refl _) rfl rfl
  have hcovered : ∀ r, w.Shut r → w.Covered r → w'.Covered r := fun r hs =>
    Covered.evolves_set he hi rfl hs fun hc => by simp [hq, Stage.Covers] at hc
  have hcode : CodeOk w'.generations w'.code :=
    ⟨Nat.lt_succ_of_lt hw.code.committed_lt, hw.code.installed_lt, hw.code.ref_eq,
      fun r => Nat.le_succ_of_le (hw.code.generation_le r), hw.code.pending_gt⟩
  refine hw.move hi rfl hcode hw.frames he (fun j p _ hj hp => ?_) (fun r _ n hn => .of_pending hn)
    (fun r hs hc => .inr ⟨rfl, hcovered r hs hc⟩) ?_ fun _ => .inr hfree
  · rw [hw.target?_eq_none hfree (List.mem_of_getElem? hj)] at hp
    cases hp
  · have hok' : w'.PartyOk q := hok.evolves he (fun h => by simp [hq, Stage.target?] at h)
      (fun r _ n hn => .of_pending hn) fun r hs hc => .inr ⟨rfl, hcovered r hs hc⟩
    refine hok'.withStage _ (fun r hr => ?_) (fun n hn => ?_) (fun r hr _ => ?_)
    · simp only [Stage.regions, List.append_nil] at hr
      exact hw.code.installed_lt r (hp.mem_iff.1 hr)
    · cases hn
      exact ⟨rfl, Nat.lt_succ_self _⟩
    · exact .inl (hp.mem_iff.2 hr)

lemma Inv.scan {target : Nat} {todo found : List Nat} (hw : w.Inv)
    (hi : w.parties[i]? = some q) (hq : q.stage = .scanning target (r :: todo) found) :
    (w.put i { q with
      stage := .scanning target todo
        (if w.code.isMarkedUpTo target r then found ++ [r] else found) }).Inv := by
  refine hw.put hi ((hw.parties q (List.mem_of_getElem? hi)).goOn hq rfl ?_ ?_)
    (by simp [hq, Stage.Covers]) fun _ => by simp [hq, Stage.target?]
  · intro s hs
    simp only [Stage.regions] at hs ⊢
    split_ifs at hs <;> simp at hs ⊢ <;> tauto
  · intro hlists s hs hm
    rcases hlists s hs hm with hmem | hmem
    · rcases List.mem_cons.1 hmem with rfl | hmem
      · rw [if_pos hm]
        exact .inr (List.mem_append_right _ List.mem_cons_self)
      · exact .inl hmem
    · split_ifs
      · exact .inr (List.mem_append_left _ hmem)
      · exact .inr hmem

lemma Inv.scanned {target : Nat} {found : List Nat} (hw : w.Inv)
    (hi : w.parties[i]? = some q) (hq : q.stage = .scanning target [] found) :
    (w.put i { q with stage := .retiring target found found.length }).Inv := by
  refine hw.put hi ((hw.parties q (List.mem_of_getElem? hi)).goOn hq rfl (fun _ hr => hr) ?_)
    (by simp [hq, Stage.Covers]) fun _ => by simp [hq, Stage.target?]
  intro hlists s hs hm
  exact (hlists s hs hm).resolve_left (by simp)

/-- A region that is retired is shut, and the round covers it. Whoever waits for its mark waits for
a generation that is not committed. -/
lemma Inv.retire {target total : Nat} {todo : List Nat} {p : Program} (hw : w.Inv)
    (hi : w.parties[i]? = some q) (hq : q.stage = .retiring target (r :: todo) total)
    (hp : w.program.retire cutoff r = .ok p) :
    (World.put { w with program := p } i { q with stage := .retiring target todo total }).Inv := by
  have hok := hw.parties q (List.mem_of_getElem? hi)
  have hlt : r < w.code.regions.size := hok.regions_lt r (by simp [hq, Stage.regions])
  obtain ⟨hchange, hstate⟩ := Program.retire_spec hp
  have hstate := hstate hlt
  set w' : World :=
    World.put { w with program := p } i { q with stage := .retiring target todo total }
  have hnone : (w'.code.state r).pendingGeneration? = none := by
    rw [show w'.code.state r = _ from hstate]
    rfl
  have hshut : w'.Shut r := by
    rw [Shut, show w'.code.state r = _ from hstate]
    exact ⟨rfl, rfl⟩
  have he : w.Evolves w' := by
    refine evolves_of_changesAt hchange rfl rfl (fun n _ hm => ?_) fun _ => hshut
    rw [CodeCache.isMarkedUpTo, hnone] at hm
    cases hm
  have hcode : CodeOk w.generations p.code := by
    refine hw.code.changesAt hchange ?_ fun _ n hn => ?_
    · rw [hstate]
      exact hw.code.generation_le r
    · rw [show (p.code.state r).pendingGeneration? = none from hnone] at hn
      cases hn
  have hcovers : ∀ s, w'.Covered s := fun s =>
    ⟨_, List.mem_set (List.getElem?_eq_some_iff.1 hi).1 _, trivial⟩
  have hpending : ∀ s ∈ w.code.installed.values, ∀ n,
      (w.code.state s).pendingGeneration? = some n → w'.Awaited n s := by
    intro s hs n hn
    by_cases hsr : s = r
    · subst hsr
      exact .inr ⟨hshut, .inr ⟨hw.code.pending_gt s hs n hn, hcovers s⟩⟩
    · exact .of_pending (by rw [show w'.code.state s = _ from hchange.state s hsr, hn])
  refine hw.move_still hi rfl rfl hcode hw.frames he hpending (fun _ _ _ => trivial)
    (fun hok' => hok'.goOn hq rfl (fun s => List.mem_cons_of_mem _) ?_)
    (by simp [hq, Stage.target?])
  intro hlists s hs hm
  rcases List.mem_cons.1 (hlists s hs hm) with rfl | hmem
  · rw [CodeCache.isMarkedUpTo, hnone] at hm
    cases hm
  · exact hmem

/-- When the handshake begins no region is due any more, and all registered threads are going to be
visited. -/
lemma Inv.handshake {target total : Nat} (hw : w.Inv) (hi : w.parties[i]? = some q)
    (hq : q.stage = .retiring target [] total) :
    (World.put { w with
      program := { w.program with
        code := { w.code with deoptimizations := w.code.deoptimizations + total } }
      roster := { w.roster with handshakes := w.roster.handshakes + 1 }
      count := w.count + 1 } i
      { q with stage := .visiting target w.roster.registered }).Inv := by
  set w' : World := World.put { w with
    program := { w.program with
      code := { w.code with deoptimizations := w.code.deoptimizations + total } }
    roster := { w.roster with handshakes := w.roster.handshakes + 1 }
    count := w.count + 1 } i { q with stage := .visiting target w.roster.registered }
  have he : w.Evolves w' := evolves_of_eq rfl rfl (Nat.le_refl _) (Nat.le_refl _) rfl rfl
  have hcode : CodeOk w'.generations w'.code :=
    ⟨hw.code.committed_lt, hw.code.installed_lt, hw.code.ref_eq, hw.code.generation_le,
      hw.code.pending_gt⟩
  refine hw.move_still hi rfl rfl hcode hw.frames he (fun r _ n hn => .of_pending hn)
    (fun _ _ _ t ht _ => ht) (fun hok' => hok'.goOn hq rfl (by simp [Stage.regions]) ?_)
    (by simp [hq, Stage.target?])
  intro hlists s hs
  by_contra hm
  exact absurd (hlists s hs (by simpa using hm)) (by simp)

/-- The thread that is visited has no frame left that goes on in a region that is shut. -/
lemma Inv.visit {target t : Nat} {todo : List Nat} {h : Histogram} {roster : Roster} (hw : w.Inv)
    (hi : w.parties[i]? = some q) (hq : q.stage = .visiting target (t :: todo))
    (hv : Roster.visit (Rounds.visit w.code) (w.histogram, w.roster) t = .ok (h, roster)) :
    (World.put { w with histogram := h, roster } i
      { q with stage := .visiting target todo }).Inv := by
  obtain ⟨hkeeps, hpatched⟩ := Rounds.visit_keeps hv
  set w' : World :=
    World.put { w with histogram := h, roster } i { q with stage := .visiting target todo }
  have he : w.Evolves w' := evolves_of_keeps rfl rfl hkeeps
  have hcovers : ∀ r, w.Shut r → q.stage.Covers w r →
      (Stage.visiting target todo).Covers w' r := by
    intro r hs hc s hs' hx
    obtain ⟨hmem, hx'⟩ := he.exposed r hs s hs' hx
    rw [hq] at hc
    rcases List.mem_cons.1 (hc s hmem hx') with rfl | hmem
    · exact absurd hx (hpatched r hs.2)
    · exact hmem
  refine hw.move_still hi rfl rfl hw.code (fun s => hkeeps.inOrder s _ (hw.frames s)) he
    (fun r _ n hn => .of_pending hn) hcovers
    (fun hok' => hok'.goOn hq rfl (by simp [Stage.regions]) fun hlists => hlists)
    (by simp [hq, Stage.target?])

/-- When a round ends every frame that it covered is patched. No mark that is still pending is of
its generation or an earlier one. -/
lemma Inv.finish {target : Nat} {g : Generations} (hw : w.Inv) (hi : w.parties[i]? = some q)
    (hq : q.stage = .visiting target []) (hg : w.generations.finish target = .ok g) :
    (World.put { w with generations := g } i { q with stage := .checking }).Inv := by
  have hmem := List.mem_of_getElem? hi
  have hok := hw.parties q hmem
  have hlists := hok.lists
  rw [hq] at hlists
  obtain ⟨-, hactive⟩ := hok.inRound target (by rw [hq]; rfl)
  obtain ⟨-, rfl⟩ := Generations.finish_eq_ok.1 hg
  set w' : World := World.put { w with
    generations := { w.generations with
      committed := max w.generations.committed target, inFlight := false } } i
      { q with stage := .checking }
  have he : w.Evolves w' := evolves_of_eq rfl rfl (Nat.le_refl _) (Nat.le_max_left _ _) rfl rfl
  have hcode : CodeOk w'.generations w'.code := by
    refine ⟨Nat.max_lt.2 ⟨hw.code.committed_lt, hactive⟩, hw.code.installed_lt, hw.code.ref_eq,
      hw.code.generation_le, fun r hr n hn => Nat.max_lt.2 ⟨hw.code.pending_gt r hr n hn, ?_⟩⟩
    by_contra hle
    have hm := CodeCache.isMarkedUpTo_eq_true.2 ⟨n, Nat.not_lt.1 hle, hn⟩
    exact absurd (hm.symm.trans (hlists r hr)) (by decide)
  -- The only round under way is the one that ends, and it has no thread left to visit.
  have hclear : ∀ r, w.Shut r → w.Covered r → w'.Clear r := by
    rintro r hs ⟨p, hp, hc⟩
    obtain ⟨j, hj⟩ := List.mem_iff_getElem?.1 hp
    have hround : p.stage.target?.isSome = true := by
      cases hps : p.stage <;> simp [hps, Stage.Covers, Stage.target?] at hc ⊢
    obtain rfl := hw.single j i p q hj hi hround (by simp [hq, Stage.target?])
    rw [hi, Option.some.injEq] at hj
    subst hj
    rw [hq] at hc
    have hclear : w.Clear r := fun t ht hx => List.not_mem_nil (hc t ht hx)
    exact hclear.evolves he hs
  refine hw.move hi rfl hcode hw.frames he (fun j p hne hj hp => ?_)
    (fun r _ n hn => .of_pending hn) (fun r hs hc => .inl (hclear r hs hc)) ?_
    (by simp [Stage.target?])
  · rw [hw.target?_eq_none_of_ne hi (by simp [hq, Stage.target?]) hj hne] at hp
    cases hp
  · have hout : w.PartyOk { q with stage := .checking } :=
      hok.withStage _ (by simp [Stage.regions]) (by simp [Stage.target?]) trivial
    exact hout.evolves he (by simp [Stage.target?]) (fun r _ n hn => .of_pending hn)
      fun r hs hc => .inl (hclear r hs hc)

theorem Inv.partyStep (hw : w.Inv) (h : PartyStep cutoff w w') : w'.Inv := by
  have hle : ∀ {i : Nat} {q : Party}, w.parties[i]? = some q →
      q.batch.required ≤ w.generations.active := fun hi =>
    (hw.parties _ (List.mem_of_getElem? hi)).required_le
  cases h with
  | begin => exact hw.join (Nat.le_of_lt hw.code.committed_lt)
  | look counts hi hq hr hu =>
    exact hw.move_outside hi (by rw [hq]; rfl) rfl (by simpa [Stage.regions] using hr) trivial
      (Nat.le_refl _) (hle hi)
  | tag hi hq ht => exact hw.tag hi hq ht
  | @dependOn i q ref hi hq hr =>
    exact hw.move_outside hi (by rw [hq]; rfl) (by rw [hq]; rfl) (by simp [hq, Stage.regions])
      (by rw [hq]; trivial) (Nat.le_max_left _ _)
      (Nat.max_le.2 ⟨hle hi, hw.code.generation_le ref⟩)
  | commit hi hq =>
    exact hw.move_outside hi (by rw [hq]; rfl) rfl (by simp [Stage.regions]) trivial
      (Nat.le_refl _) (hle hi)
  | satisfied hi hq hc => exact hw.returned hi (by rw [hq]; rfl)
  | claim hi hq hc hp => exact hw.claim hi hq hc hp
  | scan hi hq => exact hw.scan hi hq
  | scanned hi hq => exact hw.scanned hi hq
  | retire hi hq hp => exact hw.retire hi hq hp
  | handshake hi hq => exact hw.handshake hi hq
  | visit hi hq hv => exact hw.visit hi hq hv
  | finish hi hq hg => exact hw.finish hi hq hg
  | check hi hq hc => exact hw.returned hi (by rw [hq]; rfl)

/-! ### Steps of threads -/

/-- The frames of a thread change. They are in order then, and none comes to go on in a region that
is shut. -/
lemma Inv.setThread {t : Nat} {u : Thread} {origin : Nat → Nat} (hw : w.Inv)
    (ht : t < w.roster.threads.size) (hu : u.InOrder origin)
    (hx : ∀ r, w.Shut r → u.GoesOnIn r → (w.roster.thread t).GoesOnIn r) :
    ({ w.setThread t u with origin := Function.update w.origin t origin } : World).Inv :=
  hw.stay rfl rfl rfl hw.code (Roster.inOrder_set hw.frames ht hu)
    (evolves_setThread (t := t) (u := u) rfl rfl rfl rfl hx) fun _ _ => rfl

/-- The frames of a thread change, and the new ones stand where the old ones were pushed. -/
lemma Inv.setThread_same {t : Nat} {u : Thread} (hw : w.Inv) (ht : t < w.roster.threads.size)
    (hu : u.InOrder (w.origin t))
    (hx : ∀ r, u.GoesOnIn r → (w.roster.thread t).GoesOnIn r) : (w.setThread t u).Inv := by
  have h := hw.setThread ht hu fun r _ => hx r
  rwa [Function.update_eq_self] at h

lemma Inv.register (hw : w.Inv) (id : Nat) (name : String) :
    ({ w with roster := w.roster.register id name } : World).Inv := by
  have hnew := w.roster.thread_register id name
  refine hw.stay rfl rfl rfl hw.code (fun t => ?_) ?_ fun _ _ => rfl
  · rcases hnew t with ⟨-, h⟩ | ⟨-, h⟩
    · exact h ▸ hw.frames t
    · exact Thread.inOrder_of_stack_eq_nil h _
  · refine evolves_of_exposed rfl rfl fun r _ t ht hx => ?_
    rcases hnew t with ⟨hne, h⟩ | ⟨-, h⟩
    · rw [Exposed, h] at hx
      exact ⟨(List.mem_append.1 ht).resolve_right (by simpa using hne), hx⟩
    · exact absurd hx (Thread.not_goesOnIn_of_stack_eq_nil h r)

lemma Inv.unregister (hw : w.Inv) (id : Nat) :
    ({ w with roster := (w.roster.unregister id).2 } : World).Inv := by
  have hsame := fun t => Roster.thread_unregister (t := t) w.roster id
  refine hw.stay rfl rfl rfl hw.code (fun t => ?_) ?_ fun _ _ => rfl
  · exact hsame t ▸ hw.frames t
  · refine evolves_of_exposed rfl rfl fun r _ t ht hx => ⟨Roster.mem_unregister ht, ?_⟩
    rwa [Exposed, hsame t] at hx

/-- A region that a trap closes keeps its mark. -/
lemma Inv.trap {b : Bool} {p : Program} (hw : w.Inv) (hr : ref < w.code.regions.size)
    (hp : w.program.invalidate ref cutoff = .ok (b, p)) :
    ({ w with program := p } : World).Inv := by
  obtain ⟨hchange, hstate⟩ := Program.invalidate_spec hp
  have hstate := hstate hr
  have hpending : ∀ r, (p.code.state r).pendingGeneration? =
      (w.code.state r).pendingGeneration? := by
    intro r
    by_cases hne : r = ref
    · rw [hne, hstate]
      rfl
    · rw [hchange.state r hne]
  refine hw.stay rfl rfl rfl ?_ hw.frames ?_ fun r _ => hpending r
  · refine hw.code.changesAt hchange ?_ fun hmem n hn => ?_
    · rw [hstate]
      exact hw.code.generation_le ref
    · exact hw.code.pending_gt ref hmem n (hpending ref ▸ hn)
  · refine evolves_of_changesAt hchange rfl rfl (fun n _ hm => ?_) fun hs => ?_
    · rwa [CodeCache.isMarkedUpTo, hpending] at hm
    · rw [Shut, show (p.code.state ref) = _ from hstate]
      exact ⟨rfl, hs.2⟩

/-- New code takes the next position, and is not marked. -/
lemma Inv.install (hw : w.Inv) (x : Region) : (w.setCode (w.code.install x)).Inv := by
  set w' : World := w.setCode (w.code.install x)
  have hsame : ∀ r < w.code.regions.size, w'.code.state r = w.code.state r := fun r hr =>
    CodeCache.state_install_of_ne w.code x (Nat.ne_of_lt hr)
  have hnew : w'.code.state w.code.regions.size = {} := CodeCache.state_install_self w.code x
  refine hw.stay rfl rfl rfl (hw.code.install x) hw.frames ?_ fun r hr => ?_
  · constructor
    · exact Nat.le_of_lt (CodeCache.size_install _ x ▸ Nat.lt_succ_self _)
    · exact Nat.le_refl _
    · exact Nat.le_refl _
    · intro r hr hin
      rcases CodeCache.mem_values_set hin with rfl | hin
      · exact absurd hr (Nat.lt_irrefl _)
      · exact hin
    · intro n _ r hin hm
      rcases CodeCache.mem_values_set hin with rfl | hin
      · rw [CodeCache.isMarkedUpTo, hnew] at hm
        cases hm
      · rw [CodeCache.isMarkedUpTo, hsame r (hw.code.installed_lt r hin)] at hm
        exact ⟨hin, hm⟩
    · intro r hs
      rwa [Shut, hsame r (CodeCache.lt_size_of_needsPatching hs.2)]
    · intro r _ t ht hx
      exact ⟨ht, hx⟩
  · rw [hsame r (hw.code.installed_lt r hr)]

lemma Inv.remove (hw : w.Inv) (compileId : Nat) :
    (w.setCode (w.code.remove compileId)).Inv := by
  refine hw.stay rfl rfl rfl (hw.code.remove compileId) hw.frames ?_ fun _ _ => rfl
  exact ⟨Nat.le_refl _, Nat.le_refl _, Nat.le_refl _,
    fun r _ hr => CodeCache.mem_values_erase hr,
    fun n _ r hr hm => ⟨CodeCache.mem_values_erase hr, hm⟩, fun _ hs => hs,
    fun _ _ _ ht hx => ⟨ht, hx⟩⟩

/-- What threads, traps and those who load code do keeps the invariant. -/
theorem Inv.threadStep (hw : w.Inv) (h : ThreadStep cutoff w w') : w'.Inv := by
  cases h with
  | @call t ref words pc contents u ht hr hu hp =>
    obtain ⟨c, hc, hn, hp⟩ := Thread.pushCompiled_spec hp
    refine hw.setThread ht ((hw.frames t).push hp ?_) fun r hs hg => ?_
    · rintro _ ⟨⟩
      exact hn
    · rcases hg.of_push hp with hg | ⟨c', hc', href⟩
      · exact hg
      · cases hc'
        rw [hc, hw.code.ref_eq ref hr] at href
        rw [Shut, ← href, hu] at hs
        cases hs.1
  | @push t words pc kind u ht hk hp =>
    refine hw.setThread ht ((hw.frames t).push hp ?_) fun r _ hg => ?_
    · rintro c rfl
      cases hk
    · rcases hg.of_push hp with hg | ⟨c, rfl, -⟩
      · exact hg
      · cases hk
  | @pop t ht => exact hw.setThread_same ht (hw.frames t).pop fun r => .of_pop
  | @patch t f g b ht hf hg =>
    have hk := Thread.keeps_setFrame (hw.frames t).toNumbered hf (Frame.keeps_patch hg)
    exact hw.setThread_same ht ((hw.frames t).of_keeps rfl hk) fun r => .of_keeps hk
  | register id name => exact hw.register id name
  | unregister id => exact hw.unregister id
  | trap hr hp => exact hw.trap hr hp
  | install x => exact hw.install x
  | remove compileId => exact hw.remove compileId
  | profile methods histogram nextAddress =>
    refine hw.stay rfl rfl rfl ?_ hw.frames ?_ fun _ _ => rfl
    · exact ⟨hw.code.committed_lt, hw.code.installed_lt, hw.code.ref_eq, hw.code.generation_le,
        hw.code.pending_gt⟩
    · exact evolves_of_eq rfl rfl (Nat.le_refl _) (Nat.le_refl _) rfl rfl

end World
end Bailout
