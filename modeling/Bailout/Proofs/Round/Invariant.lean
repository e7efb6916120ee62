import Bailout.Proofs.Round.Frames

/-!
# What every interleaving keeps

A region that a party asked for is, until the commit returns, in one of three conditions: its mark
is pending and the generation of the mark is waited for; or it is shut and a round under way is
going to see to every frame that still goes on in it; or it is shut and no frame goes on in it. The
invariant says so for all parties, and what else is needed for it to be kept: how the marks and the
lists of the rounds agree with the generations, and that one round at most is under way.

A party that does not move relies on little: `World.Evolves` collects what every step of the others
leaves it with.
-/

namespace Bailout

/-! ### Regions and their frames -/

namespace World

/-- The region cannot be entered, and its frames have to be patched. -/
def Shut (w : World) (r : Nat) : Prop :=
  (w.code.state r).inUse = false ∧ (w.code.state r).needsPatching = true

/-- A thread has a frame that goes on in the code of a region. -/
def Exposed (w : World) (t r : Nat) : Prop := (w.roster.thread t).GoesOnIn r

/-- No registered thread has a frame that goes on in the code of a region. -/
def Clear (w : World) (r : Nat) : Prop := ∀ t ∈ w.roster.registered, ¬ w.Exposed t r

end World

/-- The round that has come to a stage is going to patch all frames that go on in a region, as long
as the region is shut. -/
def Stage.Covers (w : World) (r : Nat) : Stage → Prop
  | retiring .. => True
  | visiting _ todo => ∀ t ∈ w.roster.registered, w.Exposed t r → t ∈ todo
  | _ => False

/-- The regions that a stage still works on. -/
def Stage.regions : Stage → List Nat
  | marking ref _ => [ref]
  | scanning _ todo found => todo ++ found
  | retiring _ todo _ => todo
  | _ => []

/-- What a round has collected agrees with the marks: no region that is due was missed. -/
def Stage.Lists (c : CodeCache) : Stage → Prop
  | scanning target todo found =>
    ∀ r ∈ c.installed.values, c.isMarkedUpTo target r = true → r ∈ todo ∨ r ∈ found
  | retiring target todo _ => ∀ r ∈ c.installed.values, c.isMarkedUpTo target r = true → r ∈ todo
  | visiting target _ => ∀ r ∈ c.installed.values, c.isMarkedUpTo target r = false
  | _ => True

namespace World

/-- Some round is going to patch all frames that go on in a region. -/
def Covered (w : World) (r : Nat) : Prop := ∃ q ∈ w.parties, q.stage.Covers w r

/-- How a region stands for a party that asked for it and waits for a generation. -/
def Awaited (w : World) (required r : Nat) : Prop :=
  (∃ n ≤ required, (w.code.state r).pendingGeneration? = some n) ∨
    w.Shut r ∧ (w.Clear r ∨ w.generations.committed < required ∧ w.Covered r)

/-! ### The invariant -/

/-- The marks agree with the generations. -/
structure CodeOk (g : Generations) (c : CodeCache) : Prop where
  committed_lt : g.committed < g.active
  installed_lt : ∀ r ∈ c.installed.values, r < c.regions.size
  ref_eq : ∀ r < c.regions.size, (c.region r).ref = r
  generation_le : ∀ r, (c.state r).generation ≤ g.active
  pending_gt : ∀ r ∈ c.installed.values, ∀ n, (c.state r).pendingGeneration? = some n →
    g.committed < n

/-- A party agrees with the generations and the code. -/
structure PartyOk (w : World) (q : Party) : Prop where
  required_le : q.batch.required ≤ w.generations.active
  asked_lt : ∀ r ∈ q.asked, r < w.code.regions.size
  regions_lt : ∀ r ∈ q.stage.regions, r < w.code.regions.size
  inRound : ∀ n, q.stage.target? = some n →
    w.generations.inFlight = true ∧ n < w.generations.active
  lists : q.stage.Lists w.code
  awaited : ∀ r ∈ q.asked, r ∈ w.code.installed.values → w.Awaited q.batch.required r

/-- What every interleaving keeps. -/
structure Inv (w : World) : Prop where
  code : CodeOk w.generations w.code
  frames : ∀ t, (w.roster.thread t).InOrder (w.origin t)
  parties : ∀ q ∈ w.parties, w.PartyOk q
  single : ∀ (i j : Nat) (p q : Party), w.parties[i]? = some p → w.parties[j]? = some q →
    p.stage.target?.isSome = true → q.stage.target?.isSome = true → i = j

/-! ### What parties rely on -/

/-- What a party that does not move can rely on: regions that are shut stay shut, and no frame comes
to go on in them; regions do not come back into the cache, and are not marked in generations that
rounds were claimed for. -/
structure Evolves (w w' : World) : Prop where
  size_le : w.code.regions.size ≤ w'.code.regions.size
  active_le : w.generations.active ≤ w'.generations.active
  committed_le : w.generations.committed ≤ w'.generations.committed
  installed : ∀ r < w.code.regions.size, r ∈ w'.code.installed.values → r ∈ w.code.installed.values
  marked : ∀ n < w.generations.active, ∀ r ∈ w'.code.installed.values,
    w'.code.isMarkedUpTo n r = true → r ∈ w.code.installed.values ∧ w.code.isMarkedUpTo n r = true
  shut : ∀ r, w.Shut r → w'.Shut r
  exposed : ∀ r, w.Shut r → ∀ t ∈ w'.roster.registered, w'.Exposed t r →
    t ∈ w.roster.registered ∧ w.Exposed t r

variable {w w' : World} {i r : Nat} {q q' : Party}

lemma Clear.evolves (he : w.Evolves w') (hs : w.Shut r) (h : w.Clear r) : w'.Clear r := by
  intro t ht hx
  obtain ⟨ht', hx'⟩ := he.exposed r hs t ht hx
  exact h t ht' hx'

lemma covers_evolves (he : w.Evolves w') (hs : w.Shut r) {s : Stage} (h : s.Covers w r) :
    s.Covers w' r := by
  cases s with
  | retiring => exact trivial
  | visiting target todo =>
    intro t ht hx
    obtain ⟨ht', hx'⟩ := he.exposed r hs t ht hx
    exact h t ht' hx'
  | _ => exact h

/-- If no party moves, rounds cover what they covered. -/
lemma Covered.evolves (he : w.Evolves w') (hp : w'.parties = w.parties) (hs : w.Shut r)
    (h : w.Covered r) : w'.Covered r := by
  obtain ⟨p, hmem, hc⟩ := h
  exact ⟨p, hp ▸ hmem, covers_evolves he hs hc⟩

/-- If one party moves, rounds cover what they covered, provided that the round of this party
does. -/
lemma Covered.evolves_set (he : w.Evolves w') (hi : w.parties[i]? = some q)
    (hp : w'.parties = w.parties.set i q') (hs : w.Shut r)
    (hq : q.stage.Covers w r → q'.stage.Covers w' r) (h : w.Covered r) : w'.Covered r := by
  obtain ⟨p, hmem, hc⟩ := h
  obtain ⟨j, hj⟩ := List.mem_iff_getElem?.1 hmem
  by_cases hij : i = j
  · subst hij
    rw [hi, Option.some.injEq] at hj
    subst hj
    have hlt : i < w.parties.length := (List.getElem?_eq_some_iff.1 hi).1
    exact ⟨q', hp ▸ List.mem_set hlt q', hq hc⟩
  · refine ⟨p, List.mem_iff_getElem?.2 ⟨j, ?_⟩, covers_evolves he hs hc⟩
    rw [hp, List.getElem?_set_ne hij, hj]

lemma Awaited.of_pending {n : Nat} (h : (w.code.state r).pendingGeneration? = some n) :
    w.Awaited n r :=
  .inl ⟨n, Nat.le_refl n, h⟩

/-- A greater generation can be waited for as well. -/
lemma Awaited.mono {m n : Nat} (hmn : m ≤ n) (h : w.Awaited m r) : w.Awaited n r := by
  rcases h with ⟨k, hk, hp⟩ | ⟨hs, hclear | ⟨hlt, hcov⟩⟩
  · exact .inl ⟨k, Nat.le_trans hk hmn, hp⟩
  · exact .inr ⟨hs, .inl hclear⟩
  · exact .inr ⟨hs, .inr ⟨Nat.lt_of_lt_of_le hlt hmn, hcov⟩⟩

/-- How a region stands for a party that does not move, after a step of another. Its mark stays
pending, or the region stands as whoever waits for the mark needs it; and a round that was going to
patch the frames either still is or has brought it to an end. -/
lemma Awaited.evolves (he : w.Evolves w')
    (hpending : ∀ n, (w.code.state r).pendingGeneration? = some n → w'.Awaited n r)
    (hcovered : w.Shut r → w.Covered r → w'.Clear r ∨
      w'.generations.committed = w.generations.committed ∧ w'.Covered r)
    {required : Nat} (h : w.Awaited required r) : w'.Awaited required r := by
  rcases h with ⟨n, hn, hp⟩ | ⟨hs, hclear | ⟨hlt, hcov⟩⟩
  · exact (hpending n hp).mono hn
  · exact .inr ⟨he.shut r hs, .inl (hclear.evolves he hs)⟩
  · rcases hcovered hs hcov with hclear | ⟨heq, hcov'⟩
    · exact .inr ⟨he.shut r hs, .inl hclear⟩
    · exact .inr ⟨he.shut r hs, .inr ⟨heq ▸ hlt, hcov'⟩⟩

lemma lists_evolves (he : w.Evolves w') {s : Stage}
    (hs : ∀ n, s.target? = some n → n < w.generations.active) (h : s.Lists w.code) :
    s.Lists w'.code := by
  cases s with
  | scanning target todo found =>
    intro r hr hm
    obtain ⟨hr', hm'⟩ := he.marked target (hs target rfl) r hr hm
    exact h r hr' hm'
  | retiring target todo total =>
    intro r hr hm
    obtain ⟨hr', hm'⟩ := he.marked target (hs target rfl) r hr hm
    exact h r hr' hm'
  | visiting target todo =>
    intro r hr
    by_contra hm
    rw [Bool.not_eq_false] at hm
    obtain ⟨hr', hm'⟩ := he.marked target (hs target rfl) r hr hm
    rw [h r hr'] at hm'
    cases hm'
  | _ => exact trivial

/-- A party that does not move stays as it should be. While it is in a round of its own no other
round begins or ends. -/
lemma PartyOk.evolves (h : w.PartyOk q) (he : w.Evolves w')
    (hround : q.stage.target?.isSome = true → w'.generations.inFlight = w.generations.inFlight)
    (hpending : ∀ r ∈ w.code.installed.values, ∀ n,
      (w.code.state r).pendingGeneration? = some n → w'.Awaited n r)
    (hcovered : ∀ r, w.Shut r → w.Covered r → w'.Clear r ∨
      w'.generations.committed = w.generations.committed ∧ w'.Covered r) :
    w'.PartyOk q where
  required_le := Nat.le_trans h.required_le he.active_le
  asked_lt r hr := Nat.lt_of_lt_of_le (h.asked_lt r hr) he.size_le
  regions_lt r hr := Nat.lt_of_lt_of_le (h.regions_lt r hr) he.size_le
  inRound n hn := by
    obtain ⟨hf, ha⟩ := h.inRound n hn
    exact ⟨(hround (by rw [hn]; rfl)).trans hf, Nat.lt_of_lt_of_le ha he.active_le⟩
  lists := lists_evolves he (fun n hn => (h.inRound n hn).2) h.lists
  awaited r hr hin := by
    have hin' := he.installed r (h.asked_lt r hr) hin
    exact (h.awaited r hr hin').evolves he (hpending r hin') (hcovered r)

/-- A party that goes on to another stage is as it should be if the stage is. -/
lemma PartyOk.withStage (h : w.PartyOk q) (s : Stage)
    (hregions : ∀ r ∈ s.regions, r < w.code.regions.size)
    (hround : ∀ n, s.target? = some n →
      w.generations.inFlight = true ∧ n < w.generations.active)
    (hlists : s.Lists w.code) : w.PartyOk { q with stage := s } where
  required_le := h.required_le
  asked_lt := h.asked_lt
  regions_lt := hregions
  inRound := hround
  lists := hlists
  awaited := h.awaited

/-- A party goes on within its round. -/
lemma PartyOk.goOn {s₀ s : Stage} (h : w.PartyOk q) (hq : q.stage = s₀)
    (hround : s.target? = s₀.target?) (hregions : ∀ r ∈ s.regions, r ∈ s₀.regions)
    (hlists : s₀.Lists w.code → s.Lists w.code) : w.PartyOk { q with stage := s } := by
  subst hq
  exact h.withStage s (fun r hr => h.regions_lt r (hregions r hr))
    (fun n hn => h.inRound n (hround ▸ hn)) (hlists h.lists)

/-! ### Steps of one party, and of none -/

section Single

variable {ps : List Party}

/-- One party moves, and is not in a round while another is. -/
lemma single_set
    (h : ∀ (j k : Nat) (a b : Party), ps[j]? = some a → ps[k]? = some b →
      a.stage.target?.isSome = true → b.stage.target?.isSome = true → j = k)
    (hi : ps[i]? = some q)
    (hself : ∀ j p, j ≠ i → ps[j]? = some p → p.stage.target?.isSome = true →
      q'.stage.target? = none) (j k : Nat) (a b : Party)
    (hj : (ps.set i q')[j]? = some a) (hk : (ps.set i q')[k]? = some b)
    (ha : a.stage.target?.isSome = true) (hb : b.stage.target?.isSome = true) : j = k := by
  have hself : ∀ j p, j ≠ i → ps[j]? = some p → p.stage.target?.isSome = true →
      q'.stage.target?.isSome = true → False := by
    intro j p hne hj hp hq'
    rw [hself j p hne hj hp] at hq'
    cases hq'
  have hlt := (List.getElem?_eq_some_iff.1 hi).1
  by_cases hij : i = j <;> by_cases hik : i = k
  · exact hij.symm.trans hik
  · subst hij
    rw [List.getElem?_set_self hlt, Option.some.injEq] at hj
    rw [List.getElem?_set_ne hik] at hk
    exact (hself k b (Ne.symm hik) hk hb (hj ▸ ha)).elim
  · subst hik
    rw [List.getElem?_set_self hlt, Option.some.injEq] at hk
    rw [List.getElem?_set_ne hij] at hj
    exact (hself j a (Ne.symm hij) hj ha (hk ▸ hb)).elim
  · rw [List.getElem?_set_ne hij] at hj
    rw [List.getElem?_set_ne hik] at hk
    exact h j k a b hj hk ha hb

/-- A party comes, and is not in a round. -/
lemma single_append
    (h : ∀ (j k : Nat) (a b : Party), ps[j]? = some a → ps[k]? = some b →
      a.stage.target?.isSome = true → b.stage.target?.isSome = true → j = k)
    (hq : q.stage.target? = none) (j k : Nat) (a b : Party)
    (hj : (ps ++ [q])[j]? = some a) (hk : (ps ++ [q])[k]? = some b)
    (ha : a.stage.target?.isSome = true) (hb : b.stage.target?.isSome = true) : j = k := by
  have hold : ∀ (l : Nat) (p : Party), (ps ++ [q])[l]? = some p →
      p.stage.target?.isSome = true → ps[l]? = some p := by
    intro l p hl hp
    rcases Nat.lt_or_ge l ps.length with hlt | hge
    · rwa [List.getElem?_append_left hlt] at hl
    · rw [List.getElem?_append_right hge, List.getElem?_singleton] at hl
      split_ifs at hl
      rw [Option.some.injEq] at hl
      rw [← hl, hq] at hp
      cases hp
  exact h j k a b (hold j a hj ha) (hold k b hk hb) ha hb

end Single

/-- Between two rounds no party is in one. -/
lemma Inv.target?_eq_none (hw : w.Inv) (hf : w.generations.inFlight = false) (hq : q ∈ w.parties) :
    q.stage.target? = none := by
  cases ht : q.stage.target? with
  | none => rfl
  | some n =>
    obtain ⟨hf', -⟩ := (hw.parties q hq).inRound n ht
    rw [hf] at hf'
    cases hf'

/-- While a party is in a round no other is. -/
lemma Inv.target?_eq_none_of_ne (hw : w.Inv) (hi : w.parties[i]? = some q)
    (hq : q.stage.target?.isSome = true) {j : Nat} {p : Party} (hj : w.parties[j]? = some p)
    (hne : j ≠ i) : p.stage.target? = none := by
  by_contra hp
  exact hne (hw.single j i p q hj hi (Option.isSome_iff_ne_none.2 hp) hq)

/-- One party moves. The others keep what they relied on: no round begins or ends while one of them
is in a round, pending marks stay unless the region is taken up, and the frames that some round
covers stay covered until they are patched. -/
theorem Inv.move (hw : w.Inv) (hi : w.parties[i]? = some q)
    (hp : w'.parties = w.parties.set i q') (hcode : CodeOk w'.generations w'.code)
    (hframes : ∀ t, (w'.roster.thread t).InOrder (w'.origin t)) (he : w.Evolves w')
    (hround : ∀ j p, j ≠ i → w.parties[j]? = some p → p.stage.target?.isSome = true →
      w'.generations.inFlight = w.generations.inFlight)
    (hpending : ∀ r ∈ w.code.installed.values, ∀ n,
      (w.code.state r).pendingGeneration? = some n → w'.Awaited n r)
    (hcovered : ∀ r, w.Shut r → w.Covered r → w'.Clear r ∨
      w'.generations.committed = w.generations.committed ∧ w'.Covered r)
    (hq : w'.PartyOk q')
    (hsingle : q'.stage.target?.isSome = true →
      q.stage.target?.isSome = true ∨ w.generations.inFlight = false) : w'.Inv where
  code := hcode
  frames := hframes
  parties p hmem := by
    obtain ⟨j, hj⟩ := List.mem_iff_getElem?.1 hmem
    rw [hp] at hj
    by_cases hij : i = j
    · subst hij
      rw [List.getElem?_set_self (List.getElem?_eq_some_iff.1 hi).1, Option.some.injEq] at hj
      rwa [← hj]
    · rw [List.getElem?_set_ne hij] at hj
      exact (hw.parties p (List.mem_of_getElem? hj)).evolves he (hround j p (Ne.symm hij) hj)
        hpending hcovered
  single := by
    rw [hp]
    refine single_set hw.single hi fun j p hne hj hp' => ?_
    -- The party that moves is in a round only if it was, or if nobody was.
    by_contra hq'
    have hnone : p.stage.target? = none := by
      rcases hsingle (Option.isSome_iff_ne_none.2 hq') with hq | hf
      · exact hw.target?_eq_none_of_ne hi hq hj hne
      · exact hw.target?_eq_none hf (List.mem_of_getElem? hj)
    rw [hnone] at hp'
    cases hp'

/-- One party moves while the generations stand still. It is enough to say what the step makes of
this party, given that it stayed as it should be. -/
theorem Inv.move_still (hw : w.Inv) (hi : w.parties[i]? = some q)
    (hp : w'.parties = w.parties.set i q') (hg : w'.generations = w.generations)
    (hcode : CodeOk w'.generations w'.code)
    (hframes : ∀ t, (w'.roster.thread t).InOrder (w'.origin t)) (he : w.Evolves w')
    (hpending : ∀ r ∈ w.code.installed.values, ∀ n,
      (w.code.state r).pendingGeneration? = some n → w'.Awaited n r)
    (hcovers : ∀ r, w.Shut r → q.stage.Covers w r → q'.stage.Covers w' r)
    (hq : w'.PartyOk q → w'.PartyOk q')
    (hsingle : q'.stage.target?.isSome = true → q.stage.target?.isSome = true) : w'.Inv := by
  have hcovered : ∀ r, w.Shut r → w.Covered r → w'.Clear r ∨
      w'.generations.committed = w.generations.committed ∧ w'.Covered r := fun r hs hc =>
    .inr ⟨by rw [hg], hc.evolves_set he hi hp hs (hcovers r hs)⟩
  have hround : w'.generations.inFlight = w.generations.inFlight := by rw [hg]
  exact hw.move hi hp hcode hframes he (fun _ _ _ _ _ => hround) hpending hcovered
    (hq ((hw.parties q (List.mem_of_getElem? hi)).evolves he (fun _ => hround) hpending hcovered))
    (.inl ∘ hsingle)

/-- No party moves, nothing is committed, and no round begins or ends. -/
theorem Inv.stay (hw : w.Inv) (hp : w'.parties = w.parties)
    (hc : w'.generations.committed = w.generations.committed)
    (hf : w'.generations.inFlight = w.generations.inFlight) (hcode : CodeOk w'.generations w'.code)
    (hframes : ∀ t, (w'.roster.thread t).InOrder (w'.origin t)) (he : w.Evolves w')
    (hpending : ∀ r ∈ w.code.installed.values,
      (w'.code.state r).pendingGeneration? = (w.code.state r).pendingGeneration?) : w'.Inv where
  code := hcode
  frames := hframes
  parties q hq := by
    rw [hp] at hq
    refine (hw.parties q hq).evolves he (fun _ => hf) ?_ ?_
    · intro r hr n hn
      exact .of_pending ((hpending r hr).trans hn)
    · intro r hs hcov
      exact .inr ⟨hc, hcov.evolves he hp hs⟩
  single := by
    rw [hp]
    exact hw.single

end World
end Bailout
