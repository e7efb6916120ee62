import Bailout.Proofs.Round.Safepoint

/-!
# Marks that are ignored

A region that is marked for two batches has one mark, and both batches are to wait for it. But a
region that cannot be entered is ignored before its mark is looked at. So a batch does not wait for
a region that another party marked and a trap closed since: the commit returns while the mark is
still pending and threads go on in the region. A batch that does wait for the mark is safe, whatever
comes after.
-/

namespace Bailout

/-- A party that asked for what another did, and perhaps more, and waits at least as long. -/
structure Party.Grows (q q' : Party) : Prop where
  asked : ∀ r ∈ q.asked, r ∈ q'.asked
  required : q.batch.required ≤ q'.batch.required

lemma Party.Grows.refl (q : Party) : q.Grows q := ⟨fun _ hr => hr, Nat.le_refl _⟩

lemma Party.Grows.trans {q q' q'' : Party} (h : q.Grows q') (h' : q'.Grows q'') : q.Grows q'' :=
  ⟨fun r hr => h'.asked r (h.asked r hr), Nat.le_trans h.required h'.required⟩

namespace World

variable {w w' : World} {i j n r cutoff : Nat} {p p' q : Party} {b : Batch}

/-! ### What a party asked for -/

lemma grows_of_set (hw' : w'.parties = w.parties.set j p') (hj : w.parties[j]? = some p)
    (hp : p.Grows p') (hi : w.parties[i]? = some q) :
    ∃ q', w'.parties[i]? = some q' ∧ q.Grows q' := by
  by_cases hij : j = i
  · subst hij
    obtain rfl : p = q := Option.some.inj (hj.symm.trans hi)
    exact ⟨p', by rw [hw', List.getElem?_set_self (List.getElem?_eq_some_iff.1 hj).1], hp⟩
  · exact ⟨q, by rw [hw', List.getElem?_set_ne hij, hi], .refl q⟩

/-- Parties keep their places, and none forgets what it asked for. -/
lemma PartyStep.grows (h : PartyStep cutoff w w')
    (hle : ∀ q ∈ w.parties, q.batch.required ≤ w.generations.active)
    (hi : w.parties[i]? = some q) : ∃ q', w'.parties[i]? = some q' ∧ q.Grows q' := by
  cases h with
  | begin =>
    refine ⟨q, ?_, .refl q⟩
    show (w.parties ++ _)[i]? = some q
    rw [List.getElem?_append_left (List.getElem?_eq_some_iff.1 hi).1, hi]
  | @tag j p ref counts batch code hj hp ht =>
    refine grows_of_set rfl hj ⟨fun r hr => List.mem_cons_of_mem _ hr, ?_⟩ hi
    simp only [Batch.tag] at ht
    split_ifs at ht
    · simp only [pure_eq_ok, Prod.mk.injEq] at ht
      obtain ⟨rfl, -⟩ := ht
      exact Nat.le_max_left _ _
    · simp only [bind_eq_ok, pure_eq_ok, Prod.mk.injEq] at ht
      obtain ⟨_, -, rfl, -⟩ := ht
      exact hle p (List.mem_of_getElem? hj)
  | dependOn hj hp hr => exact grows_of_set rfl hj ⟨fun _ hr => hr, Nat.le_max_left _ _⟩ hi
  | look _ hj | commit hj | satisfied hj | claim hj | scan hj | scanned hj | retire hj
  | handshake hj | visit hj | finish hj | check hj =>
    exact grows_of_set rfl hj ⟨fun _ hr => hr, Nat.le_refl _⟩ hi

lemma ThreadStep.parties_eq (h : ThreadStep cutoff w w') : w'.parties = w.parties := by
  cases h <;> rfl

/-! ### Marking a region whose mark is pending -/

/-- A party that waits for the pending mark of a region may count the region among those that it
asked for. -/
lemma Inv.ask (hw : w.Inv) (hi : w.parties[i]? = some q) (hq : q.stage = .building)
    (hr : r ∈ w.code.installed.values) (hn : (w.code.state r).pendingGeneration? = some n)
    (hb : b = q.batch ∨ b = q.batch.await n) (hnb : n ≤ b.required) :
    (w.put i { batch := b, asked := r :: q.asked, stage := .building }).Inv := by
  have hok := hw.parties q (List.mem_of_getElem? hi)
  have hactive : n ≤ w.generations.active := by
    rw [← (RegionState.pendingGeneration?_eq_some.1 hn).2]
    exact hw.code.generation_le r
  have hmono : q.batch.required ≤ b.required := by
    rcases hb with rfl | rfl
    · exact Nat.le_refl _
    · exact Nat.le_max_left _ _
  have hrequired : b.required ≤ w.generations.active := by
    rcases hb with rfl | rfl
    · exact hok.required_le
    · exact Nat.max_le.2 ⟨hok.required_le, hactive⟩
  refine hw.put_outside hi ⟨hrequired, fun a ha => ?_, by simp [Stage.regions],
    by simp [Stage.target?], trivial, fun a ha hin => ?_⟩ (by rw [hq]; rfl) rfl
  · rcases List.mem_cons.1 ha with rfl | ha
    · exact hw.code.installed_lt a hr
    · exact hok.asked_lt a ha
  · rcases List.mem_cons.1 ha with rfl | ha
    · exact (Awaited.of_pending hn).mono hnb
    · exact (hok.awaited a ha hin).mono hmono

end World

/-- What marking a region comes to whose mark is pending: if the region is in use, the batch waits
for the mark, and else nothing happens. -/
lemma Batch.mark_of_pending {c : CodeCache} {g : Generations} {r n : Nat} (b : Batch)
    (counts : Bool) (hn : (c.state r).pendingGeneration? = some n) :
    b.mark g c r counts = .ok (if (c.state r).inUse then b.await n else b, c) := by
  obtain ⟨hpending, hgeneration⟩ := RegionState.pendingGeneration?_eq_some.1 hn
  rw [mark_eq, tag, if_pos hpending, hgeneration]
  split_ifs
  · rfl
  · rfl

namespace SafepointWorld

variable {s s' : SafepointWorld} {cutoff i n r : Nat} {q : Party} {b : Batch}

/-- The world after a party marked a region whose mark was pending. Nothing but the batch is
changed by that; the region counts as asked for, be it ignored or not. -/
def marked (s : SafepointWorld) (i : Nat) (q : Party) (b : Batch) (r : Nat) : SafepointWorld :=
  { s with toWorld := s.toWorld.put i { batch := b, asked := r :: q.asked, stage := .building } }

lemma Ok.required_le (hs : s.Ok) : ∀ q ∈ s.parties, q.batch.required ≤ s.generations.active := by
  intro q hq
  cases hp : s.published with
  | none => exact ((hs.inv hp).parties q hq).required_le
  | some p =>
    obtain ⟨-, -, c, -, hw⟩ := hs.ahead p.1 p.2 hp
    exact (hw.parties q hq).required_le

/-- Along a step parties keep their places, and none forgets what it asked for. -/
lemma Step.grows (h : Step cutoff s s') (hs : s.Ok) (hi : s.parties[i]? = some q) :
    ∃ q', s'.parties[i]? = some q' ∧ q.Grows q' := by
  cases h with
  | world h _ _ =>
    rcases h with h | h
    · exact h.grows hs.required_le hi
    · exact ⟨q, h.parties_eq ▸ hi, .refl q⟩
  | work hj _ _ => exact World.grows_of_set rfl hj ⟨fun _ hr => hr, Nat.le_refl _⟩ hi
  | hold _ _ | publish _ _ _ _ _ | release _ _ => exact ⟨q, hi, .refl q⟩

/-- The same along any steps, and what every interleaving keeps is kept. -/
lemma Ok.steps (hs : s.Ok) (h : Relation.ReflTransGen (Step cutoff) s s')
    (hi : s.parties[i]? = some q) : s'.Ok ∧ ∃ q', s'.parties[i]? = some q' ∧ q.Grows q' := by
  induction h with
  | refl => exact ⟨hs, q, hi, .refl q⟩
  | tail _ h ih =>
    obtain ⟨hok, q', hi', hg⟩ := ih
    obtain ⟨q'', hi'', hg'⟩ := h.grows hok hi'
    exact ⟨hok.step h, q'', hi'', hg.trans hg'⟩

/-- Whoever has published a generation does not collect marks. -/
lemma Reachable.publisher (hs : Reachable cutoff s) : ∀ j target,
    s.published = some (j, target) → ∃ p, s.parties[j]? = some p ∧ p.stage = .waiting := by
  obtain ⟨methods, hs⟩ := hs
  induction hs with
  | refl => simp [start]
  | tail _ h ih =>
    intro j target hp
    cases h with
    | world _ _ hparty =>
      obtain ⟨p, hj, hq⟩ := ih j target hp
      exact ⟨p, (hparty j target hp).trans hj, hq⟩
    | hold _ _ => exact ih j target hp
    | publish hi hq _ _ _ =>
      cases hp
      exact ⟨_, hi, hq⟩
    | work _ _ _ => cases hp
    | release _ hnone => exact ih j target hp

/-- A party that waits for the pending mark of a region may count the region among those that it
asked for, also between publishing and working. -/
lemma Ok.marked (hs : s.Ok) (hpublisher : ∀ j target, s.published = some (j, target) →
      ∃ p, s.parties[j]? = some p ∧ p.stage = .waiting)
    (hi : s.parties[i]? = some q) (hq : q.stage = .building)
    (hr : r ∈ s.code.installed.values) (hn : (s.code.state r).pendingGeneration? = some n)
    (hb : b = q.batch ∨ b = q.batch.await n) (hnb : n ≤ b.required) : (s.marked i q b r).Ok where
  answered := hs.answered.set rfl (Nat.le_refl _) (by simp)
  inv hp := (hs.inv hp).ask hi hq hr hn hb hnb
  ahead j target hp := by
    obtain ⟨hlt, hrequired, c, hc, hw⟩ := hs.ahead j target hp
    refine ⟨hlt, ?_, c, hc, hw.ask hi hq hr hn hb hnb⟩
    obtain ⟨p, hj, hwait⟩ := hpublisher j target hp
    have hne : i ≠ j := by
      rintro rfl
      obtain rfl : q = p := Option.some.inj (hi.symm.trans hj)
      rw [hq] at hwait
      cases hwait
    simpa [SafepointWorld.marked, World.put, List.getElem?_set_ne hne] using hrequired

/-! ### When a mark is waited for -/

/-- When a batch waits for the pending mark of a region that it is told to mark: if the region is in
use, or if the batch waits long enough anyway. If it does wait, then once the commit has returned
the mark is not pending any more, unless it was made anew, nobody can enter the region, and no
registered thread goes on in it; except while a commit at a safepoint stands between publishing and
working. -/
theorem awaits_mark_iff (hs : Reachable cutoff s) (hi : s.parties[i]? = some q)
    (hq : q.stage = .building) (hr : r ∈ s.code.installed.values)
    (hn : (s.code.state r).pendingGeneration? = some n) (counts : Bool) :
    ∃ b, q.batch.mark s.generations s.code r counts = .ok (b, s.code) ∧
      (n ≤ b.required ↔ (s.code.state r).inUse = true ∨ n ≤ q.batch.required) ∧
      (n ≤ b.required → ∀ s', Relation.ReflTransGen (Step cutoff) (s.marked i q b r) s' →
        ∀ q', s'.parties[i]? = some q' → q'.stage = .returned → s'.published = none →
          r ∈ s'.code.installed.values →
            (s'.code.state r).pendingGeneration? ≠ some n ∧ s'.Shut r ∧ s'.Clear r) := by
  obtain ⟨b, hmark, hb, hiff⟩ : ∃ b, q.batch.mark s.generations s.code r counts = .ok (b, s.code) ∧
      (b = q.batch ∨ b = q.batch.await n) ∧
      (n ≤ b.required ↔ (s.code.state r).inUse = true ∨ n ≤ q.batch.required) := by
    refine ⟨_, q.batch.mark_of_pending counts hn, ?_⟩
    split_ifs with hu
    · exact ⟨.inr rfl, iff_of_true (Nat.le_max_right _ _) (.inl hu)⟩
    · exact ⟨.inl rfl, .inr, fun h => h.resolve_left hu⟩
  refine ⟨b, hmark, hiff, fun hnb s' hsteps q' hi' hret hp hin => ?_⟩
  have hok := hs.ok.marked hs.publisher hi hq hr hn hb hnb
  have hplace : (s.marked i q b r).parties[i]? =
      some { batch := b, asked := r :: q.asked, stage := .building } :=
    List.getElem?_set_self (List.getElem?_eq_some_iff.1 hi).1
  obtain ⟨hok', q'', hi'', hg⟩ := hok.steps hsteps hplace
  obtain rfl : q'' = q' := Option.some.inj (hi''.symm.trans hi')
  have hcommitted := hok'.answered q'' (List.mem_of_getElem? hi') hret
  refine ⟨fun hpending => ?_, (hok'.inv hp).clear_of_committed (List.mem_of_getElem? hi')
    hcommitted (hg.asked r List.mem_cons_self) hin⟩
  -- A mark that is still pending would be of a generation that is not committed.
  have hlt := (hok'.inv hp).code.pending_gt r hin n hpending
  have hle : b.required ≤ q''.batch.required := hg.required
  omega

/-! ### Two batches for one region -/

/-- One more step away from safepoints. -/
lemma steps_world {w : World} (hs : Relation.ReflTransGen (Step cutoff) s s')
    (h : World.Step cutoff s'.toWorld w) (hfree : s'.roster.atSafepoint = false)
    (hp : s'.published = none) :
    Relation.ReflTransGen (Step cutoff) s { s' with toWorld := w } :=
  hs.tail (.world h (by simp [hfree]) (by simp [hp]))

/-- A thread runs in a region that one party has marked. Another marks it as well and commits. -/
theorem awaits_mark_iff_rider : ∃ s s' q q' b, Reachable 4 s ∧ s.parties[1]? = some q ∧
    q.stage = .building ∧ 0 ∈ s.code.installed.values ∧
    (s.code.state 0).pendingGeneration? = some 1 ∧ (s.code.state 0).inUse = true ∧
    q.batch.mark s.generations s.code 0 true = .ok (b, s.code) ∧ 1 ≤ b.required ∧
    Relation.ReflTransGen (Step 4) (s.marked 1 q b 0) s' ∧ s'.parties[1]? = some q' ∧
    q'.stage = .returned ∧ s'.published = none ∧ 0 ∈ s'.code.installed.values ∧
    0 ∈ s'.roster.registered ∧ (s'.roster.thread 0).stack.length = 1 ∧
    (s'.code.state 0).pendingGeneration? ≠ some 1 ∧ s'.Shut 0 ∧ s'.Clear 0 := by
  have h : Reachable 4 (start #[]) := ⟨#[], .refl⟩
  have h := h.world (.inr (.install
    { ref := 0, compileId := 1, method := default, start := 0x1000, size := 64,
      handlerOffset := 48 })) rfl rfl
  have h := h.world (.inr (.register 1 "main")) rfl rfl
  have h := h.world (.inr (@World.ThreadStep.call _ _ 0 0 4 0x1008 {} _ (by decide) (by decide)
    rfl rfl)) rfl rfl
  have h := h.world (.inl .begin) rfl rfl
  have h := h.world (.inl .begin) rfl rfl
  have h := h.world (.inl (@World.PartyStep.look _ _ 0 _ 0 true rfl rfl (by decide) rfl)) rfl rfl
  have h := h.world (.inl (@World.PartyStep.tag _ _ 0 _ _ _ _ _ rfl rfl rfl)) rfl rfl
  obtain ⟨b, hmark, hiff, hdone⟩ := awaits_mark_iff h (i := 1) rfl rfl List.mem_cons_self rfl true
  have hle := hiff.2 (.inl rfl)
  obtain rfl : b = ⟨1⟩ := (congrArg Prod.fst (Except.ok.inj hmark)).symm
  have hrefl : ∀ {s}, Reachable 4 s → Relation.ReflTransGen (Step 4) s s := fun _ => .refl
  have g := hrefl ((h.world (.inl (@World.PartyStep.look _ _ 1 _ 0 true rfl rfl (by decide) rfl))
    rfl rfl).world (.inl (@World.PartyStep.tag _ _ 1 _ _ _ _ _ rfl rfl rfl)) rfl rfl)
  have g := steps_world g (.inl (@World.PartyStep.commit _ _ 1 _ rfl rfl)) rfl rfl
  have g := steps_world g (.inl (@World.PartyStep.claim _ _ 1 _ _ _ _ rfl rfl rfl (.refl _)))
    rfl rfl
  have g := steps_world g (.inl (@World.PartyStep.scan _ _ 1 _ _ _ _ _ rfl rfl)) rfl rfl
  have g := steps_world g (.inl (@World.PartyStep.scanned _ _ 1 _ _ _ rfl rfl)) rfl rfl
  have g := steps_world g (.inl (@World.PartyStep.retire _ _ 1 _ _ _ _ _ _ rfl rfl rfl)) rfl rfl
  have g := steps_world g (.inl (@World.PartyStep.handshake _ _ 1 _ _ _ rfl rfl)) rfl rfl
  have g := steps_world g (.inl (@World.PartyStep.visit _ _ 1 _ _ _ _ _ _ rfl rfl rfl)) rfl rfl
  have g := steps_world g (.inl (@World.PartyStep.finish _ _ 1 _ _ _ rfl rfl rfl)) rfl rfl
  have g := steps_world g (.inl (@World.PartyStep.check _ _ 1 _ rfl rfl (by decide))) rfl rfl
  exact ⟨_, _, _, _, _, h, rfl, rfl, List.mem_cons_self, rfl, rfl, hmark, hle, g, rfl, rfl, rfl,
    List.mem_cons_self, List.mem_cons_self, rfl,
    hdone hle _ g _ rfl rfl rfl List.mem_cons_self⟩

/-- A thread runs in a region that one party has marked, and a trap closes the region. Another party
marks it and commits. Its mark is ignored, and it returns while the mark of the region is pending
and the thread goes on in it. -/
theorem returned_ignored : ∃ s s' q q' b, Reachable 4 s ∧ s.parties[1]? = some q ∧
    q.stage = .building ∧ 0 ∈ s.code.installed.values ∧
    (s.code.state 0).pendingGeneration? = some 1 ∧
    q.batch.mark s.generations s.code 0 true = .ok (b, s.code) ∧ ¬ 1 ≤ b.required ∧
    Relation.ReflTransGen (Step 4) s s' ∧ s'.parties[1]? = some q' ∧ q'.batch = b ∧
    q'.stage = .returned ∧ s'.published = none ∧ 0 ∈ s'.code.installed.values ∧
    (s'.code.state 0).pendingGeneration? = some 1 ∧ 0 ∈ s'.roster.registered ∧ s'.Exposed 0 0 := by
  have h : Reachable 4 (start #[]) := ⟨#[], .refl⟩
  have h := h.world (.inr (.install
    { ref := 0, compileId := 1, method := default, start := 0x1000, size := 64,
      handlerOffset := 48 })) rfl rfl
  have h := h.world (.inr (.register 1 "main")) rfl rfl
  have h := h.world (.inr (@World.ThreadStep.call _ _ 0 0 4 0x1008 {} _ (by decide) (by decide)
    rfl rfl)) rfl rfl
  have h := h.world (.inl .begin) rfl rfl
  have h := h.world (.inl .begin) rfl rfl
  have h := h.world (.inl (@World.PartyStep.look _ _ 0 _ 0 true rfl rfl (by decide) rfl)) rfl rfl
  have h := h.world (.inl (@World.PartyStep.tag _ _ 0 _ _ _ _ _ rfl rfl rfl)) rfl rfl
  have h := h.world (.inr (@World.ThreadStep.trap _ _ 0 _ _ (by decide) rfl)) rfl rfl
  have hrefl : ∀ {s}, Reachable 4 s → Relation.ReflTransGen (Step 4) s s := fun _ => .refl
  have g := steps_world (hrefl h) (.inl (@World.PartyStep.commit _ _ 1 _ rfl rfl)) rfl rfl
  have g := steps_world g (.inl (@World.PartyStep.satisfied _ _ 1 _ _ rfl rfl rfl)) rfl rfl
  exact ⟨_, _, _, _, _, h, rfl, rfl, List.mem_cons_self, rfl, rfl, by decide, g, rfl, rfl, rfl, rfl,
    List.mem_cons_self, rfl, List.mem_cons_self, _, List.mem_cons_self, _, rfl, rfl, rfl⟩

end SafepointWorld
end Bailout
