import Bailout.Proofs.Round.AtOnce
import Bailout.Proofs.Round.Handshake

/-!
# Commits at safepoints

While a safepoint is held, a commit of whoever holds it takes two steps that nobody can interrupt:
it publishes the active generation as committed, and after that does the work of a round at once. No
handshake begins or goes on meanwhile. But the commits of others that find their generation
committed do not wait, and so they return before the work is done.

What such a commit publishes comes true with its work. Until then the invariant holds for an earlier
generation, the one that would be committed without it.
-/

namespace Bailout

/-- The party is in the midst of a handshake. -/
def Stage.inHandshake : Stage → Bool
  | visiting _ todo => !todo.isEmpty
  | _ => false

/-- A world in which commits are made at safepoints as well. -/
structure SafepointWorld extends World where
  /-- The commit that has published a generation and not done its work: its party, by position, and
  the generation. -/
  published : Option (Nat × Nat) := none

namespace SafepointWorld

def start (methods : Array MethodState) : SafepointWorld := { toWorld := .start methods }

/-- The steps of all parties and threads, those at safepoints included. It is left open which
parties belong to whoever holds a safepoint: any that waits may be the one that commits at it. -/
inductive Step (cutoff : Nat) (s : SafepointWorld) : SafepointWorld → Prop where
  /-- While a safepoint is held no handshake begins or goes on, and who has published a generation
  goes on with the work. -/
  | world {w : World} (h : World.Step cutoff s.toWorld w)
      (hsafe : s.roster.atSafepoint = true →
        w.roster.handshakes = s.roster.handshakes ∧ w.roster.visits = s.roster.visits)
      (hp : ∀ i target, s.published = some (i, target) → w.parties[i]? = s.parties[i]?) :
      Step cutoff s { s with toWorld := w }
  /-- A safepoint is begun once nobody is in the midst of a handshake. -/
  | hold {roster : Roster} (hr : s.roster.beginSafepoint = .ok roster)
      (hfree : ∀ q ∈ s.parties, q.stage.inHandshake = false) :
      Step cutoff s { s with roster }
  | publish {i : Nat} {q : Party} {target : Nat} {g : Generations}
      (hi : s.parties[i]? = some q) (hq : q.stage = .waiting) (hsafe : s.roster.atSafepoint = true)
      (hp : s.published = none) (hg : s.generations.advance = .ok (target, g)) :
      Step cutoff s { s with generations := g, published := some (i, target) }
  | work {i : Nat} {q : Party} {target : Nat} {rounds : Rounds}
      (hi : s.parties[i]? = some q) (hp : s.published = some (i, target))
      (hr : s.toRounds.deoptimizeMarked cutoff target = .ok rounds) :
      Step cutoff s
        { toWorld := World.put { s with toRounds := rounds } i { q with stage := .returned } }
  | release (hsafe : s.roster.atSafepoint = true) (hp : s.published = none) :
      Step cutoff s { s with roster := s.roster.endSafepoint }

/-- The worlds that some interleaving leads to. -/
def Reachable (cutoff : Nat) (s : SafepointWorld) : Prop :=
  ∃ methods, Relation.ReflTransGen (Step cutoff) (start methods) s

end SafepointWorld

/-! ### Steps as of an earlier generation -/

lemma Batch.tag_of_lt {b b' : Batch} {g : Generations} {code code' : CodeCache} {ref c : Nat}
    {counts : Bool} (hc : c < g.active) (h : b.tag g code ref counts = .ok (b', code')) :
    b.tag { g with committed := c } code ref counts = .ok (b', code') := by
  unfold tag at h ⊢
  split_ifs at h ⊢
  · exact h
  · obtain ⟨_, -, h⟩ := bind_eq_ok.1 h
    exact bind_eq_ok.2 ⟨(), guarantee_eq_ok.2 (decide_eq_true hc), h⟩

namespace World

variable {w w' : World} {i c cutoff target : Nat} {q : Party}

lemma ThreadStep.asOf (h : ThreadStep cutoff w w') (c : Nat) :
    ThreadStep cutoff (w.asOf c) (w'.asOf c) := by
  cases h with
  | call ht hr hu hp => exact .call (w := w.asOf c) ht hr hu hp
  | push ht hk hp => exact .push (w := w.asOf c) ht hk hp
  | pop ht => exact .pop (w := w.asOf c) ht
  | patch ht hf hg => exact .patch (w := w.asOf c) ht hf hg
  | register id name => exact .register (w := w.asOf c) id name
  | unregister id => exact .unregister (w := w.asOf c) id
  | trap hr hp => exact .trap (w := w.asOf c) hr hp
  | install x => exact .install (w := w.asOf c) x
  | remove compileId => exact .remove (w := w.asOf c) compileId
  | profile methods histogram nextAddress =>
    exact .profile (w := w.asOf c) methods histogram nextAddress

/-- A step that commits `m`, if anything, leaves the world as it should be as of `c`, or as of `m`
if that is greater. -/
def Follows (c : Nat) (w w' : World) : Prop :=
  w.generations.active ≤ w'.generations.active ∧
    ∃ m, w'.generations.committed = max w.generations.committed m ∧ (w'.asOf (max c m)).Inv

lemma Follows.of_inv (h : (w'.asOf c).Inv) (hg : w'.generations = w.generations) :
    Follows c w w' :=
  ⟨Nat.le_of_eq (by rw [hg]), 0, by rw [hg, Nat.max_zero], by rwa [Nat.max_zero]⟩

/-- What a party does to a world it could do to the world as of an earlier generation; except that
it would not be answered there, nor return, and might begin with less. -/
lemma Inv.follows_partyStep (hw : (w.asOf c).Inv) (hc : c ≤ w.generations.committed)
    (ha : w.generations.committed < w.generations.active) (h : PartyStep cutoff w w') :
    Follows c w w' := by
  have hstep : ∀ {w'}, PartyStep cutoff (w.asOf c) (World.asOf w' c) →
      w'.generations = w.generations → Follows c w w' := fun h => .of_inv (hw.partyStep h)
  cases h with
  | begin => exact .of_inv (hw.join (Nat.le_of_lt ha)) rfl
  | look counts hi hq hr hu => exact hstep (.look counts hi hq hr hu) rfl
  | tag hi hq ht =>
    exact hstep (.tag hi hq (Batch.tag_of_lt (Nat.lt_of_le_of_lt hc ha) ht)) rfl
  | dependOn hi hq hr => exact hstep (.dependOn hi hq hr) rfl
  | commit hi hq => exact hstep (.commit hi hq) rfl
  | satisfied hi hq => exact .of_inv (hw.returned hi (by rw [hq]; rfl)) rfl
  | claim hi hq hclaim hp =>
    obtain ⟨hr, hf, rfl, hlt, rfl⟩ := Generations.claim_eq_claimed.1 hclaim
    have hclaim : PartyStep cutoff (w.asOf c) _ := .claim hi hq
      (Generations.claim_eq_claimed.2 ⟨Nat.lt_of_le_of_lt hc hr, hf, rfl, hlt, rfl⟩) hp
    have hw' := hw.partyStep hclaim
    exact ⟨Nat.le_succ _, 0, (Nat.max_zero _).symm, (Nat.max_zero c).symm ▸ hw'⟩
  | scan hi hq => exact hstep (.scan hi hq) rfl
  | scanned hi hq => exact hstep (.scanned hi hq) rfl
  | retire hi hq hp => exact hstep (.retire hi hq hp) rfl
  | handshake hi hq => exact hstep (.handshake hi hq) rfl
  | visit hi hq hv => exact hstep (.visit hi hq hv) rfl
  | @finish i q target g hi hq hg =>
    obtain ⟨-, rfl⟩ := Generations.finish_eq_ok.1 hg
    have hlt : target < w.generations.active :=
      ((hw.parties q (List.mem_of_getElem? hi)).inRound target (by rw [hq]; rfl)).2
    exact ⟨Nat.le_refl _, target, rfl, hw.finish hi hq (Generations.finish_eq_ok.2
      ⟨Nat.max_lt.2 ⟨hw.code.committed_lt, hlt⟩, rfl⟩)⟩
  | check hi hq => exact .of_inv (hw.returned hi (by rw [hq]; rfl)) rfl

lemma Inv.follows (hw : (w.asOf c).Inv) (hc : c ≤ w.generations.committed)
    (ha : w.generations.committed < w.generations.active) (h : Step cutoff w w') :
    Follows c w w' := by
  rcases h with h | h
  · exact hw.follows_partyStep hc ha h
  · refine .of_inv (hw.threadStep (h.asOf c)) ?_
    cases h <;> rfl

/-- Counters and flags of the roster do not matter. -/
lemma Inv.setRoster {roster : Roster} (hw : w.Inv) (ht : roster.threads = w.roster.threads)
    (hr : roster.registered = w.roster.registered) : ({ w with roster } : World).Inv := by
  refine hw.stay rfl rfl rfl hw.code (fun t => ?_) ?_ fun _ _ => rfl
  · rw [Roster.thread, ht]
    exact hw.frames t
  · exact evolves_of_eq rfl rfl (Nat.le_refl _) (Nat.le_refl _) ht hr

/-- Marks may be made in a later generation from now on. -/
lemma Inv.raise {active : Nat} (hw : w.Inv) (h : w.generations.active ≤ active) :
    ({ w with generations := { w.generations with active } } : World).Inv := by
  have hcode : CodeOk { w.generations with active } w.code :=
    ⟨Nat.lt_of_lt_of_le hw.code.committed_lt h, hw.code.installed_lt, hw.code.ref_eq,
      fun r => Nat.le_trans (hw.code.generation_le r) h, hw.code.pending_gt⟩
  exact hw.stay rfl rfl rfl hcode hw.frames (evolves_of_eq rfl rfl h (Nat.le_refl _) rfl rfl)
    fun _ _ => rfl

/-! ### Between publishing and working -/

/-- A party has published a generation, and what the invariant says is still so as of an earlier one
only. -/
structure Ahead (w : World) (i target : Nat) : Prop where
  lt_active : target < w.generations.active
  publisher : ∃ q, w.parties[i]? = some q ∧ q.batch.required ≤ target
  behind : ∃ c, w.generations.committed = max target c ∧ (w.asOf c).Inv

lemma Ahead.step (h : w.Ahead i target) (hs : Step cutoff w w')
    (hi : w'.parties[i]? = w.parties[i]?) : w'.Ahead i target := by
  obtain ⟨hlt, hpublisher, c, hc, hw⟩ := h
  have hle : c ≤ w.generations.committed := hc ▸ Nat.le_max_right _ _
  have ha : w.generations.committed < w.generations.active :=
    hc ▸ Nat.max_lt.2 ⟨hlt, hw.code.committed_lt⟩
  obtain ⟨hactive, m, hm, hw'⟩ := hw.follows hle ha hs
  exact ⟨Nat.lt_of_lt_of_le hlt hactive, hi ▸ hpublisher, max c m, by rw [hm, hc, Nat.max_assoc],
    hw'⟩

/-- The law holds as far as nothing is due that was published already. -/
lemma Ahead.uncommitted_iff (h : w.Ahead i target) :
    (∀ r ∈ w.code.installed.values, ∀ n, (w.code.state r).pendingGeneration? = some n →
      w.generations.committed < n) ↔
    ∀ r ∈ w.code.installed.values, w.code.isMarkedUpTo target r = false := by
  obtain ⟨-, -, c, hc, hw⟩ := h
  rw [hc]
  refine forall₂_congr fun r hr => ?_
  constructor
  · intro hgt
    by_contra hm
    obtain ⟨n, hn, hp⟩ := CodeCache.isMarkedUpTo_eq_true.1 (by simpa using hm)
    have := hgt n hp
    omega
  · intro hm n hp
    refine Nat.max_lt.2 ⟨?_, hw.code.pending_gt r hr n hp⟩
    by_contra hn
    have := CodeCache.isMarkedUpTo_eq_true.2 ⟨n, Nat.not_lt.1 hn, hp⟩
    rw [hm] at this
    cases this

end World

namespace SafepointWorld

variable {s s' : SafepointWorld} {cutoff : Nat}

/-- What every interleaving keeps, safepoints included. -/
structure Ok (s : SafepointWorld) : Prop where
  answered : s.toWorld.Answered
  inv : s.published = none → s.toWorld.Inv
  ahead : ∀ i target, s.published = some (i, target) → s.toWorld.Ahead i target

/-- Counters and flags of the roster do not matter. -/
lemma Ok.setRoster {roster : Roster} (hs : s.Ok) (ht : roster.threads = s.roster.threads)
    (hr : roster.registered = s.roster.registered) : ({ s with roster } : SafepointWorld).Ok where
  answered := hs.answered
  inv hp := (hs.inv hp).setRoster ht hr
  ahead i target hp := by
    obtain ⟨hlt, hpublisher, c, hc, hw⟩ := hs.ahead i target hp
    exact ⟨hlt, hpublisher, c, hc, hw.setRoster ht hr⟩

theorem Ok.step (hs : s.Ok) (h : Step cutoff s s') : s'.Ok := by
  cases h with
  | @world w h _ hparty =>
    exact ⟨hs.answered.step h, fun hp => (hs.inv hp).step h,
      fun i target hp => (hs.ahead i target hp).step h (hparty i target hp)⟩
  | @hold roster hr _ =>
    unfold Roster.beginSafepoint at hr
    split_ifs at hr
    cases hr
    exact hs.setRoster rfl rfl
  | @publish i q target g hi hq _ hp hg =>
    obtain ⟨rfl, rfl⟩ := Generations.advance_spec hg
    have hw := hs.inv hp
    have hlt := hw.code.committed_lt
    refine ⟨fun p hmem hret => ?_, by simp, ?_⟩
    · exact Nat.le_trans (hs.answered p hmem hret) (Nat.le_of_lt hlt)
    · rintro _ _ ⟨⟩
      exact ⟨Nat.lt_succ_self _, ⟨q, hi, (hw.parties q (List.mem_of_getElem? hi)).required_le⟩,
        s.generations.committed, (Nat.max_eq_left (Nat.le_of_lt hlt)).symm,
        hw.raise (Nat.le_succ _)⟩
  | @work i q target rounds hi hp hr =>
    obtain ⟨hlt, ⟨q', hi', hle⟩, c, hc, hw⟩ := hs.ahead i target hp
    obtain rfl : q = q' := Option.some.inj (hi.symm.trans hi')
    have hgen := (Rounds.deoptimizeMarked_spec hr).generations
    refine ⟨hs.answered.set rfl ?_ fun _ => ?_, fun _ => hw.atOnce hi hlt hc hr, by simp⟩
    · exact Nat.le_of_eq (congrArg Generations.committed hgen.symm)
    · show q.batch.required ≤ rounds.generations.committed
      rw [hgen, hc]
      exact Nat.le_trans hle (Nat.le_max_left _ _)
  | release _ _ => exact hs.setRoster rfl rfl

theorem Reachable.ok (hs : Reachable cutoff s) : s.Ok := by
  obtain ⟨methods, hs⟩ := hs
  induction hs with
  | refl => exact ⟨by simp [start, World.Answered, World.start], fun _ => World.inv_start methods,
      by simp [start]⟩
  | tail _ h ih => exact ih.step h

/-! ### Interleavings -/

lemma Reachable.world {w : World} (hs : Reachable cutoff s) (h : World.Step cutoff s.toWorld w)
    (hfree : s.roster.atSafepoint = false) (hp : s.published = none) :
    Reachable cutoff { s with toWorld := w } := by
  obtain ⟨methods, hs⟩ := hs
  exact ⟨methods, hs.tail (.world h (by simp [hfree]) (by simp [hp]))⟩

lemma Reachable.step (hs : Reachable cutoff s) (h : Step cutoff s s') : Reachable cutoff s' := by
  obtain ⟨methods, hs⟩ := hs
  exact ⟨methods, hs.tail h⟩

/-- A commit at a safepoint that nothing comes between publishes its generation and does the
work. -/
theorem steps_of_commit {i : Nat} {q : Party} {rounds : Rounds} (hi : s.parties[i]? = some q)
    (hq : q.stage = .waiting) (hup : s.roster.initialized = true)
    (hsafe : s.roster.atSafepoint = true) (hp : s.published = none)
    (h : s.toRounds.commit cutoff q.batch = .ok rounds) :
    Relation.ReflTransGen (Step cutoff) s
      { toWorld := World.put { s with toRounds := rounds } i { q with stage := .returned } } := by
  rw [Rounds.commit, if_neg (by simp [hup]), if_pos hsafe, bind_eq_ok] at h
  obtain ⟨⟨target, g⟩, hg, hr⟩ := h
  have hpublish : Step cutoff _ _ := .publish hi hq hsafe hp hg
  have hwork : Step cutoff { s with generations := g, published := some (i, target) } _ :=
    .work hi rfl hr
  exact .head hpublish (.single hwork)

/-- In every world that some interleaving leads to, pending marks of installed regions are of
generations that are not committed, as far as nothing is due that a commit at a safepoint has
published already. While no such commit stands between publishing and working, whatever a party
asked for is gone once its commit has returned: the mark is not pending any more, unless it was made
anew, nobody can enter the region, and no registered thread goes on in it. -/
theorem pending_gt_iff (hs : Reachable cutoff s) :
    ((∀ r ∈ s.code.installed.values, ∀ n, (s.code.state r).pendingGeneration? = some n →
        s.generations.committed < n) ↔
      ∀ i target, s.published = some (i, target) →
        ∀ r ∈ s.code.installed.values, s.code.isMarkedUpTo target r = false) ∧
    (s.published = none → ∀ q ∈ s.parties, q.stage = .returned →
      ∀ r ∈ q.asked, r ∈ s.code.installed.values →
        (∀ n, (s.code.state r).pendingGeneration? = some n → q.batch.required < n) ∧
          s.Shut r ∧ s.Clear r) := by
  have hok := hs.ok
  constructor
  · cases hp : s.published with
    | none => exact iff_of_true (hok.inv hp).code.pending_gt (by simp)
    | some p =>
      obtain ⟨i, target⟩ := p
      rw [(hok.ahead i target hp).uncommitted_iff]
      simp
  · intro hp q hq hret r hr hin
    have hw := hok.inv hp
    have hle := hok.answered q hq hret
    refine ⟨fun n hn => ?_, hw.clear_of_committed hq hle hr hin⟩
    exact Nat.lt_of_le_of_lt hle (hw.code.pending_gt r hin n hn)

/-- One thread runs in a region, and a party that holds a safepoint has it deoptimized. -/
theorem pending_gt_iff_done : ∃ s q, Reachable 4 s ∧ s.published = none ∧ q ∈ s.parties ∧
    q.stage = .returned ∧ 0 ∈ q.asked ∧ 0 ∈ s.code.installed.values ∧ 0 ∈ s.roster.registered ∧
    (s.roster.thread 0).stack.length = 1 ∧
    (∀ r ∈ s.code.installed.values, ∀ n, (s.code.state r).pendingGeneration? = some n →
      s.generations.committed < n) ∧
    (∀ n, (s.code.state 0).pendingGeneration? = some n → q.batch.required < n) ∧
    s.Shut 0 ∧ s.Clear 0 := by
  have h : Reachable 4 (start #[]) := ⟨#[], .refl⟩
  have h := h.world (.inr (.install
    { ref := 0, compileId := 1, method := default, start := 0x1000, size := 64,
      handlerOffset := 48 })) rfl rfl
  have h := h.world (.inr (.register 1 "main")) rfl rfl
  have h := h.world (.inr (@World.ThreadStep.call _ _ 0 0 4 0x1008 {} _ (by decide) (by decide)
    rfl rfl)) rfl rfl
  have h := h.world (.inl .begin) rfl rfl
  have h := h.world (.inl (@World.PartyStep.look _ _ 0 _ 0 true rfl rfl (by decide) rfl)) rfl rfl
  have h := h.world (.inl (@World.PartyStep.tag _ _ 0 _ _ _ _ _ rfl rfl rfl)) rfl rfl
  have h := h.world (.inl (@World.PartyStep.commit _ _ 0 _ rfl rfl)) rfl rfl
  have h := h.step (.hold rfl (by decide))
  have h := h.step (@Step.publish _ _ 0 _ _ _ rfl rfl rfl rfl rfl)
  have h := h.step (@Step.work _ _ 0 _ _ _ rfl rfl rfl)
  obtain ⟨hpending, hreturned⟩ := pending_gt_iff h
  exact ⟨_, _, h, rfl, List.mem_of_getElem? (i := 0) rfl, rfl, List.mem_cons_self,
    List.mem_cons_self, List.mem_cons_self, rfl, hpending.2 (by simp),
    hreturned rfl _ (List.mem_of_getElem? (i := 0) rfl) rfl 0 List.mem_cons_self
      List.mem_cons_self⟩

/-- One thread runs in a region that two parties ask for. The first holds a safepoint and publishes
the generation; the second finds it committed and returns, while the region can still be entered and
the thread still goes on in it. -/
theorem returned_before_work : ∃ s q, Reachable 4 s ∧ q ∈ s.parties ∧ q.stage = .returned ∧
    0 ∈ q.asked ∧ 0 ∈ s.code.installed.values ∧
    (s.code.state 0).pendingGeneration? = some s.generations.committed ∧
    (s.code.state 0).inUse = true ∧ 0 ∈ s.roster.registered ∧ s.Exposed 0 0 := by
  have h : Reachable 4 (start #[]) := ⟨#[], .refl⟩
  have h := h.world (.inr (.install
    { ref := 0, compileId := 1, method := default, start := 0x1000, size := 64,
      handlerOffset := 48 })) rfl rfl
  have h := h.world (.inr (.register 1 "main")) rfl rfl
  have h := h.world (.inr (@World.ThreadStep.call _ _ 0 0 4 0x1008 {} _ (by decide) (by decide)
    rfl rfl)) rfl rfl
  have h := h.world (.inl .begin) rfl rfl
  have h := h.world (.inl .begin) rfl rfl
  have h := h.world (.inl (@World.PartyStep.look _ _ 1 _ 0 true rfl rfl (by decide) rfl)) rfl rfl
  have h := h.world (.inl (@World.PartyStep.tag _ _ 1 _ _ _ _ _ rfl rfl rfl)) rfl rfl
  have h := h.world (.inl (@World.PartyStep.commit _ _ 0 _ rfl rfl)) rfl rfl
  have h := h.world (.inl (@World.PartyStep.commit _ _ 1 _ rfl rfl)) rfl rfl
  have h := h.step (.hold rfl (by decide))
  have h := h.step (@Step.publish _ _ 0 _ _ _ rfl rfl rfl rfl rfl)
  have h := h.step (.world (.inl (@World.PartyStep.satisfied _ _ 1 _ _ rfl rfl rfl))
    (fun _ => ⟨rfl, rfl⟩) (by rintro _ _ ⟨⟩; rfl))
  exact ⟨_, _, h, List.mem_of_getElem? (i := 1) rfl, rfl, List.mem_cons_self, List.mem_cons_self,
    rfl, rfl, List.mem_cons_self, _, List.mem_cons_self, _, rfl, rfl, rfl⟩

end SafepointWorld
end Bailout
