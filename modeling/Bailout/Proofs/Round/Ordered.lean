import Bailout.Proofs.Round.Invariant

/-!
# Generations stay in order

A commit looks at the runtime before it does anything: whether it has started, and then whether a
safepoint is held. By the time the commit acts on what it saw, things may be different. A round that
was claimed before a safepoint may end while the safepoint is held; several commits may publish a
generation at it; and what they do after that, region by region and thread by thread, may go on when
the safepoint is over, while others mark and commit.

Nothing of this upsets the generations. What is committed stays below what is active, nothing waits
for a generation later than the active one, and one round at most is under way.
-/

namespace Bailout

/-! ### Commits of all kinds -/

/-- How a commit goes on after what it saw of the runtime. -/
inductive Course where
  /-- It has not looked yet. -/
  | undecided
  /-- The runtime was up. -/
  | up
  /-- No safepoint was held. The commit waits for its generation, or for a round of its own. -/
  | inTurn
  /-- A safepoint was held. -/
  | atSafepoint
  /-- A generation is published, and the work for it goes on. -/
  | published (target : Nat)
  deriving DecidableEq, Repr, Inhabited

/-- A world in which every commit looks at the runtime for itself. -/
structure CommitWorld extends World where
  /-- The courses of commits, by the position of the party. -/
  course : Nat → Course := fun _ => .undecided

namespace CommitWorld

/-- Nothing has happened yet, and the runtime has not started. -/
def start (methods : Array MethodState) : CommitWorld := { program := { methods } }

def take (s : CommitWorld) (i : Nat) (c : Course) : CommitWorld :=
  { s with course := Function.update s.course i c }

/-- The commit of a party waits, and not for rounds. -/
def aside (s : CommitWorld) (i : Nat) : Bool :=
  (s.parties[i]?.any fun q => q.stage = .waiting) && s.course i ≠ .inTurn

/-- The steps of all parties and threads, and of the runtime. -/
inductive Step (cutoff : Nat) (s : CommitWorld) : CommitWorld → Prop where
  | world {w : World} (h : World.Step cutoff s.toWorld w)
      (haside : ∀ i < s.parties.length, s.aside i = true → w.parties[i]? = s.parties[i]?) :
      Step cutoff s { s with toWorld := w }
  | startUp : Step cutoff s { s with roster := { s.roster with initialized := true } }
  | hold {roster : Roster} (hr : s.roster.beginSafepoint = .ok roster) :
      Step cutoff s { s with roster }
  | release : Step cutoff s { s with roster := s.roster.endSafepoint }
  /-- Before the runtime has started there is nothing to be done. -/
  | dismiss {i : Nat} {q : Party} (hi : s.parties[i]? = some q) (hq : q.stage = .waiting)
      (hc : s.course i = .undecided) (hdown : s.roster.initialized = false) :
      Step cutoff s { s with toWorld := s.toWorld.put i { q with stage := .returned } }
  | enter {i : Nat} {q : Party} (hi : s.parties[i]? = some q) (hq : q.stage = .waiting)
      (hc : s.course i = .undecided) (hup : s.roster.initialized = true) :
      Step cutoff s (s.take i .up)
  | queue {i : Nat} (hc : s.course i = .up) (hsafe : s.roster.atSafepoint = false) :
      Step cutoff s (s.take i .inTurn)
  | stop {i : Nat} (hc : s.course i = .up) (hsafe : s.roster.atSafepoint = true) :
      Step cutoff s (s.take i .atSafepoint)
  | publish {i target : Nat} {g : Generations} (hc : s.course i = .atSafepoint)
      (hg : s.generations.advance = .ok (target, g)) :
      Step cutoff s { s.take i (.published target) with generations := g }
  /-- Of the work that is left after publishing one region is retired. -/
  | retire {i target r : Nat} {q : Party} {p : Program} (hi : s.parties[i]? = some q)
      (hq : q.stage = .waiting) (hc : s.course i = .published target)
      (hp : s.program.retire cutoff r = .ok p) :
      Step cutoff s { s with program := p }
  /-- Of the work that is left after publishing one thread is visited. -/
  | visit {i target t : Nat} {q : Party} {h : Histogram} {roster : Roster}
      (hi : s.parties[i]? = some q) (hq : q.stage = .waiting)
      (hc : s.course i = .published target)
      (hv : Roster.visit (Rounds.visit s.code) (s.histogram, s.roster) t = .ok (h, roster)) :
      Step cutoff s { s with histogram := h, roster }
  | done {i target : Nat} {q : Party} (hi : s.parties[i]? = some q) (hq : q.stage = .waiting)
      (hc : s.course i = .published target) :
      Step cutoff s { s with
        toWorld := World.put { s.toWorld with count := s.count + 1 } i
          { q with stage := .returned } }

/-- The worlds that some interleaving leads to. -/
def Reachable (cutoff : Nat) (s : CommitWorld) : Prop :=
  ∃ methods, Relation.ReflTransGen (Step cutoff) (start methods) s

end CommitWorld

/-! ### Generations that go on -/

namespace Generations

/-- Nothing ceases to be committed, and the active generation is no earlier one. -/
structure Advances (g g' : Generations) : Prop where
  committed_le : g.committed ≤ g'.committed
  active_le : g.active ≤ g'.active

variable {g g' g'' : Generations}

lemma Advances.refl (g : Generations) : g.Advances g := ⟨Nat.le_refl _, Nat.le_refl _⟩

lemma Advances.of_eq (h : g' = g) : g.Advances g' := h ▸ .refl g

lemma Advances.trans (h : g.Advances g') (h' : g'.Advances g'') : g.Advances g'' :=
  ⟨Nat.le_trans h.committed_le h'.committed_le, Nat.le_trans h.active_le h'.active_le⟩

/-- A round can be claimed, unless the numbers of generations are used up. -/
lemma exists_claim (h : g.active + 1 < wordLimit) (required : Nat) :
    ∃ x, g.claim required = .ok x := by
  unfold claim
  split_ifs
  · exact ⟨_, rfl⟩
  · exact ⟨_, rfl⟩
  · exact ⟨_, bind_eq_ok.2 ⟨_, checkedAdd_eq_ok.2 ⟨h, rfl⟩, rfl⟩⟩

lemma exists_advance (h : g.active + 1 < wordLimit) : ∃ x, g.advance = .ok x :=
  ⟨_, bind_eq_ok.2 ⟨_, checkedAdd_eq_ok.2 ⟨h, rfl⟩, rfl⟩⟩

end Generations

/-! ### Generations of regions -/

/-- A region that changes otherwise keeps the generation of its mark. -/
lemma CodeCache.ChangesAt.generation {c c' : CodeCache} {ref : Nat} (h : c.ChangesAt c' ref)
    (hs : ref < c.regions.size → (c'.state ref).generation = (c.state ref).generation) (r : Nat) :
    (c'.state r).generation = (c.state r).generation := by
  by_cases hr : r = ref
  · subst hr
    rcases Nat.lt_or_ge r c.regions.size with hlt | hge
    · exact hs hlt
    · rw [CodeCache.state_of_size_le hge, CodeCache.state_of_size_le (h.size ▸ hge)]
  · rw [h.state r hr]

namespace Program

variable {p p' : Program} {ref cutoff : Nat} {b : Bool}

lemma generation_invalidate (h : p.invalidate ref cutoff = .ok (b, p')) (r : Nat) :
    (p'.code.state r).generation = (p.code.state r).generation := by
  obtain ⟨hchange, hstate⟩ := invalidate_spec h
  exact hchange.generation (fun hr => by rw [hstate hr]) r

lemma generation_retire (h : p.retire cutoff ref = .ok p') (r : Nat) :
    (p'.code.state r).generation = (p.code.state r).generation := by
  obtain ⟨hchange, hstate⟩ := retire_spec h
  exact hchange.generation (fun hr => by rw [hstate hr]) r

end Program

namespace Batch

variable {b b' : Batch} {g : Generations} {c c' : CodeCache} {ref : Nat} {counts : Bool}

/-- Tagging a region makes nothing later than the active generation. -/
lemma tag_le (hb : b.required ≤ g.active) (hc : ∀ r, (c.state r).generation ≤ g.active)
    (h : b.tag g c ref counts = .ok (b', c')) :
    b'.required ≤ g.active ∧ ∀ r, (c'.state r).generation ≤ g.active := by
  unfold tag at h
  split_ifs at h
  · simp only [pure_eq_ok, Prod.mk.injEq] at h
    obtain ⟨rfl, rfl⟩ := h
    exact ⟨Nat.max_le.2 ⟨hb, hc ref⟩, hc⟩
  · simp only [bind_eq_ok, pure_eq_ok, Prod.mk.injEq] at h
    obtain ⟨_, -, rfl, rfl⟩ := h
    refine ⟨Nat.le_refl _, fun r => ?_⟩
    rcases c.state_modify ref r fun s => s.withMark counts g.active with heq | ⟨-, heq⟩
    · rw [heq]
      exact hc r
    · rw [heq]
      exact Nat.le_refl _

/-- While what is committed is below what is active, a region can be tagged. -/
lemma exists_tag (hg : g.committed < g.active) (b : Batch) (c : CodeCache) (ref : Nat)
    (counts : Bool) : ∃ x, b.tag g c ref counts = .ok x := by
  unfold tag
  split_ifs
  · exact ⟨_, rfl⟩
  · exact ⟨_, bind_eq_ok.2 ⟨(), guarantee_eq_ok.2 (decide_eq_true hg), rfl⟩⟩

lemma exists_mark (hg : g.committed < g.active) (b : Batch) (c : CodeCache) (ref : Nat)
    (counts : Bool) : ∃ x, b.mark g c ref counts = .ok x := by
  rw [mark_eq]
  split_ifs
  · exact exists_tag hg b c ref counts
  · exact ⟨_, rfl⟩

end Batch

/-! ### The invariant -/

/-- A party agrees with the generations: it waits for none that is still to come, and while it is in
a round, the round brings to an end what it waits for. -/
structure Party.Fits (q : Party) (g : Generations) : Prop where
  required_le : q.batch.required ≤ g.active
  inRound : ∀ n, q.stage.target? = some n →
    g.inFlight = true ∧ n < g.active ∧ q.batch.required ≤ n
  checking : q.stage = .checking → q.batch.required ≤ g.committed

/-- The generations are in order, and regions and parties agree with them. -/
structure World.Ordered (w : World) : Prop where
  committed_lt : w.generations.committed < w.generations.active
  generation_le : ∀ r, (w.code.state r).generation ≤ w.generations.active
  parties : ∀ q ∈ w.parties, q.Fits w.generations
  single : ∀ (i j : Nat) (p q : Party), w.parties[i]? = some p → w.parties[j]? = some q →
    p.stage.target?.isSome = true → q.stage.target?.isSome = true → i = j

namespace Party.Fits

variable {q : Party} {g g' : Generations}

/-- A party that does not move goes on agreeing with the generations. While it is in a round none
begins or ends. -/
lemma mono (h : q.Fits g) (ha : g.Advances g')
    (hround : q.stage.target?.isSome = true → g'.inFlight = g.inFlight) : q.Fits g' where
  required_le := Nat.le_trans h.required_le ha.active_le
  inRound n hn := by
    obtain ⟨hf, hlt, hle⟩ := h.inRound n hn
    exact ⟨(hround (by rw [hn]; rfl)).trans hf, Nat.lt_of_lt_of_le hlt ha.active_le, hle⟩
  checking hq := Nat.le_trans (h.checking hq) ha.committed_le

/-- A party goes to another stage, within its round or outside. -/
lemma withStage {s : Stage} (h : q.Fits g) (hs : ∀ n, s.target? = some n →
    q.stage.target? = some n) (hc : s ≠ .checking) : Party.Fits { q with stage := s } g where
  required_le := h.required_le
  inRound n hn := h.inRound n (hs n hn)
  checking hs' := absurd hs' hc

/-- A party that collects marks agrees with the generations if its batch does. -/
lemma building {q : Party} (hb : q.batch.required ≤ g.active) (hq : q.stage = .building) :
    q.Fits g where
  required_le := hb
  inRound n hn := by
    rw [hq] at hn
    cases hn
  checking hc := by
    rw [hq] at hc
    cases hc

end Party.Fits

namespace World

variable {w w' : World} {i cutoff : Nat} {q q' : Party}

/-- One party moves. While another is in a round none begins or ends. -/
lemma Ordered.move (hw : w.Ordered) (hi : w.parties[i]? = some q)
    (hp : w'.parties = w.parties.set i q') (ha : w.generations.Advances w'.generations)
    (hlt : w'.generations.committed < w'.generations.active)
    (hcode : ∀ r, (w'.code.state r).generation ≤ w'.generations.active)
    (hround : ∀ j p, j ≠ i → w.parties[j]? = some p → p.stage.target?.isSome = true →
      w'.generations.inFlight = w.generations.inFlight ∧ q'.stage.target? = none)
    (hq : q'.Fits w'.generations) : w'.Ordered where
  committed_lt := hlt
  generation_le := hcode
  parties p hmem := by
    obtain ⟨j, hj⟩ := List.mem_iff_getElem?.1 hmem
    rw [hp] at hj
    by_cases hij : i = j
    · subst hij
      rw [List.getElem?_set_self (List.getElem?_eq_some_iff.1 hi).1, Option.some.injEq] at hj
      rwa [← hj]
    · rw [List.getElem?_set_ne hij] at hj
      exact (hw.parties p (List.mem_of_getElem? hj)).mono ha fun hp' =>
        (hround j p (Ne.symm hij) hj hp').1
  single := by
    rw [hp]
    exact single_set hw.single hi fun j p hne hj hp' => (hround j p hne hj hp').2

/-- One party moves while the generations stand still, and is in a round only if it was. -/
lemma Ordered.move_still (hw : w.Ordered) (hi : w.parties[i]? = some q)
    (hp : w'.parties = w.parties.set i q') (hg : w'.generations = w.generations)
    (hcode : ∀ r, (w'.code.state r).generation ≤ w.generations.active)
    (hq : q'.Fits w.generations) (hs : ∀ n, q'.stage.target? = some n →
      q.stage.target? = some n) : w'.Ordered := by
  refine hw.move hi hp (.of_eq hg) (hg ▸ hw.committed_lt) (hg ▸ hcode) ?_ (hg ▸ hq)
  intro j p hne hj hp'
  refine ⟨by rw [hg], ?_⟩
  cases hn : q'.stage.target? with
  | none => rfl
  | some n => exact absurd (hw.single j i p q hj hi hp' (by rw [hs n hn]; rfl)) hne

/-- One party goes to another stage, within its round or outside. -/
lemma Ordered.withStage {s : Stage} (hw : w.Ordered) (hi : w.parties[i]? = some q)
    (hp : w'.parties = w.parties.set i { q with stage := s })
    (hg : w'.generations = w.generations)
    (hcode : ∀ r, (w'.code.state r).generation = (w.code.state r).generation)
    (hs : ∀ n, s.target? = some n → q.stage.target? = some n) (hc : s ≠ .checking) :
    w'.Ordered :=
  hw.move_still hi hp hg (fun r => hcode r ▸ hw.generation_le r)
    ((hw.parties q (List.mem_of_getElem? hi)).withStage hs hc) hs

/-- No party moves, and the generations stand still. -/
lemma Ordered.stay (hw : w.Ordered) (hp : w'.parties = w.parties)
    (hg : w'.generations = w.generations)
    (hcode : ∀ r, (w'.code.state r).generation ≤ w.generations.active) : w'.Ordered where
  committed_lt := hg ▸ hw.committed_lt
  generation_le := hg ▸ hcode
  parties := hp ▸ hg ▸ hw.parties
  single := hp ▸ hw.single

/-! ### Steps -/

lemma Ordered.begin (hw : w.Ordered) :
    ({ w with parties := w.parties ++ [{ batch := .start w.generations }] } : World).Ordered where
  committed_lt := hw.committed_lt
  generation_le := hw.generation_le
  parties q hq := by
    rcases List.mem_append.1 hq with hq | hq
    · exact hw.parties q hq
    · rw [List.mem_singleton.1 hq]
      exact .building (Nat.le_of_lt hw.committed_lt) rfl
  single := single_append hw.single rfl

/-- The round that begins is of the generation that was active, and its party waits for no later
one. -/
lemma Ordered.claim {target : Nat} {g : Generations} {todo : List Nat} (hw : w.Ordered)
    (hi : w.parties[i]? = some q)
    (hc : w.generations.claim q.batch.required = .ok (.claimed target, g)) :
    (World.put { w with generations := g } i
      { q with stage := .scanning target todo [] }).Ordered ∧ w.generations.Advances g := by
  obtain ⟨-, hfree, rfl, -, rfl⟩ := Generations.claim_eq_claimed.1 hc
  have hle := (hw.parties q (List.mem_of_getElem? hi)).required_le
  refine ⟨hw.move hi rfl ⟨Nat.le_refl _, Nat.le_succ _⟩ (Nat.lt_succ_of_lt hw.committed_lt)
    (fun r => Nat.le_succ_of_le (hw.generation_le r)) ?_ ?_, Nat.le_refl _, Nat.le_succ _⟩
  · intro j p _ hj hp
    obtain ⟨n, hn⟩ := Option.isSome_iff_exists.1 hp
    obtain ⟨hf, -⟩ := (hw.parties p (List.mem_of_getElem? hj)).inRound n hn
    rw [hfree] at hf
    cases hf
  · refine ⟨Nat.le_succ_of_le hle, ?_, by simp⟩
    rintro _ ⟨⟩
    exact ⟨rfl, Nat.lt_succ_self _, hle⟩

/-- The generation of a round that ends may be committed already, but it is not active. -/
lemma Ordered.finish {target : Nat} {g : Generations} (hw : w.Ordered)
    (hi : w.parties[i]? = some q) (hq : q.stage = .visiting target [])
    (hg : w.generations.finish target = .ok g) :
    (World.put { w with generations := g } i { q with stage := .checking }).Ordered ∧
      w.generations.Advances g := by
  obtain ⟨hlt, rfl⟩ := Generations.finish_eq_ok.1 hg
  have hfits := hw.parties q (List.mem_of_getElem? hi)
  obtain ⟨-, -, hle⟩ := hfits.inRound target (by rw [hq]; rfl)
  refine ⟨hw.move hi rfl ⟨Nat.le_max_left _ _, Nat.le_refl _⟩ hlt hw.generation_le ?_ ?_,
    Nat.le_max_left _ _, Nat.le_refl _⟩
  · intro j p hne hj hp
    exact absurd (hw.single j i p q hj hi hp (by rw [hq]; rfl)) hne
  · refine ⟨hfits.required_le, by simp [Stage.target?], fun _ => ?_⟩
    exact Nat.le_trans hle (Nat.le_max_right _ _)

lemma Ordered.partyStep (hw : w.Ordered) (h : PartyStep cutoff w w') :
    w'.Ordered ∧ w.generations.Advances w'.generations := by
  cases h with
  | begin => exact ⟨hw.begin, .refl _⟩
  | tag hi hq ht =>
    have hle := (hw.parties _ (List.mem_of_getElem? hi)).required_le
    obtain ⟨hrequired, hcode⟩ := Batch.tag_le hle hw.generation_le ht
    exact ⟨hw.move_still hi rfl rfl hcode (.building hrequired rfl) (by simp [Stage.target?]),
      .refl _⟩
  | @dependOn i q ref hi hq hr =>
    have hle := (hw.parties _ (List.mem_of_getElem? hi)).required_le
    exact ⟨hw.move_still hi rfl rfl hw.generation_le
      (.building (Nat.max_le.2 ⟨hle, hw.generation_le ref⟩) hq) (by simp [hq, Stage.target?]),
      .refl _⟩
  | claim hi hq hc hp => exact hw.claim hi hc
  | retire hi hq hp =>
    exact ⟨hw.withStage hi rfl rfl (Program.generation_retire hp) (by simp [hq, Stage.target?])
      (by simp), .refl _⟩
  | finish hi hq hg => exact hw.finish hi hq hg
  | look _ hi hq | commit hi hq | satisfied hi hq | scan hi hq | scanned hi hq
  | handshake hi hq | visit hi hq | check hi hq =>
    exact ⟨hw.withStage hi rfl rfl (fun _ => rfl) (by simp [hq, Stage.target?]) (by simp), .refl _⟩

lemma Ordered.threadStep (hw : w.Ordered) (h : ThreadStep cutoff w w') :
    w'.Ordered ∧ w.generations.Advances w'.generations := by
  cases h with
  | trap hr hp =>
    exact ⟨hw.stay rfl rfl fun r => Program.generation_invalidate hp r ▸ hw.generation_le r,
      .refl _⟩
  | install x =>
    refine ⟨hw.stay rfl rfl fun r => ?_, .refl _⟩
    by_cases hr : r = w.code.regions.size
    · rw [hr]
      exact (CodeCache.state_install_self w.code x) ▸ Nat.zero_le _
    · exact (CodeCache.state_install_of_ne w.code x hr) ▸ hw.generation_le r
  | _ => exact ⟨hw.stay rfl rfl hw.generation_le, .refl _⟩

lemma Ordered.step (hw : w.Ordered) (h : Step cutoff w w') :
    w'.Ordered ∧ w.generations.Advances w'.generations := by
  rcases h with h | h
  · exact hw.partyStep h
  · exact hw.threadStep h

/-- The active generation is committed at once. -/
lemma Ordered.advance {target : Nat} {g : Generations} (hw : w.Ordered)
    (hg : w.generations.advance = .ok (target, g)) :
    ({ w with generations := g } : World).Ordered ∧ w.generations.Advances g := by
  obtain ⟨-, rfl⟩ := Generations.advance_spec hg
  have ha : w.generations.Advances
      { w.generations with committed := w.generations.active
                           active := w.generations.active + 1 } :=
    ⟨Nat.le_of_lt hw.committed_lt, Nat.le_succ _⟩
  exact ⟨⟨Nat.lt_succ_self _, fun r => Nat.le_succ_of_le (hw.generation_le r),
    fun q hq => (hw.parties q hq).mono ha fun _ => rfl, hw.single⟩, ha⟩

end World

namespace CommitWorld

variable {s s' : CommitWorld} {cutoff : Nat}

theorem ordered_step (hs : s.toWorld.Ordered) (h : Step cutoff s s') :
    s'.toWorld.Ordered ∧ s.generations.Advances s'.generations := by
  cases h with
  | world h _ => exact hs.step h
  | startUp | hold _ | release | enter _ _ _ _ | queue _ _ | stop _ _ | visit _ _ _ _ =>
    exact ⟨hs.stay rfl rfl hs.generation_le, .refl _⟩
  | dismiss hi hq _ _ =>
    exact ⟨hs.withStage hi rfl rfl (fun _ => rfl) (by simp [Stage.target?]) (by simp), .refl _⟩
  | publish _ hg => exact hs.advance hg
  | retire _ _ _ hp =>
    exact ⟨hs.stay rfl rfl fun r => Program.generation_retire hp r ▸ hs.generation_le r, .refl _⟩
  | done hi hq _ =>
    exact ⟨hs.withStage hi rfl rfl (fun _ => rfl) (by simp [Stage.target?]) (by simp), .refl _⟩

lemma Reachable.ordered (hs : Reachable cutoff s) : s.toWorld.Ordered := by
  obtain ⟨methods, hs⟩ := hs
  induction hs with
  | refl =>
    refine ⟨Nat.zero_lt_one, fun r => ?_, by simp [start], by simp [start]⟩
    rw [CodeCache.state_of_size_le (Nat.zero_le r)]
    exact Nat.zero_le _
  | tail _ h ih => exact (ordered_step ih h).1

lemma advances_of_steps (hs : s.toWorld.Ordered) (h : Relation.ReflTransGen (Step cutoff) s s') :
    s.generations.Advances s'.generations := by
  suffices s'.toWorld.Ordered ∧ s.generations.Advances s'.generations from this.2
  induction h with
  | refl => exact ⟨hs, .refl _⟩
  | tail _ h ih =>
    obtain ⟨hordered, ha⟩ := ordered_step ih.1 h
    exact ⟨hordered, ih.2.trans ha⟩

/-- Whatever the interleaving: what is committed is below what is active, and neither goes back; one
round at most is under way, and its generation is not active any more; no region is marked, and no
party waits, for a generation later than the active one. So a region can always be marked, a round
ends without fault, and finds committed what its party waits for. Rounds begin and generations are
published unless their numbers are used up. -/
theorem ordered_of_reachable (hs : Reachable cutoff s) :
    s.toWorld.Ordered ∧
    (∀ s', Relation.ReflTransGen (Step cutoff) s s' → s.generations.Advances s'.generations) ∧
    (∀ q ∈ s.parties,
      (∀ ref counts, (∃ x, q.batch.mark s.generations s.code ref counts = .ok x) ∧
        ∃ x, q.batch.tag s.generations s.code ref counts = .ok x) ∧
      (∀ target todo, q.stage = .visiting target todo →
        ∃ g, s.generations.finish target = .ok g) ∧
      (q.stage = .checking → guarantee (q.batch.required ≤ s.generations.committed)
        (.generationBelow s.generations.committed q.batch.required) = .ok ())) ∧
    (s.generations.active + 1 < wordLimit →
      (∀ required, ∃ x, s.generations.claim required = .ok x) ∧
        ∃ x, s.generations.advance = .ok x) := by
  have hw := hs.ordered
  refine ⟨hw, fun s' => advances_of_steps hw, fun q hq => ⟨fun ref counts => ?_, ?_, ?_⟩,
    fun hlt => ⟨Generations.exists_claim hlt, Generations.exists_advance hlt⟩⟩
  · exact ⟨Batch.exists_mark hw.committed_lt q.batch s.code ref counts,
      Batch.exists_tag hw.committed_lt q.batch s.code ref counts⟩
  · intro target todo hstage
    obtain ⟨-, hlt, -⟩ := (hw.parties q hq).inRound target (by rw [hstage]; rfl)
    exact ⟨_, Generations.finish_eq_ok.2 ⟨Nat.max_lt.2 ⟨hw.committed_lt, hlt⟩, rfl⟩⟩
  · intro hstage
    exact guarantee_eq_ok.2 (decide_eq_true ((hw.parties q hq).checking hstage))

lemma Reachable.step (hs : Reachable cutoff s) (h : Step cutoff s s') : Reachable cutoff s' := by
  obtain ⟨methods, hs⟩ := hs
  exact ⟨methods, hs.tail h⟩

lemma Reachable.party {w : World} (hs : Reachable cutoff s)
    (h : World.PartyStep cutoff s.toWorld w)
    (haside : ∀ i < s.parties.length, s.aside i = true → w.parties[i]? = s.parties[i]?) :
    Reachable cutoff { s with toWorld := w } :=
  hs.step (.world (.inl h) haside)

/-- A commit comes before the runtime has started and is dismissed. Later a round is claimed for the
mark that it left, and a commit at a safepoint overtakes the round. When the round ends, its
generation is committed already. -/
theorem ordered_of_reachable_overtaken : ∃ s q, Reachable 4 s ∧ q ∈ s.parties ∧
    q.stage = .visiting 1 [] ∧ q.batch.required = 1 ∧ (s.code.state 0).generation = 1 ∧
    s.generations = { committed := 2, active := 3, inFlight := true } ∧
    s.toWorld.Ordered ∧ (∃ x, q.batch.mark s.generations s.code 1 true = .ok x) ∧
    ∃ g, s.generations.finish 1 = .ok g := by
  have h : Reachable 4 (start #[]) := ⟨#[], .refl⟩
  have h := h.step (.world (.inr (.install
    { ref := 0, compileId := 1, method := default, start := 0x1000, size := 64,
      handlerOffset := 48 })) fun _ _ _ => rfl)
  have h := h.step (.world (.inr (.install
    { ref := 1, compileId := 2, method := default, start := 0x1100, size := 64,
      handlerOffset := 48 })) fun _ _ _ => rfl)
  have h := h.party .begin (by decide)
  have h := h.party (@World.PartyStep.look _ _ 0 _ 0 true rfl rfl (by decide) rfl) (by decide)
  have h := h.party (@World.PartyStep.tag _ _ 0 _ _ _ _ _ rfl rfl rfl) (by decide)
  have h := h.party (@World.PartyStep.commit _ _ 0 _ rfl rfl) (by decide)
  have h := h.step (@Step.dismiss _ _ 0 _ rfl rfl rfl rfl)
  have h := h.step .startUp
  have h := h.party .begin (by decide)
  have h := h.party (@World.PartyStep.look _ _ 1 _ 0 true rfl rfl (by decide) rfl) (by decide)
  have h := h.party (@World.PartyStep.tag _ _ 1 _ _ _ _ _ rfl rfl rfl) (by decide)
  have h := h.party (@World.PartyStep.commit _ _ 1 _ rfl rfl) (by decide)
  have h := h.step (@Step.enter _ _ 1 _ rfl rfl rfl rfl)
  have h := h.step (@Step.queue _ _ 1 rfl rfl)
  have h := h.party (@World.PartyStep.claim _ _ 1 _ _ _ _ rfl rfl rfl (.refl _)) (by decide)
  have h := h.party .begin (by decide)
  have h := h.party (@World.PartyStep.commit _ _ 2 _ rfl rfl) (by decide)
  have h := h.step (.hold rfl)
  have h := h.step (@Step.enter _ _ 2 _ rfl rfl rfl rfl)
  have h := h.step (@Step.stop _ _ 2 rfl rfl)
  have h := h.step (@Step.publish _ _ 2 _ _ rfl rfl)
  have h := h.party (@World.PartyStep.scan _ _ 1 _ _ _ _ _ rfl rfl) (by decide)
  have h := h.party (@World.PartyStep.scan _ _ 1 _ _ _ _ _ rfl rfl) (by decide)
  have h := h.party (@World.PartyStep.scanned _ _ 1 _ _ _ rfl rfl) (by decide)
  have h := h.party (@World.PartyStep.retire _ _ 1 _ _ _ _ _ _ rfl rfl rfl) (by decide)
  have h := h.step .release
  have h := h.party (@World.PartyStep.handshake _ _ 1 _ _ _ rfl rfl) (by decide)
  obtain ⟨hordered, -, hparties, -⟩ := ordered_of_reachable h
  obtain ⟨hmark, hfinish, -⟩ := hparties _ (List.mem_of_getElem? (i := 1) rfl)
  exact ⟨_, _, h, List.mem_of_getElem? (i := 1) rfl, rfl, rfl, rfl, rfl, hordered,
    (hmark 1 true).1, hfinish 1 [] rfl⟩

end CommitWorld
end Bailout
