import Bailout.Proofs.Round.Handshake

/-!
# Commits as runs of steps

`Rounds.commit` is what a commit does when nothing comes between its steps. It is one of the
interleavings: a run of the steps of one party leads from the world before to the world after, and
all that holds of every interleaving holds of it.
-/

namespace Bailout
namespace World

variable {w : World} {i cutoff target : Nat} {q p : Party}

lemma put_put (w : World) (i : Nat) (p q : Party) : (w.put i p).put i q = w.put i q := by
  simp [put]

lemma getElem?_parties_put (hi : w.parties[i]? = some q) (p : Party) :
    (w.put i p).parties[i]? = some p :=
  List.getElem?_set_self (List.getElem?_eq_some_iff.1 hi).1

/-- The party takes one step after another. -/
abbrev Steps (cutoff : Nat) : World → World → Prop := Relation.ReflTransGen (Step cutoff)

/-- The regions that are due are found one by one. -/
lemma steps_scan (hi : w.parties[i]? = some p) (todo found : List Nat) :
    Steps cutoff (w.put i { q with stage := .scanning target todo found })
      (w.put i { q with
        stage := .scanning target [] (found ++ todo.filter (w.code.isMarkedUpTo target)) }) := by
  induction todo generalizing found with
  | nil => rw [List.filter_nil, List.append_nil]
  | cons r todo ih =>
    have h : PartyStep cutoff _ _ := .scan (getElem?_parties_put hi
      { q with stage := .scanning target (r :: todo) found }) rfl
    rw [put_put] at h
    refine .head (.inl h) ?_
    have hcode : (w.put i { q with stage := .scanning target (r :: todo) found }).code = w.code :=
      rfl
    rw [hcode]
    split_ifs with hm
    · have := ih (found ++ [r])
      rw [List.append_assoc, List.singleton_append] at this
      rwa [List.filter_cons_of_pos hm]
    · rw [List.filter_cons_of_neg hm]
      exact ih found

/-- The regions that were found are retired one by one. -/
lemma steps_retire {total : Nat} {todo : List Nat} {program program' : Program}
    (hi : w.parties[i]? = some p)
    (h : todo.foldlM (fun p ref => p.retire cutoff ref) program = .ok program') :
    Steps cutoff (put { w with program } i { q with stage := .retiring target todo total })
      (put { w with program := program' } i { q with stage := .retiring target [] total }) := by
  induction todo generalizing program with
  | nil =>
    rw [List.foldlM_nil, pure_eq_ok] at h
    rw [h]
  | cons r todo ih =>
    rw [List.foldlM_cons, bind_eq_ok] at h
    obtain ⟨program₁, hr, h⟩ := h
    have hs : PartyStep cutoff _ _ := .retire (w := put { w with program } i
      { q with stage := .retiring target (r :: todo) total })
      (getElem?_parties_put (w := { w with program }) hi _) rfl hr
    exact .head (.inl hs) (by simpa only [put, List.set_set] using ih h)

/-- The threads are visited one by one. -/
lemma steps_visit {todo : List Nat} {histogram histogram' : Histogram} {roster roster' : Roster}
    (hi : w.parties[i]? = some p)
    (h : todo.foldlM (Roster.visit (Rounds.visit w.code)) (histogram, roster) =
      .ok (histogram', roster')) :
    Steps cutoff
      (put { w with histogram, roster } i { q with stage := .visiting target todo })
      (put { w with histogram := histogram', roster := roster' } i
        { q with stage := .visiting target [] }) := by
  induction todo generalizing histogram roster with
  | nil =>
    simp only [List.foldlM_nil, pure_eq_ok, Prod.mk.injEq] at h
    rw [h.1, h.2]
  | cons t todo ih =>
    rw [List.foldlM_cons, bind_eq_ok] at h
    obtain ⟨⟨histogram₁, roster₁⟩, ht, h⟩ := h
    have hs : PartyStep cutoff _ _ := .visit (w := put { w with histogram, roster } i
      { q with stage := .visiting target (t :: todo) })
      (getElem?_parties_put (w := { w with histogram, roster }) hi _) rfl ht
    exact .head (.inl hs) (by simpa only [put, List.set_set] using ih h)

/-- No safepoint is held, and so all threads are visited by a handshake. -/
lemma visitThreads_of_not_atSafepoint {σ : Type} {f : σ → Thread → Checked (σ × Thread)} {a : σ}
    {r : Roster} (h : r.atSafepoint = false) :
    r.visitThreads f a = Roster.visitAll f a { r with handshakes := r.handshakes + 1 } := by
  rw [Roster.visitThreads, if_neg (by simp [h]), Roster.handshake, h]
  rfl

/-- While a round is claimed, the work of the round is a run of steps. -/
lemma steps_deoptimizeMarked {r : Rounds} (hi : w.parties[i]? = some p)
    (hsafe : w.roster.atSafepoint = false)
    (h : w.toRounds.deoptimizeMarked cutoff target = .ok r) :
    Steps cutoff
      (w.put i { q with stage := .scanning target w.code.installed.values [] })
      (put { w with toRounds := r } i { q with stage := .visiting target [] }) := by
  simp only [Rounds.deoptimizeMarked, Program.retireMarked,
    visitThreads_of_not_atSafepoint hsafe, Roster.visitAll, bind_eq_ok, pure_eq_ok] at h
  obtain ⟨_, ⟨program, hretire, rfl⟩, ⟨histogram, roster⟩, hvisit, rfl⟩ := h
  set marked := w.code.markedRegions target
  have hscan : Steps cutoff
      (w.put i { q with stage := .scanning target w.code.installed.values [] })
      (w.put i { q with stage := .scanning target [] marked }) :=
    steps_scan hi w.code.installed.values []
  have hscanned : PartyStep cutoff _ _ := .scanned
    (getElem?_parties_put hi { q with stage := .scanning target [] marked }) rfl
  rw [put_put] at hscanned
  have hretire : Steps cutoff (w.put i { q with stage := .retiring target marked marked.length })
      (put { w with program } i { q with stage := .retiring target [] marked.length }) :=
    steps_retire hi hretire
  have hhandshake : PartyStep cutoff _ _ := .handshake
    (getElem?_parties_put (w := { w with program }) hi
      { q with stage := .retiring target [] marked.length }) rfl
  have hvisit : Steps cutoff (put _ i { q with stage := .visiting target _ }) _ :=
    steps_visit (w := { w with
    program := { program with code := { program.code with
      deoptimizations := program.code.deoptimizations + marked.length } }
    count := w.count + 1 }) hi hvisit
  simp only [put, List.set_set] at hhandshake
  exact (hscan.tail (.inl hscanned)).trans (hretire.trans (.head (.inl hhandshake) hvisit))

/-- A commit that nothing comes between is a run of the steps of one party. -/
theorem steps_of_commit {r : Rounds} (hi : w.parties[i]? = some q) (hq : q.stage = .waiting)
    (hup : w.roster.initialized = true) (hsafe : w.roster.atSafepoint = false)
    (h : w.toRounds.commit cutoff q.batch = .ok r) :
    Steps cutoff w (put { w with toRounds := r } i { q with stage := .returned }) := by
  rw [Rounds.commit, if_neg (by simp [hup]), if_neg (by simp [hsafe]), bind_eq_ok] at h
  obtain ⟨⟨c, g⟩, hc, h⟩ := h
  cases c with
  | satisfied =>
    cases h
    exact .single (.inl (.satisfied hi hq hc))
  | busy => cases h
  | claimed target =>
    simp only [bind_eq_ok, guarantee_eq_ok, decide_eq_true_eq, pure_eq_ok] at h
    obtain ⟨r₁, hr, g₁, hg, _, hle, rfl⟩ := h
    have hclaim : PartyStep cutoff _ _ := .claim hi hq hc (.refl _)
    have hround := steps_deoptimizeMarked (w := { w with generations := g }) (q := q) hi hsafe hr
    have hfinish : PartyStep cutoff _ _ := .finish
      (getElem?_parties_put (w := { w with toRounds := r₁ }) hi
        { q with stage := .visiting target [] }) rfl hg
    have hcheck : PartyStep cutoff _ _ := .check
      (getElem?_parties_put (w := { w with toRounds := { r₁ with generations := g₁ } }) hi
        { q with stage := .checking }) rfl hle
    rw [put_put] at hcheck
    simp only [put, List.set_set] at hfinish
    exact .head (.inl hclaim) (hround.trans (.head (.inl hfinish) (.single (.inl hcheck))))

/-- After a commit that nothing comes between, every region that was tagged for it and is still in
the cache is shut, and no registered thread has a frame that goes on in it. -/
theorem Reachable.clear_of_commit {r : Rounds} {ref : Nat} (hw : Reachable cutoff w)
    (hi : w.parties[i]? = some q) (hq : q.stage = .waiting)
    (hup : w.roster.initialized = true) (hsafe : w.roster.atSafepoint = false)
    (h : w.toRounds.commit cutoff q.batch = .ok r) (hr : ref ∈ q.asked)
    (hin : ref ∈ r.program.code.installed.values) :
    World.Shut { w with toRounds := r } ref ∧ World.Clear { w with toRounds := r } ref := by
  obtain ⟨methods, hw⟩ := hw
  have hw' : Reachable cutoff (put { w with toRounds := r } i { q with stage := .returned }) :=
    ⟨methods, hw.trans (steps_of_commit hi hq hup hsafe h)⟩
  have hmem := List.mem_of_getElem? (getElem?_parties_put (w := { w with toRounds := r }) hi
    { q with stage := .returned })
  exact hw'.inv.clear_of_committed hmem (hw'.answered _ hmem rfl) hr hin

end World
end Bailout
