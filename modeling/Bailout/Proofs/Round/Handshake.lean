import Bailout.Proofs.Round.Steps

/-!
# Handshakes bring code to an end

When a commit returns, the code that was asked for is gone: nobody can enter it, and no registered
thread goes on in it. It does not matter whether the commit ran a round or rode one that somebody
else ran, in which order the steps of all parties and threads were taken, and whether a mark was
made before or after a round was claimed.
-/

namespace Bailout
namespace World

variable {w w' : World} {q : Party} {r cutoff : Nat} {methods : Array MethodState}

lemma inv_start (methods : Array MethodState) : (start methods).Inv where
  code := by
    refine ⟨Nat.zero_lt_one, by simp [start, Table.values], fun r hr => absurd hr (by simp [start]),
      fun r => ?_, by simp [start, Table.values]⟩
    rw [CodeCache.state_of_size_le (Nat.zero_le r)]
    exact Nat.zero_le _
  frames t := Thread.inOrder_of_stack_eq_nil rfl _
  parties q hq := by cases hq
  single i j p q hi := by simp [start] at hi

theorem Inv.step (hw : w.Inv) (h : Step cutoff w w') : w'.Inv := by
  rcases h with h | h
  · exact hw.partyStep h
  · exact hw.threadStep h

/-- The invariant holds after any interleaving of steps. -/
theorem Reachable.inv (hw : Reachable cutoff w) : w.Inv := by
  obtain ⟨methods, hw⟩ := hw
  induction hw with
  | refl => exact inv_start methods
  | tail _ h ih => exact ih.step h

/-- The generation that a party waits for is committed by the time its commit has returned. -/
def Answered (w : World) : Prop :=
  ∀ q ∈ w.parties, q.stage = .returned → q.batch.required ≤ w.generations.committed

/-- One party moves, and no generation ceases to be committed. -/
lemma Answered.set (h : w.Answered) {i : Nat} (hp : w'.parties = w.parties.set i q)
    (hc : w.generations.committed ≤ w'.generations.committed)
    (hq : q.stage = .returned → q.batch.required ≤ w'.generations.committed) : w'.Answered := by
  intro p hmem hret
  rw [hp] at hmem
  rcases List.mem_or_eq_of_mem_set hmem with hmem | rfl
  · exact Nat.le_trans (h p hmem hret) hc
  · exact hq hret

lemma Answered.partyStep (h : w.Answered) (hs : PartyStep cutoff w w') : w'.Answered := by
  cases hs with
  | begin =>
    intro p hp hret
    rcases List.mem_append.1 hp with hp | hp
    · exact h p hp hret
    · obtain rfl := List.mem_singleton.1 hp
      cases hret
  | dependOn hi hq => exact h.set rfl (Nat.le_refl _) (by simp [hq])
  | satisfied hi hq hc =>
    refine h.set rfl (Nat.le_refl _) fun _ => ?_
    rcases Generations.claim_spec hc with ⟨-, hle, -⟩ | ⟨hn, -⟩ | ⟨hn, -⟩
    · exact hle
    · cases hn
    · cases hn
  | claim hi hq hc =>
    refine h.set rfl ?_ (by simp)
    rcases Generations.claim_spec hc with ⟨-, -, rfl⟩ | ⟨-, -, -, rfl⟩ | ⟨-, -, -, rfl⟩ <;>
      exact Nat.le_refl _
  | finish hi hq hg =>
    refine h.set rfl ?_ (by simp)
    obtain ⟨-, rfl⟩ := Generations.finish_eq_ok.1 hg
    exact Nat.le_max_left _ _
  | check hi hq hc => exact h.set rfl (Nat.le_refl _) fun _ => hc
  | _ => exact h.set rfl (Nat.le_refl _) (by simp)

lemma Answered.step (h : w.Answered) (hs : Step cutoff w w') : w'.Answered := by
  rcases hs with hs | hs
  · exact h.partyStep hs
  · cases hs <;> exact h

theorem Reachable.answered (hw : Reachable cutoff w) : w.Answered := by
  obtain ⟨methods, hw⟩ := hw
  induction hw with
  | refl => simp [Answered, start]
  | tail _ h ih => exact ih.step h

/-- What a party asked for is shut and clear once its generation is committed. A mark that were
still pending would be of a generation that is not. -/
lemma Inv.clear_of_committed (hw : w.Inv) (hq : q ∈ w.parties)
    (hle : q.batch.required ≤ w.generations.committed) (hr : r ∈ q.asked)
    (hin : r ∈ w.code.installed.values) : w.Shut r ∧ w.Clear r := by
  rcases (hw.parties q hq).awaited r hr hin with ⟨n, hn, hp⟩ | ⟨hs, hclear | ⟨hlt, -⟩⟩
  · have := hw.code.pending_gt r hin n hp
    omega
  · exact ⟨hs, hclear⟩
  · omega

/-- When a commit has returned, every region that was tagged for it, or found pending, and that is
still in the cache cannot be entered. Every frame of it on a registered thread is patched: it
returns to the handler, and what it holds is the address where it was pushed. -/
theorem patched_of_returned (hw : Reachable cutoff w) (hq : q ∈ w.parties)
    (hret : q.stage = .returned) (hr : r ∈ q.asked) (hin : r ∈ w.code.installed.values) :
    (w.code.state r).inUse = false ∧
      ∀ t ∈ w.roster.registered, ∀ f ∈ (w.roster.thread t).stack, ∀ c,
        f.kind = .compiled c → c.region.ref = r →
          c.region.handler = .ok f.pc ∧ c.heldPc = some (w.origin t f.id) := by
  obtain ⟨hshut, hclear⟩ := hw.inv.clear_of_committed hq (hw.answered q hq hret) hr hin
  refine ⟨hshut.1, fun t ht f hf c hc href => ?_⟩
  obtain ⟨pc, hpc⟩ : ∃ pc, c.heldPc = some pc := by
    cases hh : c.heldPc with
    | none => exact absurd ⟨f, hf, c, hc, href, hh⟩ (hclear t ht)
    | some pc => exact ⟨pc, rfl⟩
  have hframes := hw.inv.frames t
  refine ⟨hframes.handlerSet f hf c hc (by rw [hpc]; rfl), ?_⟩
  have hstands := hframes.stands f hf
  simp only [Frame.logicalPc, hc, hpc, Option.getD_some] at hstands
  rw [hpc, hstands]

/-! ### A commit that rides the round of another -/

lemma Reachable.party (hw : Reachable cutoff w) (h : PartyStep cutoff w w') :
    Reachable cutoff w' := by
  obtain ⟨methods, hw⟩ := hw
  exact ⟨methods, hw.tail (.inl h)⟩

lemma Reachable.thread (hw : Reachable cutoff w) (h : ThreadStep cutoff w w') :
    Reachable cutoff w' := by
  obtain ⟨methods, hw⟩ := hw
  exact ⟨methods, hw.tail (.inr h)⟩

/-- One thread runs in a region. Two parties ask for the region: the second finds the mark of the
first, after the first has claimed its round already, and is answered by this round. -/
theorem patched_of_returned_rider : ∃ w q, Reachable 4 w ∧ q ∈ w.parties ∧ q.stage = .returned ∧
    0 ∈ q.asked ∧ 0 ∈ w.code.installed.values ∧ 0 ∈ w.roster.registered ∧
    (w.roster.thread 0).stack.length = 1 ∧ (w.code.state 0).inUse = false ∧
      ∀ t ∈ w.roster.registered, ∀ f ∈ (w.roster.thread t).stack, ∀ c,
        f.kind = .compiled c → c.region.ref = 0 →
          c.region.handler = .ok f.pc ∧ c.heldPc = some (w.origin t f.id) := by
  have h : Reachable 4 (start #[]) := ⟨#[], .refl⟩
  have h := h.thread (.install
    { ref := 0, compileId := 1, method := default, start := 0x1000, size := 64,
      handlerOffset := 48 })
  have h := h.thread (.register 1 "main")
  have h := h.thread (@ThreadStep.call _ _ 0 0 4 0x1008 {} _ (by decide) (by decide) rfl rfl)
  have h := h.party .begin
  have h := h.party .begin
  have h := h.party (@PartyStep.look _ _ 0 _ 0 true rfl rfl (by decide) rfl)
  have h := h.party (@PartyStep.tag _ _ 0 _ _ _ _ _ rfl rfl rfl)
  have h := h.party (@PartyStep.look _ _ 1 _ 0 true rfl rfl (by decide) rfl)
  have h := h.party (@PartyStep.commit _ _ 0 _ rfl rfl)
  have h := h.party (@PartyStep.claim _ _ 0 _ _ _ _ rfl rfl rfl (.refl _))
  have h := h.party (@PartyStep.tag _ _ 1 _ _ _ _ _ rfl rfl rfl)
  have h := h.party (@PartyStep.commit _ _ 1 _ rfl rfl)
  have h := h.party (@PartyStep.scan _ _ 0 _ _ _ _ _ rfl rfl)
  have h := h.party (@PartyStep.scanned _ _ 0 _ _ _ rfl rfl)
  have h := h.party (@PartyStep.retire _ _ 0 _ _ _ _ _ _ rfl rfl rfl)
  have h := h.party (@PartyStep.handshake _ _ 0 _ _ _ rfl rfl)
  have h := h.party (@PartyStep.visit _ _ 0 _ _ _ _ _ _ rfl rfl rfl)
  have h := h.party (@PartyStep.finish _ _ 0 _ _ _ rfl rfl rfl)
  have h := h.party (@PartyStep.check _ _ 0 _ rfl rfl (by decide))
  have h := h.party (@PartyStep.satisfied _ _ 1 _ _ rfl rfl rfl)
  exact ⟨_, _, h, List.mem_of_getElem? (i := 1) rfl, rfl, List.mem_cons_self, List.mem_cons_self,
    List.mem_cons_self, rfl, patched_of_returned h (List.mem_of_getElem? (i := 1) rfl) rfl
      List.mem_cons_self List.mem_cons_self⟩

end World
end Bailout
