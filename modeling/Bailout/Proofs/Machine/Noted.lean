import Mathlib.Logic.Relation
import Bailout.Proofs.Unwind.Noted

/-!
# Frames that an inspector had restored

When everything is restored for an inspector, the frame is patched and remembered. Whatever else
happens to threads and their frames, a frame that is remembered is patched. So an inspector that is
told that a frame was restored, now or before, can rely on that.
-/

namespace Bailout

namespace Rounds

variable {r r' : Rounds} {cutoff target : Nat} {b : Batch}

section

/-! What a visit does to a thread, a round does to every thread, one visit after the other. -/

variable {R : Thread → Thread → Prop} (hrefl : ∀ t, R t t)
  (htrans : ∀ {t u v}, R t u → R u v → R t v)
  (hvisit : ∀ {c h h' t u}, Rounds.visit c h t = .ok (h', u) → R t u)

include hrefl htrans hvisit

lemma related_of_visitAll {c : CodeCache} {h h' : Histogram} {roster roster' : Roster}
    (hv : Roster.visitAll (Rounds.visit c) h roster = .ok (h', roster')) (s : Nat) :
    R (roster.thread s) (roster'.thread s) := by
  refine foldlM_induction
    (fun _ (x : Histogram × Roster) => R (roster.thread s) (x.2.thread s)) (hrefl _) ?_ hv
  rintro _ t ⟨h₁, roster₁⟩ x hpre ht
  simp only [Roster.visit, bind_eq_ok, pure_eq_ok] at ht
  obtain ⟨⟨h₂, u⟩, hu, rfl⟩ := ht
  refine htrans hpre ?_
  show R _ ((roster₁.set t u).thread s)
  rw [Roster.thread_set]
  split_ifs with hs
  · exact hs.1 ▸ hvisit hu
  · exact hrefl _

lemma related_of_deoptimizeMarked (h : r.deoptimizeMarked cutoff target = .ok r') (s : Nat) :
    R (r.roster.thread s) (r'.roster.thread s) := by
  simp only [deoptimizeMarked, bind_eq_ok, pure_eq_ok] at h
  obtain ⟨⟨_, program⟩, -, ⟨histogram, roster⟩, hv, rfl⟩ := h
  obtain ⟨roster₀, -, hthread, hv⟩ := Roster.visitAll_of_visitThreads hv
  rw [← hthread]
  exact related_of_visitAll hrefl htrans hvisit hv s

lemma related_of_commit (h : r.commit cutoff b = .ok r') (s : Nat) :
    R (r.roster.thread s) (r'.roster.thread s) := by
  unfold commit at h
  split_ifs at h
  · cases h
    exact hrefl _
  · obtain ⟨⟨target, generations⟩, -, h⟩ := bind_eq_ok.1 h
    exact related_of_deoptimizeMarked hrefl htrans hvisit h s
  · obtain ⟨⟨claim, generations⟩, -, h⟩ := bind_eq_ok.1 h
    cases claim with
    | satisfied =>
      cases h
      exact hrefl _
    | busy => cases h
    | claimed target =>
      simp only [bind_eq_ok, pure_eq_ok] at h
      obtain ⟨r₁, hr₁, _, -, _, -, rfl⟩ := h
      exact related_of_deoptimizeMarked hrefl htrans hvisit hr₁ s

end

lemma evolves_deoptimizeMarked (h : r.deoptimizeMarked cutoff target = .ok r') (s : Nat) :
    (r.roster.thread s).Evolves (r'.roster.thread s) :=
  related_of_deoptimizeMarked .refl .trans Thread.evolves_visit h s

lemma evolves_commit (h : r.commit cutoff b = .ok r') (s : Nat) :
    (r.roster.thread s).Evolves (r'.roster.thread s) :=
  related_of_commit .refl .trans Thread.evolves_visit h s

end Rounds

namespace Machine

variable {start m m' : Machine} {t id : Nat} {o : Restore.Outcome} {u : Thread} {f : Frame}
  {c : CompiledFrame}

/-! ### What happens to threads -/

/-- Something happens that may concern frames: they are pushed, popped, patched on request or by a
round, inspected, planned for and unpacked, in whatever order and by whatever unpacker. -/
inductive Moves (m : Machine) : Machine → Prop where
  | push {t words pc : Nat} {kind : FrameKind} {u : Thread}
      (h : (m.thread t).push words pc kind = .ok u)
      (hk : ∀ c, kind = .compiled c → c.heldPc = none) : Moves m (m.setThread t u)
  | pop (t : Nat) : Moves m (m.setThread t (m.thread t).pop.2)
  | inspect {t id : Nat} {i : Inspection} {m' : Machine}
      (h : m.deoptimizeObjects t id = .ok (i, m')) : Moves m m'
  | deoptimizeFrame {t id : Nat} {r : Reason} {b : Bool} {m' : Machine}
      (h : m.deoptimizeFrame t id r = .ok (b, m')) : Moves m m'
  | patchFrame {t id : Nat} {b : Option Bool} {m' : Machine}
      (h : m.patchFrame t id = .ok (b, m')) : Moves m m'
  | plan {t : Nat} {mode : Mode} {l : Layout} {m' : Machine}
      (h : m.fetch t mode = .ok (l, m')) : Moves m m'
  | unpack {t : Nat} {mode : Mode} {ty : BasicType} {m' : Machine}
      (h : m.unpack t mode = .ok (ty, m')) : Moves m m'
  | commit {b : Batch} {m' : Machine} (h : m.commit b = .ok m') : Moves m m'
  | deoptimizeMarked {generation : Nat} {m' : Machine}
      (h : m.deoptimizeMarked generation = .ok m') : Moves m m'
  | register (id : Nat) (name : String) : Moves m { m with roster := m.roster.register id name }
  /-- Something happens that concerns neither frames nor what is noted for them. -/
  | elsewhere {m' : Machine} (hstack : ∀ s, (m'.thread s).stack = (m.thread s).stack)
      (hlast : ∀ s, (m'.thread s).lastFrameId = (m.thread s).lastFrameId)
      (hrestored : ∀ s, (m'.thread s).restored = (m.thread s).restored) : Moves m m'

lemma related_setThread {R : Thread → Thread → Prop} (hrefl : ∀ t, R t t)
    (hu : R (m.thread t) u) (s : Nat) : R (m.thread s) ((m.setThread t u).thread s) := by
  show R _ ((m.roster.set t u).thread s)
  rw [Roster.thread_set]
  split_ifs with hs
  · exact hs.1 ▸ hu
  · exact hrefl _

lemma setThread_thread (m : Machine) (t : Nat) : m.setThread t (m.thread t) = m := by
  have hthreads : m.roster.threads.setIfInBounds t (m.thread t) = m.roster.threads := by
    refine Array.ext (by simp) fun i hi hi' => ?_
    rw [Array.getElem_setIfInBounds hi']
    split_ifs with hti
    · subst hti
      simp [thread, Roster.thread, hi']
    · rfl
  rw [setThread, Roster.set, hthreads]

lemma evolves_setThread (hu : (m.thread t).Evolves u) (s : Nat) :
    (m.thread s).Evolves ((m.setThread t u).thread s) :=
  related_setThread .refl hu s

/-- On request a frame is patched in its place, if there is such a frame. -/
lemma deoptimizeFrame_cases {r : Reason} {b : Bool} (h : m.deoptimizeFrame t id r = .ok (b, m')) :
    m' = m ∨ ∃ f g histogram b', (m.thread t).frame? id = some f ∧
      f.deoptimize m.histogram r = .ok (b', histogram, g) ∧
      m'.roster = m.roster.set t ((m.thread t).setFrame g) := by
  unfold deoptimizeFrame at h
  cases hf : (m.thread t).frame? id with
  | none =>
    rw [hf] at h
    cases h
    exact .inl rfl
  | some f =>
    simp only [hf, bind_eq_ok] at h
    obtain ⟨⟨changed, histogram, g⟩, hd, h⟩ := h
    refine .inr ⟨f, g, histogram, changed, rfl, hd, ?_⟩
    split_ifs at h
    · cases h
      rfl
    · cases h
      rfl

lemma patchFrame_cases {b : Option Bool} (h : m.patchFrame t id = .ok (b, m')) :
    (m' = m ∧ b = none) ∨ ∃ f g b', (m.thread t).frame? id = some f ∧ f.patch = .ok (b', g) ∧
      b = some b' ∧ m' = m.setThread t ((m.thread t).setFrame g) := by
  unfold patchFrame at h
  cases hf : (m.thread t).frame? id with
  | none =>
    rw [hf] at h
    cases h
    exact .inl ⟨rfl, rfl⟩
  | some f =>
    simp only [hf, bind_eq_ok] at h
    obtain ⟨⟨changed, g⟩, hp, h⟩ := h
    cases h
    exact .inr ⟨f, g, changed, rfl, hp, rfl, rfl⟩

lemma evolves_deoptimizeFrame {r : Reason} {b : Bool}
    (h : m.deoptimizeFrame t id r = .ok (b, m')) (s : Nat) :
    (m.thread s).Evolves (m'.thread s) := by
  obtain rfl | ⟨f, g, histogram, b', hf, hd, hroster⟩ := deoptimizeFrame_cases h
  · exact .refl _
  · have hset := evolves_setThread (m := m)
      (Thread.evolves_setFrame hf (Frame.keeps_deoptimize hd).1.becomes) s
    rwa [Machine.thread, Machine.thread, hroster]

lemma evolves_patchFrame {b : Option Bool} (h : m.patchFrame t id = .ok (b, m')) (s : Nat) :
    (m.thread s).Evolves (m'.thread s) := by
  obtain ⟨rfl, -⟩ | ⟨f, g, b', hf, hp, -, rfl⟩ := patchFrame_cases h
  · exact .refl _
  · exact evolves_setThread (Thread.evolves_setFrame hf (Frame.keeps_patch hp).becomes) s

lemma evolves_fetch {mode : Mode} {l : Layout} (h : m.fetch t mode = .ok (l, m')) (s : Nat) :
    (m.thread s).Evolves (m'.thread s) := by
  simp only [fetch, bind_eq_ok, pure_eq_ok] at h
  obtain ⟨⟨l', memory, u⟩, hu, h⟩ := h
  cases h
  exact evolves_setThread (m := { m with memory }) (Unwind.evolves_fetch hu) s

lemma evolves_unpack {mode : Mode} {ty : BasicType} (h : m.unpack t mode = .ok (ty, m'))
    (s : Nat) : (m.thread s).Evolves (m'.thread s) := by
  simp only [unpack, bind_eq_ok, pure_eq_ok] at h
  obtain ⟨⟨ty', u⟩, hu, h⟩ := h
  cases h
  exact evolves_setThread (Unwind.evolves_unpack hu) s

/-- A thread that is registered anew has no frames, and the others keep theirs. -/
lemma thread_register (m : Machine) (id : Nat) (name : String) (s : Nat) :
    ((m.roster.register id name).thread s).stack = (m.thread s).stack ∧
      ((m.roster.register id name).thread s).lastFrameId = (m.thread s).lastFrameId ∧
      ((m.roster.register id name).thread s).restored = (m.thread s).restored := by
  rcases Roster.thread_register m.roster id name s with ⟨-, hthread⟩ | ⟨rfl, -⟩
  · rw [hthread]
    exact ⟨rfl, rfl, rfl⟩
  · have hnew : (m.roster.register id name).thread m.roster.threads.size = { id, name } := by
      simp [Roster.register, Roster.thread]
    have hold : m.thread m.roster.threads.size = default := by
      simp [thread, Roster.thread]
    rw [hnew, hold]
    exact ⟨rfl, rfl, rfl⟩

lemma evolves_register (id : Nat) (name : String) (s : Nat) :
    (m.thread s).Evolves ((m.roster.register id name).thread s) := by
  obtain ⟨hstack, hlast, hrestored⟩ := thread_register m id name s
  refine Thread.evolves_of_subset hlast (hstack ▸ List.Subset.refl _) fun i hi => ?_
  rwa [Thread.isRestored, hrestored] at hi

/-! ### Frames that are remembered -/

/-- A frame of a thread was patched, and something is noted for it. Some relocks may have been put
off before. -/
structure Remembers (m : Machine) (t id : Nat) (f g : Frame) (u : Thread) (table : Restored)
    (m' : Machine) : Prop where
  frame : (m.thread t).frame? id = some f
  deferred : Restore.SameButDeferred (m.thread t) u
  keeps : f.Keeps g
  not_goesOnIn : ∀ ref, ¬ g.GoesOnIn ref
  compiled : ∃ c, g.kind = .compiled c
  roster : m'.roster = m.roster.set t { u.setFrame g with restored := u.restored.set id table }

/-- Monitors are entered for the thread, and that may be put off. -/
lemma sameButDeferred_inspect {s : Restore.Supply} {memory : Memory} {v : Thread}
    {pending : Option Thrown} {xs : List Scope} {ds : List Description}
    (h : Restore.inspect s memory u pending c xs ds = .ok (o, v)) :
    Restore.SameButDeferred u v := by
  simp only [Restore.inspect, bind_eq_ok] at h
  obtain ⟨o₁, -, h⟩ := h
  split_ifs at h
  · obtain ⟨⟨b, store, w⟩, hrelock, h⟩ := bind_eq_ok.1 h
    cases h
    exact Restore.sameButDeferred_relockAll hrelock
  · cases h
    rfl

lemma remembers_of_remember {x : Scope} {table : Restored} {memory : Memory} {r : DebugRecord}
    (hf : (m.thread t).frame? id = some f) (hrecord : f.record = .ok (c, r))
    (hu : Restore.SameButDeferred (m.thread t) u)
    (h : ({ m with memory }.setThread t u).remember t f c x table = .ok m') :
    ∃ b histogram g, f.deoptimize m.histogram .constraint = .ok (b, histogram, g) ∧
      Remembers m t id f g u table m' := by
  simp only [remember, bind_eq_ok, pure_eq_ok] at h
  obtain ⟨⟨b, histogram, g⟩, hd, rfl⟩ := h
  obtain ⟨hkeeps, hn⟩ := Frame.keeps_deoptimize hd
  obtain ⟨-, c', hg, -⟩ := Frame.deoptimize_spec hrecord hd
  have hid : g.id = id := hkeeps.id.trans (Thread.id_of_frame? hf)
  have hthread : ({ m with memory }.setThread t u).thread t = u :=
    thread_setThread _ u (lt_size_of_frame? hf)
  refine ⟨b, histogram, g, hd, hf, hu, hkeeps, hn, ⟨c', (Frame.record_eq_ok.1 hg).1⟩, ?_⟩
  simp only [report, hthread, hid]
  simp [setThread, Roster.set, Thread.setFrame]

/-! ### Runs -/

lemma Remembers.thread {g : Frame} {table : Restored} (h : Remembers m t id f g u table m') :
    m'.thread t = { u.setFrame g with restored := u.restored.set id table } := by
  rw [Machine.thread, h.roster]
  exact Roster.thread_set_self _ _ (lt_size_of_frame? h.frame)

lemma Remembers.frame?_deferred {g : Frame} {table : Restored}
    (h : Remembers m t id f g u table m') : u.frame? id = some f := by
  rw [Thread.frame?, h.deferred]
  exact h.frame

lemma Remembers.mindful {g : Frame} {table : Restored} (h : Remembers m t id f g u table m')
    (hm : ∀ s, (m.thread s).Mindful) (s : Nat) : (m'.thread s).Mindful := by
  by_cases hs : s = t
  · subst hs
    have hfid : f.id = id := Thread.id_of_frame? h.frame
    have hu := Thread.evolves_of_sameButDeferred h.deferred
    have hset := hu.trans (Thread.evolves_setFrame h.frame?_deferred h.keeps.becomes)
    have hle : id ≤ u.lastFrameId := by
      rw [← hfid]
      exact Nat.le_trans ((hm s).last f (List.mem_of_find?_eq_some h.frame)) hu.last
    rw [h.thread]
    refine ((hm s).evolves hset).note hle (fun e he hid => ?_) table
    -- The frame with the id is the one that was patched.
    obtain ⟨e₀, -, rfl⟩ := List.mem_map.1 he
    split_ifs at hid ⊢ with hg
    · exact h.not_goesOnIn
    · exact absurd (hid.trans (hfid.symm.trans h.keeps.id.symm)) hg
  · rw [Machine.thread, h.roster, Roster.thread_set_of_ne _ _ hs]
    exact hm s

theorem Moves.mindful (h : Moves m m') (hm : ∀ s, (m.thread s).Mindful) (s : Nat) :
    (m'.thread s).Mindful := by
  cases h with
  | push h hk => exact (hm s).evolves (evolves_setThread (Thread.evolves_push h hk) s)
  | pop t => exact (hm s).evolves (evolves_setThread (Thread.evolves_pop _) s)
  | inspect h =>
    cases inspecting_of_deoptimizeObjects h with
    | again | nothing => exact hm s
    | @refused _ _ _ o _ _ _ _ _ _ ho =>
      have hu := Thread.evolves_of_sameButDeferred (sameButDeferred_inspect ho)
      exact (hm s).evolves (evolves_setThread (m := { m with memory := o.memory }) hu s)
    | restored _ hf hrecord _ ho _ hremember =>
      obtain ⟨_, _, g, -, hg⟩ :=
        remembers_of_remember hf hrecord (sameButDeferred_inspect ho) hremember
      exact hg.mindful hm s
  | deoptimizeFrame h => exact (hm s).evolves (evolves_deoptimizeFrame h s)
  | patchFrame h => exact (hm s).evolves (evolves_patchFrame h s)
  | plan h => exact (hm s).evolves (evolves_fetch h s)
  | unpack h => exact (hm s).evolves (evolves_unpack h s)
  | commit h =>
    simp only [Machine.commit, bind_eq_ok, pure_eq_ok] at h
    obtain ⟨r, hr, rfl⟩ := h
    exact (hm s).evolves (Rounds.evolves_commit hr s)
  | deoptimizeMarked h =>
    simp only [Machine.deoptimizeMarked, bind_eq_ok, pure_eq_ok] at h
    obtain ⟨r, hr, rfl⟩ := h
    exact (hm s).evolves (Rounds.evolves_deoptimizeMarked hr s)
  | register id name => exact (hm s).evolves (evolves_register id name s)
  | elsewhere hstack hlast hrestored =>
    refine (hm s).evolves (Thread.evolves_of_subset (hlast s) ?_ fun i hi => ?_)
    · rw [hstack]
      exact List.Subset.refl _
    · rwa [Thread.isRestored, hrestored] at hi

/-- Whatever happened to the threads, the frames that something is noted for are patched. -/
theorem mindful_of_moves (hstart : ∀ s, (start.thread s).Mindful)
    (h : Relation.ReflTransGen Moves start m) (s : Nat) : (m.thread s).Mindful := by
  induction h generalizing s with
  | refl => exact hstart s
  | tail _ hstep ih => exact hstep.mindful ih s

/-- A frame that was restored for an inspector returns to the handler, holds the place where its
code stands, and is remembered. -/
theorem patched_of_restored (hm : ∀ s, (m.thread s).Mindful)
    (h : m.deoptimizeObjects t id = .ok (.restored, m')) (hf : (m.thread t).frame? id = some f)
    (hk : f.kind = .compiled c) :
    ∃ g c', (m'.thread t).frame? id = some g ∧ g.kind = .compiled c' ∧
      c'.heldPc = some f.logicalPc ∧ c'.region.handler = .ok g.pc ∧
      (m'.thread t).isRestored id = true := by
  have hm' := (Moves.inspect h).mindful hm t
  -- It is enough to find the frame where it stood, in compiled code still, and remembered.
  obtain ⟨g, c', hg, hc', hpc, hnoted⟩ : ∃ g c', (m'.thread t).frame? id = some g ∧
      g.kind = .compiled c' ∧ g.logicalPc = f.logicalPc ∧ (m'.thread t).isRestored id = true := by
    cases inspecting_of_deoptimizeObjects h with
    | again hnoted => exact ⟨f, c, hf, hk, rfl, hnoted⟩
    | @restored _ _ _ o u _ _ hf₁ hrecord _ ho _ hremember =>
      obtain rfl := Option.some.inj (hf.symm.trans hf₁)
      obtain ⟨_, _, g, -, h⟩ :=
        remembers_of_remember hf hrecord (sameButDeferred_inspect ho) hremember
      obtain ⟨c', hc'⟩ := h.compiled
      have hgid : g.id = id := h.keeps.id.trans (Thread.id_of_frame? hf)
      refine ⟨g, c', ?_, hc', h.keeps.logicalPc, ?_⟩
      · rw [h.thread]
        exact Thread.frame?_setFrame h.frame?_deferred hgid
      · rw [h.thread]
        exact (Thread.isRestored_set (u.setFrame g) o.table id id).2 (.inl rfl)
  obtain ⟨hheld, hhandler⟩ := hm'.of_isRestored hg hc' hnoted
  obtain ⟨pc, hheldPc⟩ := Option.isSome_iff_exists.1 hheld
  refine ⟨g, c', hg, hc', ?_, hhandler, hnoted⟩
  rw [← hpc, hheldPc]
  simp only [Frame.logicalPc, hc', hheldPc, Option.getD_some]

end Machine
end Bailout
