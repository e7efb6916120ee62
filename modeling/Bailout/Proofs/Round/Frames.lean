import Mathlib.Data.List.Forall2
import Mathlib.Data.List.Nodup
import Bailout.Proofs.Round.Code

/-!
# What rounds do to frames

A frame is patched at most once, and stays where its code stands. A stack that threads push to, pop
from and have patched keeps frames of distinct ids, each of which stands where it was pushed and,
once it is patched, returns to the handler.
-/

namespace Bailout

/-! ### Patching one frame -/

namespace Frame

/-- The frame goes on in the code of a region: it is a frame of it and not patched. -/
def GoesOnIn (f : Frame) (ref : Nat) : Prop :=
  ∃ c, f.kind = .compiled c ∧ c.region.ref = ref ∧ c.heldPc = none

/-- If the frame is patched, it returns to the handler of its code. -/
def HandlerSet (f : Frame) : Prop :=
  ∀ c, f.kind = .compiled c → c.heldPc.isSome = true → c.region.handler = .ok f.pc

/-- What patching keeps of a frame. -/
structure Keeps (f g : Frame) : Prop where
  id : g.id = f.id
  logicalPc : g.logicalPc = f.logicalPc
  handlerSet : f.HandlerSet → g.HandlerSet
  goesOnIn : ∀ ref, g.GoesOnIn ref → f.GoesOnIn ref

variable {f g : Frame} {b : Bool}

lemma Keeps.refl (f : Frame) : f.Keeps f := ⟨rfl, rfl, fun h => h, fun _ h => h⟩

/-- A frame that is patched was compiled and not patched, or else stays as it is. -/
lemma patch_cases (h : f.patch = .ok (b, g)) :
    (g = f ∧ ∀ ref, ¬ f.GoesOnIn ref) ∨
      ∃ c handler, f.kind = .compiled c ∧ c.heldPc = none ∧ c.region.handler = .ok handler ∧
        g = { f with pc := handler, kind := .compiled { c with heldPc := some f.pc } } := by
  unfold patch at h
  cases hk : f.kind with
  | compiled c =>
    rw [hk] at h
    cases hh : c.heldPc with
    | some pc =>
      simp only [hh, pure_eq_ok, Prod.mk.injEq] at h
      refine .inl ⟨h.2.symm, ?_⟩
      rintro ref ⟨c', hc', -, hn⟩
      rw [hk, FrameKind.compiled.injEq] at hc'
      rw [← hc', hh] at hn
      cases hn
    | none =>
      simp only [hh, bind_eq_ok, pure_eq_ok, Prod.mk.injEq] at h
      obtain ⟨handler, hr, -, rfl⟩ := h
      exact .inr ⟨c, handler, rfl, hh, hr, rfl⟩
  | _ =>
    simp only [hk, pure_eq_ok, Prod.mk.injEq] at h
    refine .inl ⟨h.2.symm, ?_⟩
    rintro ref ⟨c', hc', -⟩
    rw [hk] at hc'
    cases hc'

lemma not_goesOnIn_patch (h : f.patch = .ok (b, g)) (ref : Nat) : ¬ g.GoesOnIn ref := by
  rcases patch_cases h with ⟨rfl, hn⟩ | ⟨c, handler, -, -, -, rfl⟩
  · exact hn ref
  · rintro ⟨c', hc', -, hn⟩
    cases hc'
    cases hn

lemma keeps_patch (h : f.patch = .ok (b, g)) : f.Keeps g := by
  refine ⟨?_, logicalPc_patch h, ?_, fun ref hg => absurd hg (not_goesOnIn_patch h ref)⟩
  · rcases patch_cases h with ⟨rfl, -⟩ | ⟨c, handler, -, -, -, rfl⟩ <;> rfl
  · rcases patch_cases h with ⟨rfl, -⟩ | ⟨c, handler, -, -, hr, rfl⟩
    · intro h
      exact h
    · rintro - c' hc' -
      cases hc'
      exact hr

/-- Once a frame was deoptimized it goes on nowhere, whether it was patched now or before. -/
lemma keeps_deoptimize {h h' : Histogram} {r : Reason} (hd : f.deoptimize h r = .ok (b, h', g)) :
    f.Keeps g ∧ ∀ ref, ¬ g.GoesOnIn ref := by
  unfold deoptimize at hd
  cases hk : f.kind.compiled? with
  | none =>
    simp only [hk, pure_eq_ok, Prod.mk.injEq] at hd
    obtain ⟨-, -, rfl⟩ := hd
    refine ⟨.refl f, ?_⟩
    rintro ref ⟨c, hc, -⟩
    rw [hc] at hk
    cases hk
  | some c =>
    simp only [hk] at hd
    split_ifs at hd with hheld
    · simp only [pure_eq_ok, Prod.mk.injEq] at hd
      obtain ⟨-, -, rfl⟩ := hd
      refine ⟨.refl f, ?_⟩
      rintro ref ⟨c', hc', -, hn⟩
      rw [hc'] at hk
      cases hk
      rw [hn] at hheld
      cases hheld
    · simp only [bind_eq_ok, pure_eq_ok, Prod.mk.injEq] at hd
      obtain ⟨⟨b', g'⟩, hpatch, -, -, rfl⟩ := hd
      exact ⟨keeps_patch hpatch, not_goesOnIn_patch hpatch⟩

end Frame

namespace CodeCache

variable {c : CodeCache} {h h' : Histogram} {f g : Frame} {fs gs : List Frame}

/-- What a visit makes of one frame: it is kept, and patched if its code must not go on. -/
def Patches (c : CodeCache) (f g : Frame) : Prop :=
  f.Keeps g ∧ ∀ ref, (c.state ref).needsPatching = true → ¬ g.GoesOnIn ref

/-- A frame whose code may go on goes on in no code that must not. -/
lemma not_goesOnIn_of_not_condemns (hf : c.condemns f = false) {ref : Nat}
    (hr : (c.state ref).needsPatching = true) : ¬ f.GoesOnIn ref := by
  rintro ⟨a, ha, rfl, -⟩
  simp only [condemns, ha, FrameKind.compiled?, Option.any_some] at hf
  rw [hr] at hf
  cases hf

theorem patchFrame_spec (hp : c.patchFrame h f = .ok (h', g)) : c.Patches f g := by
  unfold patchFrame at hp
  split_ifs at hp with hf
  · simp only [bind_eq_ok, pure_eq_ok, Prod.mk.injEq] at hp
    obtain ⟨⟨b, h₁, f₁⟩, hd, -, rfl⟩ := hp
    obtain ⟨hkeeps, hn⟩ := Frame.keeps_deoptimize hd
    exact ⟨hkeeps, fun ref _ => hn ref⟩
  · simp only [pure_eq_ok, Prod.mk.injEq] at hp
    obtain ⟨-, rfl⟩ := hp
    rw [Bool.not_eq_true] at hf
    exact ⟨.refl f, fun ref => not_goesOnIn_of_not_condemns hf⟩

/-- What patching makes of each frame it makes of all of them. -/
lemma forall₂_of_patchStack {R : Frame → Frame → Prop}
    (hR : ∀ h f h' g, c.patchFrame h f = .ok (h', g) → R f g)
    (hp : c.patchStack h fs = .ok (h', gs)) : List.Forall₂ R fs gs := by
  induction fs generalizing h h' gs with
  | nil =>
    simp only [patchStack, pure_eq_ok, Prod.mk.injEq] at hp
    obtain ⟨-, rfl⟩ := hp
    exact .nil
  | cons f fs ih =>
    simp only [patchStack, bind_eq_ok, pure_eq_ok, Prod.mk.injEq] at hp
    obtain ⟨⟨h₁, g⟩, hf, ⟨h₂, gs'⟩, hfs, -, rfl⟩ := hp
    exact .cons (hR _ _ _ _ hf) (ih hfs)

theorem patchStack_spec (hp : c.patchStack h fs = .ok (h', gs)) :
    List.Forall₂ c.Patches fs gs :=
  forall₂_of_patchStack (fun _ _ _ _ => patchFrame_spec) hp

end CodeCache

/-! ### Stacks -/

namespace Thread

lemma map_id_of_keeps {fs gs : List Frame} (h : List.Forall₂ Frame.Keeps fs gs) :
    gs.map Frame.id = fs.map Frame.id := by
  induction h with
  | nil => rfl
  | cons hk _ ih => rw [List.map_cons, List.map_cons, hk.id, ih]

/-- Some frame of the thread goes on in the code of a region. -/
def GoesOnIn (t : Thread) (ref : Nat) : Prop := ∃ f ∈ t.stack, f.GoesOnIn ref

/-- Newer frames have greater ids. -/
structure Numbered (t : Thread) : Prop where
  ids : (t.stack.map Frame.id).Pairwise (· > ·)
  last : ∀ f ∈ t.stack, f.id ≤ t.lastFrameId

/-- The frames of a thread are in order: newer frames have greater ids, each stands where it was
pushed, and patched ones return to the handler. -/
structure InOrder (t : Thread) (origin : Nat → Nat) : Prop extends Numbered t where
  stands : ∀ f ∈ t.stack, f.logicalPc = origin f.id
  handlerSet : ∀ f ∈ t.stack, f.HandlerSet

variable {t u : Thread} {origin : Nat → Nat} {f g : Frame} {words pc : Nat} {kind : FrameKind}

lemma Numbered.nodup (ht : t.Numbered) : (t.stack.map Frame.id).Nodup := ht.ids.imp Nat.ne_of_gt

lemma inOrder_of_stack_eq_nil (h : t.stack = []) (origin : Nat → Nat) : t.InOrder origin := by
  refine ⟨⟨?_, ?_⟩, ?_, ?_⟩ <;> simp [h]

/-- The new frame is the newest one; its id is the next one. -/
lemma push_spec (h : t.push words pc kind = .ok u) :
    u.lastFrameId = t.lastFrameId + 1 ∧ ∃ sp, sp + words = t.sp ∧
      u.stack = ⟨t.lastFrameId + 1, sp, words, pc, kind⟩ :: t.stack := by
  simp only [push, bind_eq_ok, checkedSub_eq_ok, pure_eq_ok] at h
  obtain ⟨sp, ⟨hw, rfl⟩, rfl⟩ := h
  exact ⟨rfl, _, Nat.sub_add_cancel hw, rfl⟩

lemma pushCompiled_spec {r : Region} {contents : Contents}
    (h : t.pushCompiled r contents words pc = .ok u) :
    ∃ c : CompiledFrame, c.region = r ∧ c.heldPc = none ∧
      t.push words pc (.compiled c) = .ok u := by
  unfold pushCompiled at h
  split_ifs at h
  simp only [bind_eq_ok] at h
  obtain ⟨_, -, hp⟩ := h
  exact ⟨_, rfl, rfl, hp⟩

lemma Numbered.push (ht : t.Numbered) (h : t.push words pc kind = .ok u) : u.Numbered := by
  obtain ⟨hlast, sp, -, hstack⟩ := push_spec h
  constructor
  · rw [hstack, List.map_cons, List.pairwise_cons]
    refine ⟨fun id hid => ?_, ht.ids⟩
    obtain ⟨f, hf, rfl⟩ := List.mem_map.1 hid
    exact Nat.lt_succ_of_le (ht.last f hf)
  · rw [hstack, hlast]
    simp only [List.mem_cons, forall_eq_or_imp]
    exact ⟨Nat.le_refl _, fun f hf => Nat.le_succ_of_le (ht.last f hf)⟩

theorem InOrder.push (ht : t.InOrder origin) (h : t.push words pc kind = .ok u)
    (hk : ∀ c, kind = .compiled c → c.heldPc = none) :
    u.InOrder (Function.update origin u.lastFrameId pc) := by
  obtain ⟨hlast, sp, -, hstack⟩ := push_spec h
  refine ⟨ht.toNumbered.push h, ?_, ?_⟩
  · rw [hstack, hlast]
    simp only [List.mem_cons, forall_eq_or_imp, Function.update_self]
    refine ⟨?_, fun f hf => ?_⟩
    · cases kind with
      | compiled c => simp [Frame.logicalPc, hk c rfl]
      | _ => rfl
    · have hne : f.id ≠ t.lastFrameId + 1 := Nat.ne_of_lt (Nat.lt_succ_of_le (ht.last f hf))
      rw [Function.update_of_ne hne, ht.stands f hf]
  · rw [hstack]
    simp only [List.mem_cons, forall_eq_or_imp]
    refine ⟨?_, ht.handlerSet⟩
    rintro c rfl hc
    rw [hk c rfl] at hc
    cases hc

/-- Only the frame that was pushed can go on in code that no frame went on in before. -/
lemma GoesOnIn.of_push (h : t.push words pc kind = .ok u) {ref : Nat} (hu : u.GoesOnIn ref) :
    t.GoesOnIn ref ∨ ∃ c, kind = .compiled c ∧ c.region.ref = ref := by
  obtain ⟨-, sp, -, hstack⟩ := push_spec h
  obtain ⟨f, hf, hg⟩ := hu
  rw [hstack, List.mem_cons] at hf
  rcases hf with rfl | hf
  · obtain ⟨c, hc, hr, -⟩ := hg
    exact .inr ⟨c, hc, hr⟩
  · exact .inl ⟨f, hf, hg⟩

/-- Frames that are left when others are taken away are still in order. -/
lemma Numbered.sublist (ht : t.Numbered) (hid : u.lastFrameId = t.lastFrameId)
    (h : u.stack.Sublist t.stack) : u.Numbered where
  ids := ht.ids.sublist (h.map _)
  last f hf := hid ▸ ht.last f (h.subset hf)

lemma InOrder.pop (ht : t.InOrder origin) : t.pop.2.InOrder origin where
  toNumbered := ht.toNumbered.sublist rfl (List.tail_sublist _)
  stands f hf := ht.stands f (List.mem_of_mem_tail hf)
  handlerSet f hf := ht.handlerSet f (List.mem_of_mem_tail hf)

lemma GoesOnIn.of_pop {ref : Nat} (h : t.pop.2.GoesOnIn ref) : t.GoesOnIn ref := by
  obtain ⟨f, hf, hg⟩ := h
  exact ⟨f, List.mem_of_mem_tail hf, hg⟩

lemma Numbered.of_keeps (ht : t.Numbered) (hid : u.lastFrameId = t.lastFrameId)
    (h : List.Forall₂ Frame.Keeps t.stack u.stack) : u.Numbered where
  ids := by
    rw [map_id_of_keeps h]
    exact ht.ids
  last g hg := by
    obtain ⟨f, hf, hk⟩ := exists_mem_of_forall₂ h hg
    rw [hk.id, hid]
    exact ht.last f hf

/-- What is kept of each frame keeps the frames in order. -/
theorem InOrder.of_keeps (ht : t.InOrder origin) (hid : u.lastFrameId = t.lastFrameId)
    (h : List.Forall₂ Frame.Keeps t.stack u.stack) : u.InOrder origin where
  toNumbered := ht.toNumbered.of_keeps hid h
  stands g hg := by
    obtain ⟨f, hf, hk⟩ := exists_mem_of_forall₂ h hg
    rw [hk.id, hk.logicalPc]
    exact ht.stands f hf
  handlerSet g hg := by
    obtain ⟨f, hf, hk⟩ := exists_mem_of_forall₂ h hg
    exact hk.handlerSet (ht.handlerSet f hf)

lemma GoesOnIn.of_keeps (h : List.Forall₂ Frame.Keeps t.stack u.stack) {ref : Nat}
    (hu : u.GoesOnIn ref) : t.GoesOnIn ref := by
  obtain ⟨g, hg, hr⟩ := hu
  obtain ⟨f, hf, hk⟩ := exists_mem_of_forall₂ h hg
  exact ⟨f, hf, hk.goesOnIn ref hr⟩

/-- Putting a frame in the place of the one with its id concerns no other frame. -/
lemma forall₂_setFrame {R : Frame → Frame → Prop} (hR : ∀ e, R e e) (ht : t.Numbered)
    (hf : t.frame? f.id = some f) (hid : g.id = f.id) (h : R f g) :
    List.Forall₂ R t.stack (t.setFrame g).stack := by
  have hmem : f ∈ t.stack := List.mem_of_find?_eq_some hf
  simp only [setFrame, List.forall₂_map_right_iff, List.forall₂_same]
  intro e he
  split_ifs with heq
  · rw [hid] at heq
    rwa [List.inj_on_of_nodup_map ht.nodup he hmem heq]
  · exact hR e

lemma keeps_setFrame (ht : t.Numbered) (hf : t.frame? f.id = some f) (h : f.Keeps g) :
    List.Forall₂ Frame.Keeps t.stack (t.setFrame g).stack :=
  forall₂_setFrame .refl ht hf h.id h

end Thread

/-! ### Threads of a roster -/

namespace Roster

variable {roster : Roster} {t s r : Nat} {u : Thread}

lemma thread_set (roster : Roster) (t s : Nat) (u : Thread) :
    (roster.set t u).thread s = if s = t ∧ t < roster.threads.size then u else roster.thread s := by
  by_cases hs : s = t
  · subst hs
    by_cases ht : s < roster.threads.size
    · simp [thread_set_self, ht]
    · simp [set, thread, ht]
  · simp [thread_set_of_ne, hs]

lemma goesOnIn_set (hu : u.GoesOnIn r → (roster.thread t).GoesOnIn r)
    (h : ((roster.set t u).thread s).GoesOnIn r) : (roster.thread s).GoesOnIn r := by
  rw [thread_set] at h
  split_ifs at h with hs
  · exact hs.1 ▸ hu h
  · exact h

lemma inOrder_set {origin : Nat → Nat → Nat} {o : Nat → Nat}
    (h : ∀ s, (roster.thread s).InOrder (origin s)) (ht : t < roster.threads.size)
    (hu : u.InOrder o) (s : Nat) :
    ((roster.set t u).thread s).InOrder (Function.update origin t o s) := by
  rw [thread_set]
  by_cases hs : s = t
  · subst hs
    rwa [if_pos ⟨rfl, ht⟩, Function.update_self]
  · rw [if_neg (fun hst => hs hst.1), Function.update_of_ne hs]
    exact h s

/-- What visits keep of the threads: the same ones are registered, frames stay in order, and no
frame comes to go on anywhere. -/
structure Keeps (roster roster' : Roster) : Prop where
  registered : roster'.registered = roster.registered
  inOrder : ∀ s origin, (roster.thread s).InOrder origin → (roster'.thread s).InOrder origin
  goesOnIn : ∀ s r, (roster'.thread s).GoesOnIn r → (roster.thread s).GoesOnIn r

lemma Keeps.refl (roster : Roster) : roster.Keeps roster := ⟨rfl, fun _ _ h => h, fun _ _ h => h⟩

lemma Keeps.trans {roster' roster'' : Roster} (h : roster.Keeps roster')
    (h' : roster'.Keeps roster'') : roster.Keeps roster'' where
  registered := h'.registered.trans h.registered
  inOrder s origin hs := h'.inOrder s origin (h.inOrder s origin hs)
  goesOnIn s r hs := h.goesOnIn s r (h'.goesOnIn s r hs)

lemma keeps_set (hid : u.lastFrameId = (roster.thread t).lastFrameId)
    (hu : List.Forall₂ Frame.Keeps (roster.thread t).stack u.stack) :
    roster.Keeps (roster.set t u) := by
  refine ⟨rfl, fun s origin hs => ?_, fun s r => goesOnIn_set (.of_keeps hu)⟩
  rw [thread_set]
  split_ifs with hst
  · exact (hst.1 ▸ hs).of_keeps hid hu
  · exact hs

lemma mem_swapRemove {α : Type} {l : List α} {i : Nat} {a : α} (h : a ∈ swapRemove l i) :
    a ∈ l := by
  unfold swapRemove at h
  cases hl : l.getLast? with
  | none => rwa [hl] at h
  | some last =>
    rw [hl] at h
    rcases List.mem_or_eq_of_mem_set (List.dropLast_subset _ h) with h | rfl
    · exact h
    · exact List.mem_of_getLast? hl

lemma mem_unregister {id : Nat} (h : t ∈ (roster.unregister id).2.registered) :
    t ∈ roster.registered := by
  unfold unregister at h
  split at h
  · exact mem_swapRemove h
  · exact h

lemma thread_unregister (roster : Roster) (id : Nat) :
    (roster.unregister id).2.thread t = roster.thread t := by
  unfold unregister
  split <;> rfl

/-- The thread that is registered anew has an empty stack, and the others are the same. -/
lemma thread_register (roster : Roster) (id : Nat) (name : String) (t : Nat) :
    t ≠ roster.threads.size ∧ (roster.register id name).thread t = roster.thread t ∨
      t = roster.threads.size ∧ ((roster.register id name).thread t).stack = [] := by
  by_cases ht : t = roster.threads.size
  · exact .inr ⟨ht, by simp [register, thread, ht]⟩
  · refine .inl ⟨ht, ?_⟩
    simp only [register, thread, Array.getD_eq_getD_getElem?, Array.getElem?_push, if_neg ht]

/-- Threads are visited one by one, in whichever way it is. -/
lemma visitAll_of_visitThreads {σ : Type} {f : σ → Thread → Checked (σ × Thread)} {a : σ}
    {x : σ × Roster} (h : roster.visitThreads f a = .ok x) :
    ∃ roster₀ : Roster, roster₀.registered = roster.registered ∧
      (∀ s, roster₀.thread s = roster.thread s) ∧ visitAll f a roster₀ = .ok x := by
  rw [visitThreads] at h
  split_ifs at h
  · obtain ⟨_, -, h⟩ := bind_eq_ok.1 h
    exact ⟨roster, rfl, fun _ => rfl, h⟩
  · obtain ⟨_, -, h⟩ := bind_eq_ok.1 h
    exact ⟨{ roster with handshakes := roster.handshakes + 1 }, rfl, fun _ => rfl, h⟩

end Roster

lemma Thread.not_goesOnIn_of_stack_eq_nil {t : Thread} (h : t.stack = []) (r : Nat) :
    ¬ t.GoesOnIn r := by
  rintro ⟨f, hf, -⟩
  rw [h] at hf
  cases hf

/-! ### Visiting threads -/

/-- After a visit no frame of the thread goes on in code that must not go on. -/
lemma Thread.not_goesOnIn_of_patches {c : CodeCache} {t u : Thread}
    (h : List.Forall₂ c.Patches t.stack u.stack) {ref : Nat}
    (hr : (c.state ref).needsPatching = true) : ¬ u.GoesOnIn ref := by
  rintro ⟨g, hg, hgo⟩
  obtain ⟨f, -, hp⟩ := exists_mem_of_forall₂ h hg
  exact hp.2 ref hr hgo

namespace Rounds

variable {c : CodeCache} {h h' : Histogram} {roster roster' : Roster} {t : Nat} {todo : List Nat}

/-- Visiting a thread patches its frames, and changes nothing else that concerns frames. -/
theorem visit_spec {t u : Thread} (hv : Rounds.visit c h t = .ok (h', u)) :
    u.lastFrameId = t.lastFrameId ∧ List.Forall₂ c.Patches t.stack u.stack := by
  simp only [Rounds.visit, bind_eq_ok, pure_eq_ok, Prod.mk.injEq] at hv
  obtain ⟨⟨_, stack⟩, hs, -, rfl⟩ := hv
  exact ⟨rfl, CodeCache.patchStack_spec hs⟩

/-- The thread that was visited has no frame left that goes on in code that must not go on. -/
theorem visit_keeps (hv : Roster.visit (Rounds.visit c) (h, roster) t = .ok (h', roster')) :
    roster.Keeps roster' ∧
      ∀ r, (c.state r).needsPatching = true → ¬ (roster'.thread t).GoesOnIn r := by
  simp only [Roster.visit, bind_eq_ok, pure_eq_ok, Prod.mk.injEq] at hv
  obtain ⟨⟨_, u⟩, hu, -, rfl⟩ := hv
  obtain ⟨hlast, hstack⟩ := visit_spec hu
  obtain ⟨hreg, horder, hgoes⟩ : roster.Keeps (roster.set t u) :=
    Roster.keeps_set hlast (hstack.imp fun _ _ hp => hp.1)
  refine ⟨⟨hreg, horder, hgoes⟩, fun r hr hx => ?_⟩
  have hx : ((roster.set t u).thread t).GoesOnIn r := hx
  rw [Roster.thread_set] at hx
  split_ifs at hx with ht
  · exact Thread.not_goesOnIn_of_patches hstack hr hx
  · -- Nobody is there to be visited.
    have hge : roster.threads.size ≤ t := by simpa using ht
    refine Thread.not_goesOnIn_of_stack_eq_nil ?_ r hx
    simp only [Roster.thread, Array.getD_eq_getD_getElem?, Array.getElem?_eq_none hge]
    rfl

/-- None of the threads that were visited has such a frame left. -/
theorem visitAll_keeps
    (hv : todo.foldlM (Roster.visit (Rounds.visit c)) (h, roster) = .ok (h', roster')) :
    roster.Keeps roster' ∧ ∀ t ∈ todo, ∀ r, (c.state r).needsPatching = true →
      ¬ (roster'.thread t).GoesOnIn r := by
  refine foldlM_induction (fun pre s => roster.Keeps s.2 ∧ ∀ t ∈ pre, ∀ r,
    (c.state r).needsPatching = true → ¬ (s.2.thread t).GoesOnIn r) ⟨.refl roster, by simp⟩ ?_ hv
  rintro pre t ⟨h₁, roster₁⟩ ⟨h₂, roster₂⟩ ⟨hkeeps, hpre⟩ ht
  obtain ⟨hkeeps', hlast⟩ := visit_keeps ht
  refine ⟨hkeeps.trans hkeeps', fun s hs r hr hx => ?_⟩
  rcases List.mem_append.1 hs with hs | hs
  · exact hpre s hs r hr (hkeeps'.goesOnIn s r hx)
  · obtain rfl := List.mem_singleton.1 hs
    exact hlast r hr hx

end Rounds
end Bailout
