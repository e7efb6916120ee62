import Mathlib.Data.List.Infix
import Mathlib.Logic.Relation
import Bailout.Proofs.Unwind.Noted

/-!
# What becomes of a stack

A stack changes in three ways: a frame is pushed, frames are taken off its top, or frames are
patched where they lie. Each of them leaves frames that lie one above the other without gaps, with
ids of their own, and that return to the handler once they are patched. A frame that is left has not
moved, and ids that were given out are not given out again.
-/

namespace Bailout

namespace Frame

variable {e f g : Frame} {b : Bool} {fs gs : List Frame}

/-! ### Patching again -/

/-- Where there is nothing to be patched, patching changes nothing. -/
lemma patch_of_not_goesOnIn (h : ∀ ref, ¬ f.GoesOnIn ref) : f.patch = .ok (false, f) := by
  rw [patch]
  cases hk : f.kind with
  | compiled c =>
    cases hheld : c.heldPc with
    | none => exact absurd ⟨c, hk, rfl, hheld⟩ (h c.region.ref)
    | some pc =>
      simp only [hheld]
      rfl
  | _ => rfl

lemma deoptimize_of_not_goesOnIn (h : ∀ ref, ¬ f.GoesOnIn ref) (histogram : Histogram)
    (r : Reason) : f.deoptimize histogram r = .ok (false, histogram, f) := by
  rw [deoptimize]
  cases hk : f.kind with
  | compiled c =>
    have hheld : c.heldPc.isSome = true := by
      by_contra hnone
      exact h c.region.ref ⟨c, hk, rfl, by simpa using hnone⟩
    simp only [FrameKind.compiled?, hheld, if_true]
    rfl
  | _ => rfl

/-- A frame was patched or left as it is. -/
def MayPatch (f g : Frame) : Prop := g = f ∨ ∃ b, f.patch = .ok (b, g)

/-- What stays of a frame: where it lies and where its code stands. Once it is patched, all of it
does. -/
structure Stays (f g : Frame) : Prop where
  id : g.id = f.id
  sp : g.sp = f.sp
  words : g.words = f.words
  logicalPc : g.logicalPc = f.logicalPc
  held : ∀ c, f.kind = .compiled c → c.heldPc.isSome = true → g = f

lemma Stays.refl (f : Frame) : f.Stays f := ⟨rfl, rfl, rfl, rfl, fun _ _ _ => rfl⟩

lemma Stays.trans (h : e.Stays f) (h' : f.Stays g) : e.Stays g where
  id := h'.id.trans h.id
  sp := h'.sp.trans h.sp
  words := h'.words.trans h.words
  logicalPc := h'.logicalPc.trans h.logicalPc
  held c hk hheld := by
    obtain rfl := h.held c hk hheld
    exact h'.held c hk hheld

lemma MayPatch.stays (h : f.MayPatch g) : f.Stays g := by
  rcases h with rfl | ⟨b, h⟩
  · exact .refl g
  · have hpc := logicalPc_patch h
    rcases patch_cases h with ⟨rfl, -⟩ | ⟨c, handler, hk, hnone, -, rfl⟩
    · exact .refl g
    · refine ⟨rfl, rfl, rfl, hpc, fun c' hk' hheld => ?_⟩
      -- A frame that was patched before is not patched now.
      obtain rfl : c = c' := FrameKind.compiled.inj (hk.symm.trans hk')
      rw [hnone] at hheld
      cases hheld

lemma MayPatch.keeps (h : f.MayPatch g) : f.Keeps g := by
  rcases h with rfl | ⟨b, h⟩
  · exact .refl g
  · exact keeps_patch h

lemma mayPatch_of_deoptimize {h h' : Histogram} {r : Reason}
    (hd : f.deoptimize h r = .ok (b, h', g)) : f.MayPatch g := by
  rw [deoptimize] at hd
  cases hk : f.kind.compiled? with
  | none =>
    rw [hk] at hd
    cases hd
    exact .inl rfl
  | some c =>
    simp only [hk] at hd
    split_ifs at hd
    · cases hd
      exact .inl rfl
    · simp only [bind_eq_ok, pure_eq_ok] at hd
      obtain ⟨⟨b', g'⟩, hpatch, hd⟩ := hd
      cases hd
      exact .inr ⟨_, hpatch⟩

/-- Frames that stay where they lie leave no gaps. -/
lemma tiled_of_stays (h : List.Forall₂ Stays fs gs) (ht : Tiled fs) : Tiled gs := by
  induction h with
  | nil => exact trivial
  | @cons f g fs gs hfg hrest ih =>
    refine ⟨?_, ih ht.2⟩
    have hcaller : g.callerSp = f.callerSp := by rw [callerSp, hfg.sp, hfg.words, callerSp]
    rw [hcaller, ht.1]
    cases hrest with
    | nil => rfl
    | cons hfg' _ => exact hfg'.sp.symm

end Frame

namespace Thread

variable {t u v : Thread} {f g : Frame} {words pc : Nat} {kind : FrameKind}

/-! ### Shifts -/

/-- One change of a stack. -/
inductive Shift (t : Thread) : Thread → Prop where
  | push {words pc : Nat} {kind : FrameKind} {u : Thread} (h : t.push words pc kind = .ok u)
      (hk : ∀ c, kind = .compiled c → c.heldPc = none) : Shift t u
  | drop {u : Thread} (hlast : u.lastFrameId = t.lastFrameId) (hstack : u.stack <:+ t.stack) :
      Shift t u
  | patch {u : Thread} (hlast : u.lastFrameId = t.lastFrameId)
      (hstack : List.Forall₂ Frame.MayPatch t.stack u.stack) : Shift t u

/-- Changes of a stack one after the other. -/
abbrev Shifts : Thread → Thread → Prop := Relation.ReflTransGen Shift

/-- The thread changes, but not its frames. -/
lemma Shift.aside (hstack : u.stack = t.stack) (hlast : u.lastFrameId = t.lastFrameId) :
    Shift t u := .drop hlast (hstack ▸ List.suffix_rfl)

/-! ### What is so at any time -/

/-- A stack without gaps, of frames with ids of their own that return to the handler once they are
patched. -/
structure Sound (t : Thread) : Prop extends Numbered t where
  tiled : t.Tiled
  handlerSet : ∀ f ∈ t.stack, f.HandlerSet

lemma sound_of_stack_eq_nil (h : t.stack = []) : t.Sound where
  toNumbered := (inOrder_of_stack_eq_nil h 0).toNumbered
  tiled := by
    rw [Tiled, h]
    exact trivial
  handlerSet f hf := by
    rw [h] at hf
    cases hf

theorem Shift.sound (h : Shift t u) (ht : t.Sound) : u.Sound := by
  cases h with
  | push h hk =>
    obtain ⟨-, sp, -, hstack⟩ := push_spec h
    refine ⟨ht.toNumbered.push h, ht.tiled.push h, ?_⟩
    rw [hstack, List.forall_mem_cons]
    exact ⟨Frame.handlerSet_of_kind rfl hk, ht.handlerSet⟩
  | drop hlast hstack =>
    refine ⟨ht.toNumbered.sublist hlast hstack.sublist, ?_, fun f hf => ?_⟩
    · obtain ⟨fs, hfs⟩ := hstack
      have htiled := ht.tiled
      rw [Tiled, ← hfs] at htiled
      exact tiled_of_append htiled
    · exact ht.handlerSet f (hstack.subset hf)
  | patch hlast hstack =>
    refine ⟨ht.toNumbered.of_keeps hlast (hstack.imp fun _ _ h => h.keeps), ?_, fun g hg => ?_⟩
    · exact Frame.tiled_of_stays (hstack.imp fun _ _ h => h.stays) ht.tiled
    · obtain ⟨f, hf, hfg⟩ := exists_mem_of_forall₂ hstack hg
      exact hfg.keeps.handlerSet (ht.handlerSet f hf)

/-! ### What stays so -/

/-- What becomes of the frames of a thread: those that are left stay where they are, and those that
are new have new ids. -/
structure Persists (t u : Thread) : Prop where
  last : t.lastFrameId ≤ u.lastFrameId
  frame : ∀ g ∈ u.stack, (∃ f ∈ t.stack, f.Stays g) ∨ t.lastFrameId < g.id

lemma Persists.refl (t : Thread) : t.Persists t :=
  ⟨Nat.le_refl _, fun g hg => .inl ⟨g, hg, .refl g⟩⟩

lemma Persists.trans (h : t.Persists u) (h' : u.Persists v) : t.Persists v where
  last := Nat.le_trans h.last h'.last
  frame g hg := by
    rcases h'.frame g hg with ⟨f, hf, hfg⟩ | hnew
    · rcases h.frame f hf with ⟨e, he, hef⟩ | hnew
      · exact .inl ⟨e, he, hef.trans hfg⟩
      · exact .inr (hfg.id ▸ hnew)
    · exact .inr (Nat.lt_of_le_of_lt h.last hnew)

theorem Shift.persists (h : Shift t u) : t.Persists u := by
  cases h with
  | push h hk =>
    obtain ⟨hlast, sp, -, hstack⟩ := push_spec h
    refine ⟨hlast ▸ Nat.le_succ _, ?_⟩
    rw [hstack, List.forall_mem_cons]
    exact ⟨.inr (Nat.lt_succ_self _), fun g hg => .inl ⟨g, hg, .refl g⟩⟩
  | drop hlast hstack =>
    exact ⟨Nat.le_of_eq hlast.symm, fun g hg => .inl ⟨g, hstack.subset hg, .refl g⟩⟩
  | patch hlast hstack =>
    refine ⟨Nat.le_of_eq hlast.symm, fun g hg => ?_⟩
    obtain ⟨f, hf, hfg⟩ := exists_mem_of_forall₂ hstack hg
    exact .inl ⟨f, hf, hfg.stays⟩

lemma sound_of_shifts (h : Shifts t u) (ht : t.Sound) : u.Sound := by
  induction h with
  | refl => exact ht
  | tail _ h ih => exact h.sound ih

lemma persists_of_shifts (h : Shifts t u) : t.Persists u := by
  induction h with
  | refl => exact .refl t
  | tail _ h ih => exact ih.trans h.persists

/-- A frame is known by its id for good. -/
lemma Persists.stays (h : t.Persists u) (ht : t.Sound) (hf : f ∈ t.stack) (hg : g ∈ u.stack)
    (hid : g.id = f.id) : f.Stays g := by
  rcases h.frame g hg with ⟨e, he, heg⟩ | hnew
  · have hef : e.id = f.id := heg.id.symm.trans hid
    rwa [← List.inj_on_of_nodup_map ht.nodup he hf hef]
  · have := ht.last f hf
    omega

/-! ### What the operations do -/

/-- A frame is put in the place of the one that it was made from. -/
lemma shift_setFrame (ht : t.Numbered) (hf : t.frame? f.id = some f) (h : f.MayPatch g) :
    Shift t (t.setFrame g) :=
  .patch rfl (forall₂_setFrame (fun _ => .inl rfl) ht hf h.stays.id h)

/-- A frame is put in the place where it is. -/
lemma setFrame_self {id : Nat} (ht : t.Numbered) (hf : t.frame? id = some f) :
    t.setFrame f = t := by
  have hid : f.id = id := id_of_frame? hf
  have hmap : t.stack.map (fun g => if g.id = f.id then f else g) = t.stack := by
    refine (List.map_congr_left fun g hg => ?_).trans (List.map_id' _)
    split_ifs with hgf
    · have hg' := frame?_of_mem ht hg
      rw [hgf, hid, hf] at hg'
      exact Option.some.inj hg'
    · rfl
  rw [setFrame, hmap]

/-- Relocks that are put off concern no frame. -/
lemma shift_of_sameButDeferred (h : Restore.SameButDeferred t u) : Shift t u := by
  rw [Restore.SameButDeferred] at h
  rw [h]
  exact .aside rfl rfl

lemma shift_visit {c : CodeCache} {h h' : Histogram} (hv : Rounds.visit c h t = .ok (h', u)) :
    Shift t u := by
  simp only [Rounds.visit, bind_eq_ok, pure_eq_ok] at hv
  obtain ⟨⟨h₁, fs⟩, hfs, hv⟩ := hv
  cases hv
  refine .patch rfl (CodeCache.forall₂_of_patchStack (fun h f h' g hp => ?_) hfs)
  rw [CodeCache.patchFrame] at hp
  split_ifs at hp
  · simp only [bind_eq_ok, pure_eq_ok] at hp
    obtain ⟨⟨b, h₂, g'⟩, hd, hp⟩ := hp
    cases hp
    exact Frame.mayPatch_of_deoptimize hd
  · cases hp
    exact .inl rfl

end Thread

namespace Unwind

variable {l : Layout} {mode : Mode} {t u : Thread}

lemma shifts_lay {xs : List (Packed × Nat × Nat)} (h : lay l mode t xs = .ok u) :
    Thread.Shifts t u := by
  induction xs generalizing t with
  | nil =>
    cases h
    exact .refl
  | cons x xs ih =>
    rw [lay, bind_eq_ok] at h
    obtain ⟨v, hv, h⟩ := h
    refine (Relation.ReflTransGen.single (Thread.Shift.push hv ?_)).trans (ih h)
    rintro c ⟨⟩

/-- The frame that is replaced is taken off with the stubs above it, and then activations are
pushed. -/
lemma shifts_replace {p : Plan} (h : replace t p mode = .ok u) : Thread.Shifts t u := by
  rw [replace, bind_eq_ok] at h
  obtain ⟨v, hv, h⟩ := h
  obtain ⟨stubs, f, hstack, -, -, hlast⟩ := dropDeoptee_spec hv
  have hsuffix : v.stack <:+ t.stack := ⟨stubs ++ [f], by simp [hstack]⟩
  exact (Relation.ReflTransGen.single (.drop hlast hsuffix)).trans (shifts_lay h)

theorem shifts_unpack {verify : Bool} {ty : BasicType}
    (h : unpack .faithful verify t mode = .ok (ty, u)) : Thread.Shifts t u := by
  obtain ⟨p, v, -, hv, rfl⟩ := unpack_spec h
  exact (shifts_replace hv).tail (.aside rfl rfl)

end Unwind
end Bailout
