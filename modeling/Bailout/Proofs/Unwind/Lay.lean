import Bailout.Proofs.Activation.Words
import Bailout.Proofs.Round.Frames
import Bailout.Unwind.Unpack

/-!
# Laying activations down

Frames lie one above the other without gaps: that is how they are pushed, and how a plan is carried
out. The activations of a plan are pushed outermost first, which puts the innermost one on top.
-/

namespace Bailout

/-! ### Stacks without gaps -/

/-- Each frame ends where its caller begins, and the oldest one at the end of the stack. -/
def Frame.Tiled : List Frame → Prop
  | [] => True
  | f :: fs => f.callerSp = (fs.head?.map Frame.sp).getD Thread.stackBase ∧ Tiled fs

namespace Thread

/-- The frames of a thread leave no gaps. -/
def Tiled (t : Thread) : Prop := Frame.Tiled t.stack

variable {t u : Thread} {words pc : Nat} {kind : FrameKind}

lemma Tiled.push (ht : t.Tiled) (h : t.push words pc kind = .ok u) : u.Tiled := by
  obtain ⟨-, sp, hsp, hstack⟩ := push_spec h
  rw [Tiled, hstack]
  exact ⟨hsp, ht⟩

lemma tiled_of_append {fs gs : List Frame} (h : Frame.Tiled (fs ++ gs)) : Frame.Tiled gs := by
  induction fs with
  | nil => exact h
  | cons f fs ih => exact ih h.2

lemma Tiled.dropStubs (ht : t.Tiled) : t.dropStubs.Tiled := by
  rw [Tiled, ← List.takeWhile_append_dropWhile (p := (·.kind.isStub)) (l := t.stack)] at ht
  exact tiled_of_append ht

lemma Tiled.sp_le (ht : t.Tiled) : t.sp ≤ stackBase := by
  unfold Tiled at ht
  unfold sp
  generalize t.stack = fs at ht
  induction fs with
  | nil => exact Nat.le_refl _
  | cons f fs ih => exact Nat.le_trans (Nat.le_add_right _ _) (ht.1 ▸ ih ht.2)

/-- A frame can be pushed as long as there is room for it. -/
lemma exists_push (t : Thread) (pc : Nat) (kind : FrameKind) (h : words ≤ t.sp) :
    t.push words pc kind = .ok { t with
      stack := ⟨t.lastFrameId + 1, t.sp - words, words, pc, kind⟩ :: t.stack
      lastFrameId := t.lastFrameId + 1 } := by
  rw [push, checkedSub_of_le h]
  rfl

end Thread

/-! ### Putting activations on a stack -/

namespace Unwind

variable {l : Layout} {mode : Mode} {t : Thread}

/-- A frame is an activation as it was planned: it has the planned words, resumes where it was
planned to, and holds the values of the packed activation. -/
structure Lays (l : Layout) (mode : Mode) (isTop : Bool) (p : Packed) (words pc : Nat)
    (g : Frame) : Prop where
  kind : g.kind = .interpreted (activate l p isTop mode)
  words : g.words = words
  pc : g.pc = pc

/-- Threads that differ only in their frames. -/
def SameButFrames (t u : Thread) : Prop :=
  u = { t with stack := u.stack, lastFrameId := u.lastFrameId }

lemma SameButFrames.trans {t u v : Thread} (h : SameButFrames t u) (h' : SameButFrames u v) :
    SameButFrames t v := by
  rw [SameButFrames] at *
  rw [h', h]

/-- Put one activation on the stack. -/
def put (l : Layout) (mode : Mode) (isTop : Bool) (t : Thread) (x : Packed × Nat × Nat) :
    Checked Thread :=
  t.push x.2.1 x.2.2 (.interpreted (activate l x.1 isTop mode))

/-- All activations but the last are laid down like callers, and the last one like the newest. -/
lemma lay_append (t : Thread) (xs : List (Packed × Nat × Nat)) (x : Packed × Nat × Nat) :
    lay l mode t (xs ++ [x]) = xs.foldlM (put l mode false) t >>= fun u => put l mode true u x := by
  induction xs generalizing t with
  | nil =>
    rw [List.foldlM_nil, List.nil_append, lay]
    exact bind_pure _
  | cons y ys ih =>
    rw [List.cons_append, lay, List.foldlM_cons, bind_assoc,
      show (ys ++ [x]).isEmpty = false by simp]
    exact congrArg _ (funext ih)

/-- One activation is put on the stack as long as there is room. -/
lemma exists_put (l : Layout) (mode : Mode) (isTop : Bool) (x : Packed × Nat × Nat)
    (h : x.2.1 ≤ t.sp) :
    ∃ u g, put l mode isTop t x = .ok u ∧ u.stack = g :: t.stack ∧
      Lays l mode isTop x.1 x.2.1 x.2.2 g ∧ u.sp + x.2.1 = t.sp ∧ SameButFrames t u :=
  ⟨_, _, Thread.exists_push t _ _ h, rfl, ⟨rfl, rfl, rfl⟩, Nat.sub_add_cancel h, rfl⟩

/-- Callers are put on the stack, the outermost one first, as long as there is room. -/
lemma exists_foldlM_put (l : Layout) (mode : Mode) (xs : List (Packed × Nat × Nat)) (t : Thread)
    (h : (xs.map (·.2.1)).sum ≤ t.sp) :
    ∃ u gs, xs.foldlM (put l mode false) t = .ok u ∧ u.stack = gs.reverse ++ t.stack ∧
      List.Forall₂ (fun x g => Lays l mode false x.1 x.2.1 x.2.2 g) xs gs ∧
      u.sp + (xs.map (·.2.1)).sum = t.sp ∧ SameButFrames t u := by
  induction xs generalizing t with
  | nil => exact ⟨t, [], rfl, rfl, .nil, rfl, rfl⟩
  | cons x xs ih =>
    rw [List.map_cons, List.sum_cons] at h
    obtain ⟨u, g, hu, hstack, hg, hsp, hsame⟩ := exists_put l mode false x
      (Nat.le_trans (Nat.le_add_right _ _) h)
    obtain ⟨v, gs, hv, hstack', hgs, hsp', hsame'⟩ := ih u (by omega)
    refine ⟨v, g :: gs, ?_, ?_, .cons hg hgs, ?_, hsame.trans hsame'⟩
    · rw [List.foldlM_cons, hu, ok_bind, hv]
    · rw [hstack', hstack, List.reverse_cons, List.append_assoc, List.singleton_append]
    · rw [List.map_cons, List.sum_cons]
      omega

/-- Activations that are listed innermost first are laid down one above the other, in the order of
the list, as long as there is room for all. -/
theorem exists_lay (l : Layout) (mode : Mode) (x : Packed × Nat × Nat)
    (xs : List (Packed × Nat × Nat)) (t : Thread) (h : ((x :: xs).map (·.2.1)).sum ≤ t.sp) :
    ∃ u g gs, lay l mode t (x :: xs).reverse = .ok u ∧ u.stack = g :: gs ++ t.stack ∧
      Lays l mode true x.1 x.2.1 x.2.2 g ∧
      List.Forall₂ (fun x g => Lays l mode false x.1 x.2.1 x.2.2 g) xs gs ∧
      u.sp + ((x :: xs).map (·.2.1)).sum = t.sp ∧ SameButFrames t u := by
  rw [List.map_cons, List.sum_cons] at h ⊢
  have hsum : (xs.reverse.map (·.2.1)).sum = (xs.map (·.2.1)).sum := by
    rw [List.map_reverse, List.sum_reverse]
  obtain ⟨u, gs, hu, hstack, hgs, hsp, hsame⟩ :=
    exists_foldlM_put l mode xs.reverse t (by omega)
  obtain ⟨v, g, hv, hstack', hg, hsp', hsame'⟩ := exists_put l mode true x
    (t := u) (by omega)
  refine ⟨v, g, gs.reverse, ?_, ?_, hg, ?_, by omega, hsame.trans hsame'⟩
  · rw [List.reverse_cons, lay_append, hu, ok_bind, hv]
  · rw [hstack', hstack, List.cons_append]
  · rwa [← List.forall₂_reverse_iff, List.reverse_reverse]

/-- What leaves no gaps still leaves none after activations were laid down. -/
theorem tiled_lay {xs : List (Packed × Nat × Nat)} {u : Thread} (ht : t.Tiled)
    (h : lay l mode t xs = .ok u) : u.Tiled := by
  induction xs generalizing t with
  | nil =>
    rw [lay, pure_eq_ok] at h
    exact h ▸ ht
  | cons x xs ih =>
    rw [lay, bind_eq_ok] at h
    obtain ⟨v, hv, h⟩ := h
    exact ih (ht.push hv) h

/-- Laying activations down changes nothing but frames. -/
lemma sameButFrames_lay {xs : List (Packed × Nat × Nat)} {u : Thread}
    (h : lay l mode t xs = .ok u) : SameButFrames t u := by
  induction xs generalizing t with
  | nil =>
    cases h
    rfl
  | cons x xs ih =>
    rw [lay, bind_eq_ok] at h
    obtain ⟨v, hv, h⟩ := h
    refine SameButFrames.trans ?_ (ih h)
    simp only [Thread.push, bind_eq_ok, pure_eq_ok] at hv
    obtain ⟨sp, -, rfl⟩ := hv
    rfl

lemma ne_of_mem_lay {xs : List (Packed × Nat × Nat)} {u : Thread} {id : Nat}
    (hid : id ≤ t.lastFrameId) (ht : ∀ f ∈ t.stack, f.id ≠ id) (h : lay l mode t xs = .ok u) :
    ∀ f ∈ u.stack, f.id ≠ id := by
  induction xs generalizing t with
  | nil =>
    cases h
    exact ht
  | cons x xs ih =>
    rw [lay, bind_eq_ok] at h
    obtain ⟨v, hv, h⟩ := h
    obtain ⟨hlast, sp, -, hstack⟩ := Thread.push_spec hv
    refine ih (by omega) ?_ h
    rw [hstack, List.forall_mem_cons]
    exact ⟨by simp only; omega, ht⟩

end Unwind
end Bailout
