import Mathlib.Algebra.GroupWithZero.Nat
import Mathlib.Data.List.Count
import Mathlib.Data.List.Nodup

/-!
# Counting

How many elements of a list have a property, counted in parts that add up, and sums of numbers of
which one is changed.
-/

namespace Bailout

variable {α β : Type} {l : List α} {f g h : α → Bool} {p : Nat → Bool} {i k n : Nat}

/-- What has a property has just one of two others, and the counts add up. -/
lemma countP_add (hsum : ∀ a ∈ l, (h a).toNat = (f a).toNat + (g a).toNat) :
    l.countP h = l.countP f + l.countP g := by
  induction l with
  | nil => rfl
  | cons a l ih =>
    have hl := ih fun b hb => hsum b (List.mem_cons_of_mem _ hb)
    have hone : ∀ b : Bool, (if b = true then 1 else 0) = b.toNat := fun b => by cases b <;> rfl
    rw [List.countP_cons, List.countP_cons, List.countP_cons, hl, hone, hone, hone,
      hsum a List.mem_cons_self]
    omega

/-- Only numbers below a bound can have a property. -/
lemma countP_range_of_le (hn : n ≤ k) (hp : ∀ r, n ≤ r → p r = false) :
    (List.range k).countP p = (List.range n).countP p := by
  induction hn with
  | refl => rfl
  | @step k hk ih =>
    rw [List.range_succ, List.countP_append, ih, List.countP_singleton, hp k hk]
    rfl

/-- Only one number can have a property. -/
lemma countP_range_single (hi : i < n) (hp : ∀ r, r ≠ i → p r = false) :
    (List.range n).countP p = (p i).toNat := by
  have hbelow : (List.range i).countP p = 0 :=
    List.countP_eq_zero.2 fun r hr => by simp [hp r (Nat.ne_of_lt (List.mem_range.1 hr))]
  rw [countP_range_of_le hi fun r hr => hp r (Nat.ne_of_gt hr), List.range_succ,
    List.countP_append, hbelow, List.countP_singleton, Nat.zero_add]
  cases p i <;> rfl

/-- Elements are counted key by key. -/
lemma sum_map_countP [DecidableEq β] {bs : List β} (hbs : bs.Nodup) (key : α → β) (f : α → Bool)
    (l : List α) : (bs.map fun b => l.countP fun a => key a = b && f a).sum =
      l.countP fun a => decide (key a ∈ bs) && f a := by
  induction bs with
  | nil => simp
  | cons b bs ih =>
    obtain ⟨hb, hbs⟩ := List.nodup_cons.1 hbs
    rw [List.map_cons, List.sum_cons, ih hbs, eq_comm]
    refine countP_add fun a _ => ?_
    by_cases hkey : key a = b
    · simp [hkey, hb]
    · simp [hkey]

lemma sum_set_add_getElem {l : List Nat} {n a : Nat} (h : n < l.length) :
    (l.set n a).sum + l[n] = l.sum + a := by
  induction l generalizing n with
  | nil => cases h
  | cons b l ih =>
    cases n with
    | zero =>
      simp only [List.set_cons_zero, List.sum_cons, List.getElem_cons_zero]
      omega
    | succ n =>
      have hl := ih (Nat.lt_of_succ_lt_succ h)
      simp only [List.set_cons_succ, List.sum_cons, List.getElem_cons_succ]
      omega

end Bailout
