import Mathlib.Algebra.GroupWithZero.Nat
import Mathlib.Data.List.Forall2
import Mathlib.Data.List.Induction
import Mathlib.Tactic.Common
import Bailout.Fault

/-!
# Checked results

When a composition of checked operations succeeds: each of its steps does. Everything that is said
about an operation that can stop is taken apart with these laws.
-/

namespace Bailout

variable {α β γ δ : Type}

@[simp] lemma bind_eq_ok {x : Checked α} {f : α → Checked β} {b : β} :
    (x >>= f) = .ok b ↔ ∃ a, x = .ok a ∧ f a = .ok b := by
  cases x <;> simp [bind, Except.bind]

/-- After a check that gives nothing back comes what would come without it. -/
lemma check_bind_eq_ok {x : Checked Unit} {y : Checked β} {b : β} :
    (x >>= fun _ => y) = .ok b ↔ x = .ok () ∧ y = .ok b := by
  rw [bind_eq_ok]
  exact ⟨fun ⟨_, hx, hy⟩ => ⟨hx, hy⟩, fun ⟨hx, hy⟩ => ⟨(), hx, hy⟩⟩

@[simp] lemma pure_eq_ok {a b : α} : (pure a : Checked α) = .ok b ↔ a = b := by
  simp [pure, Except.pure]

@[simp] lemma fatal_ne_ok {v : Violation} {a : α} : (fatal v : Checked α) ≠ .ok a := by
  simp [fatal]

@[simp] lemma guarantee_eq_ok {b : Bool} {v : Violation} {u : Unit} :
    guarantee b v = .ok u ↔ b = true := by
  cases b <;> simp [guarantee]

@[simp] lemma ensure_eq_ok {b : Bool} {a : Assertion} {u : Unit} :
    ensure b a = .ok u ↔ b = true := by
  cases b <;> simp [ensure]

@[simp] lemma checkedAdd_eq_ok {a b c : Nat} :
    checkedAdd a b = .ok c ↔ a + b < wordLimit ∧ a + b = c := by
  unfold checkedAdd
  split_ifs with h <;> simp [h]

@[simp] lemma checkedSub_eq_ok {a b c : Nat} :
    checkedSub a b = .ok c ↔ b ≤ a ∧ a - b = c := by
  unfold checkedSub
  split_ifs with h <;> simp [h]

lemma checkedMul_eq_ok {a b c : Nat} :
    checkedMul a b = .ok c ↔ a * b < wordLimit ∧ a * b = c := by
  unfold checkedMul
  split_ifs with h <;> simp [h]

/-- A sum can be computed if it is a machine word. -/
lemma foldrM_checkedAdd_eq_ok {ns : List Nat} {n : Nat} :
    ns.foldrM checkedAdd 0 = .ok n ↔ ns.sum < wordLimit ∧ ns.sum = n := by
  induction ns generalizing n with
  | nil => simp [wordLimit, pure, Except.pure]
  | cons k ns ih =>
    simp only [List.foldrM_cons, bind_eq_ok, ih, checkedAdd_eq_ok, List.sum_cons]
    constructor
    · rintro ⟨_, ⟨_, rfl⟩, hlt, rfl⟩
      exact ⟨hlt, rfl⟩
    · rintro ⟨hlt, rfl⟩
      exact ⟨_, ⟨Nat.lt_of_le_of_lt (Nat.le_add_left _ _) hlt, rfl⟩, hlt, rfl⟩

/-- What is on the right of a pointwise relation has something on the left. -/
lemma exists_mem_of_forall₂ {R : α → β → Prop} {as : List α} {bs : List β}
    (h : List.Forall₂ R as bs) {b : β} (hb : b ∈ bs) : ∃ a ∈ as, R a b := by
  induction h with
  | nil => cases hb
  | cons hr _ ih =>
    rcases List.mem_cons.1 hb with rfl | hb
    · exact ⟨_, List.mem_cons_self, hr⟩
    · obtain ⟨a, ha, hr⟩ := ih hb
      exact ⟨a, List.mem_cons_of_mem _ ha, hr⟩

/-- What is on the left of a pointwise relation has something at its place on the right. -/
lemma exists_getElem?_of_forall₂ {R : α → β → Prop} {as : List α} {bs : List β}
    (h : List.Forall₂ R as bs) {i : Nat} {a : α} (ha : as[i]? = some a) :
    ∃ b, bs[i]? = some b ∧ R a b := by
  induction h generalizing i with
  | nil => simp at ha
  | cons hr _ ih =>
    cases i with
    | zero =>
      cases ha
      exact ⟨_, rfl, hr⟩
    | succ i => exact ih ha

/-- Going through a list succeeds if it does at every element. -/
lemma mapM_eq_ok {f : α → Checked β} {as : List α} {bs : List β} :
    as.mapM f = .ok bs ↔ List.Forall₂ (fun a b => f a = .ok b) as bs := by
  induction as generalizing bs with
  | nil =>
    rw [List.mapM_nil, pure_eq_ok, List.forall₂_nil_left_iff]
    exact eq_comm
  | cons a as ih =>
    rw [List.mapM_cons, bind_eq_ok, List.forall₂_cons_left_iff]
    constructor
    · rintro ⟨b, hb, h⟩
      obtain ⟨bs', hbs, rfl⟩ := by simpa only [bind_eq_ok, pure_eq_ok] using h
      exact ⟨b, bs', hb, ih.1 hbs, rfl⟩
    · rintro ⟨b, bs', hb, hbs, rfl⟩
      exact ⟨b, hb, bind_eq_ok.2 ⟨bs', ih.2 hbs, rfl⟩⟩

lemma exists_mapM_eq_ok {f : α → Checked β} {as : List α} (h : ∀ a ∈ as, ∃ b, f a = .ok b) :
    ∃ bs, as.mapM f = .ok bs := by
  induction as with
  | nil => exact ⟨[], rfl⟩
  | cons a as ih =>
    obtain ⟨b, hb⟩ := h a List.mem_cons_self
    obtain ⟨bs, hbs⟩ := ih fun a' ha' => h a' (List.mem_cons_of_mem _ ha')
    exact ⟨b :: bs, mapM_eq_ok.2 (.cons hb (mapM_eq_ok.1 hbs))⟩

lemma ok_bind (a : α) (f : α → Checked β) : ((.ok a : Checked α) >>= f) = f a := rfl

/-! ### Folds -/

/-- What holds at first and is kept by each step of a fold holds of what the fold comes to. It may
speak of the elements that were visited so far. -/
lemma foldlM_induction {f : β → α → Checked β} {as : List α} {b b' : β} (I : List α → β → Prop)
    (hnil : I [] b) (hstep : ∀ pre a b b', I pre b → f b a = .ok b' → I (pre ++ [a]) b')
    (h : as.foldlM f b = .ok b') : I as b' := by
  induction as using List.reverseRecOn generalizing b' with
  | nil =>
    cases h
    exact hnil
  | append_singleton as a ih =>
    rw [List.foldlM_append, bind_eq_ok] at h
    obtain ⟨b₁, h₁, h⟩ := h
    rw [List.foldlM_cons, bind_eq_ok] at h
    obtain ⟨b₂, h₂, h⟩ := h
    cases h
    exact hstep as a b₁ _ (ih h₁) h₂

/-- A fold comes to something if every step does that is taken after the ones before it. -/
lemma exists_foldlM {f : β → α → Checked β} {as : List α} {b : β}
    (hstep : ∀ pre a post b', as = pre ++ a :: post → pre.foldlM f b = .ok b' →
      ∃ c, f b' a = .ok c) : ∃ b', as.foldlM f b = .ok b' := by
  induction as using List.reverseRecOn with
  | nil => exact ⟨b, rfl⟩
  | append_singleton as a ih =>
    obtain ⟨b₁, h₁⟩ := ih fun pre x post b' hpre => hstep pre x (post ++ [a]) b' (by simp [hpre])
    obtain ⟨b₂, h₂⟩ := hstep as a [] b₁ rfl h₁
    exact ⟨b₂, by rw [List.foldlM_append, h₁, ok_bind, List.foldlM_cons, h₂, ok_bind]; rfl⟩

/-- Every step of a fold that comes to something does. -/
lemma exists_of_mem_of_foldlM {f : β → α → Checked β} {as : List α} {b b' : β}
    (h : as.foldlM f b = .ok b') {a : α} (ha : a ∈ as) : ∃ b₁ b₂, f b₁ a = .ok b₂ := by
  refine foldlM_induction (fun pre _ => ∀ a ∈ pre, ∃ b₁ b₂, f b₁ a = .ok b₂) (by simp) ?_ h a ha
  intro pre x b₁ b₂ hpre hx y hy
  rcases List.mem_append.1 hy with hy | hy
  · exact hpre y hy
  · obtain rfl := List.mem_singleton.1 hy
    exact ⟨b₁, b₂, hx⟩

/-- A fold over states that are seen in another way comes to what is seen of the fold. -/
lemma foldlM_map_state {f : β → α → Checked β} {g : γ → α → Checked γ} (φ : β → γ)
    (h : ∀ b a, g (φ b) a = φ <$> f b a) (as : List α) (b : β) :
    as.foldlM g (φ b) = φ <$> as.foldlM f b := by
  induction as generalizing b with
  | nil => rfl
  | cons a as ih =>
    rw [List.foldlM_cons, List.foldlM_cons, h, map_bind, bind_map_left]
    exact congrArg _ (funext fun b => ih b)

/-! ### Computations that succeed together -/

/-- If one computation comes to something, so does the other. -/
def Entails (x : Checked α) (y : Checked β) : Prop := (∃ a, x = .ok a) → ∃ b, y = .ok b

namespace Entails

variable {x : Checked α} {y : Checked β}

lemma refl (x : Checked α) : Entails x x := id

lemma pure (a : α) (b : β) : Entails (pure a) (pure b) := fun _ => ⟨b, rfl⟩

lemma bind {f : α → Checked γ} {g : β → Checked δ} (h : Entails x y)
    (hf : ∀ a b, x = .ok a → y = .ok b → Entails (f a) (g b)) : Entails (x >>= f) (y >>= g) := by
  rintro ⟨c, hc⟩
  obtain ⟨a, ha, hc⟩ := bind_eq_ok.1 hc
  obtain ⟨b, hb⟩ := h ⟨a, ha⟩
  obtain ⟨e, he⟩ := hf a b ha hb ⟨c, hc⟩
  exact ⟨e, bind_eq_ok.2 ⟨b, hb, he⟩⟩

lemma mapM {f : γ → Checked α} {g : γ → Checked β} {cs : List γ}
    (h : ∀ c ∈ cs, Entails (f c) (g c)) : Entails (cs.mapM f) (cs.mapM g) := by
  rintro ⟨as, has⟩
  refine exists_mapM_eq_ok fun c hc => h c hc ?_
  obtain ⟨a, -, ha⟩ := exists_mem_of_forall₂ (mapM_eq_ok.1 has).flip hc
  exact ⟨a, ha⟩

end Entails

end Bailout
