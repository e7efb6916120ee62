import Bailout.Proofs.Restore.Reads

/-!
# Renaming of references

What an object is filled in with does not depend on which references stand for the others. If other
references do, the object holds those, and is the same otherwise.
-/

namespace Bailout

variable {ρ : Ref → Ref}

/-- Rename the reference in a word. -/
def Word.rename (ρ : Ref → Ref) : Word → Word
  | .raw w => .raw w
  | .ref o => .ref (o.map ρ)

@[simp] lemma Word.bits_rename (w : Word) : (w.rename ρ).bits = w.bits := by
  cases w <;> rfl

@[simp] lemma Word.object?_rename (w : Word) : (w.rename ρ).object? = w.object?.map ρ := by
  cases w <;> rfl

lemma Word.rename_eq_self {w : Word} (h : ∀ q, w.object? = some q → ρ q = q) : w.rename ρ = w := by
  cases w with
  | raw w => rfl
  | ref o =>
    cases o with
    | none => rfl
    | some q => exact congrArg (Word.ref ∘ some) (h q rfl)

@[simp] lemma BasicType.keep_rename (ty : BasicType) (w : Word) :
    ty.keep (w.rename ρ) = (ty.keep w).rename ρ := by
  unfold BasicType.keep
  split_ifs
  · rw [Word.object?_rename]
    rfl
  · rw [Word.bits_rename]
    rfl

/-- Rename the references in a body. -/
def Body.rename (ρ : Ref → Ref) : Body → Body
  | .fields ss => .fields (ss.map (Option.map (Word.rename ρ)))
  | .primitives es => .primitives es
  | .references es => .references (es.map (Option.map ρ))

namespace Restore

variable {f : CompiledFrame} {t t' : Restored} {d : Description} {fields : List (Field × Nat)}
  {rest ss : List Source} {x : Source}

/-- What each of some sources gives is renamed from one table to another. -/
def Renames (ρ : Ref → Ref) (f : CompiledFrame) (t t' : Restored) (ss : List Source) : Prop :=
  ∀ x ∈ ss, f.resolve t' x = Word.rename ρ <$> f.resolve t x

lemma Renames.eq_ok {v : Word} (h : Renames ρ f t t' ss) (hx : x ∈ ss)
    (hv : f.resolve t x = .ok v) : f.resolve t' x = .ok (v.rename ρ) := by
  rw [h x hx, hv]
  rfl

lemma Renames.mono (h : Renames ρ f t t' ss) (hrest : rest ⊆ ss) : Renames ρ f t t' rest :=
  fun x hx => h x (hrest hx)

/-! ### Fields -/

/-- The words for the slots are renamed along with what the sources give. -/
lemma ReadsFields.rename {ws : List (Nat × Word)} (h : ReadsFields f t d fields rest ws)
    (hrest : Renames ρ f t t' rest) :
    ReadsFields f t' d fields rest (ws.map (Prod.map id (Word.rename ρ))) := by
  induction h with
  | nil => exact .nil
  | @single x fields s rest v ws hx hs hv _ ih =>
    have hread := ReadsFields.single hx hs (hrest.eq_ok (by simp) hv) (ih (hrest.mono (by simp)))
    rw [BasicType.keep_rename] at hread
    exact hread
  | @wide x fields dummy s rest v ws hx hv _ ih =>
    have hread := @ReadsFields.wide f t' d x fields dummy s rest _ _ hx (hrest.eq_ok (by simp) hv)
      (ih (hrest.mono (by simp)))
    rw [BasicType.keep_rename] at hread
    exact hread
  | pair hs hv _ ih =>
    have hread := ReadsFields.pair hs (hrest.eq_ok (by simp) hv) (ih (hrest.mono (by simp)))
    rw [Word.bits_rename] at hread
    exact hread

lemma writeSlots_rename (slots : Array (Option Word)) (ws : List (Nat × Word)) :
    writeSlots (slots.map (Option.map (Word.rename ρ))) (ws.map (Prod.map id (Word.rename ρ))) =
      (writeSlots slots ws).map (Option.map (Word.rename ρ)) := by
  unfold writeSlots
  induction ws generalizing slots with
  | nil => rfl
  | cons w ws ih =>
    rw [List.map_cons, List.foldl_cons, List.foldl_cons, ← ih, Array.map_setIfInBounds]
    rfl

/-! ### Elements -/

lemma referenceElements_rename {os : List (Option Ref)} (h : Renames ρ f t t' d.sources)
    (hos : referenceElements f t d = .ok os) :
    referenceElements f t' d = .ok (os.map (Option.map ρ)) := by
  have hall := mapM_eq_ok.1 hos
  refine mapM_eq_ok.2 ?_
  clear hos
  generalize d.sources = ss at h hall ⊢
  induction hall with
  | nil => exact .nil
  | cons hs _ ih =>
    obtain ⟨v, hv, hs⟩ := bind_eq_ok.1 hs
    cases hs
    refine .cons ?_ (ih (h.mono (by simp)))
    rw [h.eq_ok (by simp) hv]
    exact congrArg Except.ok v.object?_rename

/-! ### Objects -/

/-- What an object is filled in with is renamed along with what stands for the others. -/
theorem filledBody_rename {b b' : Body} (h : Renames ρ f t t' d.sources)
    (hb : filledBody f t d b = .ok b') :
    filledBody f t' d (b.rename ρ) = .ok (b'.rename ρ) := by
  unfold filledBody at hb ⊢
  cases hd : d.klass with
  | primitiveArray ty box =>
    simp only [hd, bind_eq_ok, pure_eq_ok] at hb ⊢
    obtain ⟨es, hes, rfl⟩ := hb
    exact ⟨es, (primitiveElements_congr bits_resolve).trans hes, rfl⟩
  | referenceArray name box =>
    simp only [hd, bind_eq_ok, pure_eq_ok] at hb ⊢
    obtain ⟨os, hos, rfl⟩ := hb
    exact ⟨_, referenceElements_rename h hos, by simp [Body.rename]⟩
  | base | derived =>
    simp only [hd, bind_eq_ok, assignments_eq_ok_iff] at hb ⊢
    obtain ⟨ws, hws, hb⟩ := hb
    refine ⟨_, hws.rename h, ?_⟩
    cases b with
    | fields slots =>
      cases hb
      exact congrArg (Except.ok ∘ Body.fields) (writeSlots_rename slots ws)
    | primitives | references =>
      cases hb
      rfl

end Restore
end Bailout
