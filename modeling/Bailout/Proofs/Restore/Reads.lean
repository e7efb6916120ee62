import Bailout.Proofs.Restore.Portions

/-!
# Sources of fields

Which sources the fields of an instance have their values from. Every source is read once, in order:
one for a field, and two for a long, a double or two ints that are written as one value. This is all
there is to say about reading them, and a frame matters for what its sources give only. That each of
them can be read does not depend on what stands for eliminated objects.
-/

namespace Bailout.Restore

variable {f f' : CompiledFrame} {t t' : Restored} {d : Description} {fields : List (Field × Nat)}
  {rest ss : List Source} {ws : List (Nat × Word)} {x : Field × Nat} {s : Source}

/-- The words that the fields of an instance have from their sources, each with its slot. -/
inductive ReadsFields (f : CompiledFrame) (t : Restored) (d : Description) :
    List (Field × Nat) → List Source → List (Nat × Word) → Prop
  | nil : ReadsFields f t d [] [] []
  | single {x : Field × Nat} {fields : List (Field × Nat)} {s : Source} {rest : List Source}
      {v : Word} {ws : List (Nat × Word)} (hx : x.1.type.slots = 1)
      (hs : sharesNext d x fields (s :: rest) = .ok false) (hv : f.resolve t s = .ok v)
      (h : ReadsFields f t d fields rest ws) :
      ReadsFields f t d (x :: fields) (s :: rest) ((x.2, x.1.type.keep v) :: ws)
  | wide {x : Field × Nat} {fields : List (Field × Nat)} {dummy s : Source} {rest : List Source}
      {v : Word} {ws : List (Nat × Word)} (hx : x.1.type.slots = 2) (hv : f.resolve t s = .ok v)
      (h : ReadsFields f t d fields rest ws) :
      ReadsFields f t d (x :: fields) (dummy :: s :: rest) ((x.2, x.1.type.keep v) :: ws)
  | pair {x y : Field × Nat} {fields : List (Field × Nat)} {dummy s : Source} {rest : List Source}
      {v : Word} {ws : List (Nat × Word)}
      (hs : sharesNext d x (y :: fields) (dummy :: s :: rest) = .ok true)
      (hv : f.resolve t s = .ok v) (h : ReadsFields f t d fields rest ws) :
      ReadsFields f t d (x :: y :: fields) (dummy :: s :: rest)
        ((x.2, .raw (lowHalf v.bits)) :: (y.2, .raw (highHalf v.bits)) :: ws)

/-- Every field gets a word, in its slot. -/
lemma ReadsFields.map_fst (h : ReadsFields f t d fields rest ws) :
    ws.map Prod.fst = fields.map Prod.snd := by
  induction h with
  | nil => rfl
  | single _ _ _ _ ih | wide _ _ _ ih | pair _ _ _ ih => simp only [List.map_cons, ih]

/-- Only an int or a float may share a value. -/
lemma sharesNext_of_ne (hint : x.1.type ≠ .int) (hfloat : x.1.type ≠ .float) :
    sharesNext d x fields rest = .ok false := by
  cases fields with
  | nil => rfl
  | cons y fields =>
    rw [sharesNext, if_neg (by simp [hint, hfloat])]
    rfl

/-- It shares one with an int only. -/
lemma sharesNext_cons_of_ne {y : Field × Nat} (hy : y.1.type ≠ .int) :
    sharesNext d x (y :: fields) rest = .ok false := by
  rw [sharesNext, if_neg (by simp [hy])]
  rfl

lemma sharesNext_cons {y : Field × Nat} (hx : x.1.type = .int ∨ x.1.type = .float)
    (hy : y.1.type = .int) : sharesNext d x (y :: fields) rest = startsPair d rest := by
  rw [sharesNext, if_pos ⟨hx, hy⟩]

namespace ReadsFields

variable {v w : Word}

lemma single_of_getElem? (hx : x.1.type.slots = 1) (hs : rest[0]? = some s)
    (hshares : sharesNext d x fields rest = .ok false) (hv : f.resolve t s = .ok v)
    (hw : x.1.type.keep v = w) (h : ReadsFields f t d fields (rest.drop 1) ws) :
    ReadsFields f t d (x :: fields) rest ((x.2, w) :: ws) := by
  subst hw
  cases rest with
  | nil => cases hs
  | cons z rest =>
    cases hs
    exact .single hx hshares hv h

lemma wide_of_getElem? (hx : x.1.type.slots = 2) (hs : rest[1]? = some s)
    (hv : f.resolve t s = .ok v) (hw : x.1.type.keep v = w)
    (h : ReadsFields f t d fields (rest.drop 2) ws) :
    ReadsFields f t d (x :: fields) rest ((x.2, w) :: ws) := by
  subst hw
  match rest with
  | [] => cases hs
  | [_] => cases hs
  | dummy :: z :: rest =>
    cases hs
    exact .wide hx hv h

lemma pair_of_getElem? {y : Field × Nat} (hs : rest[1]? = some s)
    (hshares : sharesNext d x (y :: fields) rest = .ok true) (hv : f.resolve t s = .ok v)
    (h : ReadsFields f t d fields (rest.drop 2) ws) :
    ReadsFields f t d (x :: y :: fields) rest
      ((x.2, .raw (lowHalf v.bits)) :: (y.2, .raw (highHalf v.bits)) :: ws) := by
  match rest with
  | [] => cases hs
  | [_] => cases hs
  | dummy :: z :: rest =>
    cases hs
    exact .pair hshares hv h

end ReadsFields

theorem readsFields_of_assignments (h : assignments f t d fields rest = .ok ws) :
    ReadsFields f t d fields rest ws := by
  induction fields, rest using assignments.induct f t d generalizing ws with
  | case1 rest =>
    simp only [assignments, bind_eq_ok, pure_eq_ok, ensure_eq_ok, List.isEmpty_iff] at h
    obtain ⟨_, rfl, rfl⟩ := h
    exact .nil
  | case2 y slot fields rest hy ih | case3 y slot fields rest hy ih
  | case12 y slot fields rest hy ih | case13 y slot fields rest hy ih
  | case14 y slot fields rest hy ih | case15 y slot fields rest hy ih =>
    rw [assignments.eq_def] at h
    simp only [hy, bind_eq_ok, pure_eq_ok, sourceAt_eq_ok] at h
    obtain ⟨v, ⟨s, hs, hv⟩, ws', hws, rfl⟩ := h
    exact .single_of_getElem? (by rw [hy]; rfl) hs (sharesNext_of_ne (by simp [hy]) (by simp [hy]))
      hv (by rw [hy]; rfl) (ih hws)
  | case10 y slot fields rest hy ih | case11 y slot fields rest hy ih =>
    rw [assignments.eq_def] at h
    simp only [hy, bind_eq_ok, pure_eq_ok, sourceAt_eq_ok] at h
    obtain ⟨v, ⟨s, hs, hv⟩, ws', hws, rfl⟩ := h
    exact .wide_of_getElem? (by rw [hy]; rfl) hs hv (by rw [hy]; rfl) (ih hws)
  | case4 y slot rest hy z next more hz ih ih' | case7 y slot rest hy z next more hz ih ih' =>
    have hshares : sharesNext d (y, slot) ((z, next) :: more) rest = startsPair d rest :=
      sharesNext_cons (by simp [hy]) hz
    rw [assignments.eq_def] at h
    simp only [hy, hz, if_true, bind_eq_ok] at h
    obtain ⟨pair, hpair, h⟩ := h
    split_ifs at h with hp
    · simp only [bind_eq_ok, pure_eq_ok, sourceAt_eq_ok] at h
      obtain ⟨v, ⟨s, hs, hv⟩, ws', hws, rfl⟩ := h
      exact .pair_of_getElem? hs (hshares.trans (hp ▸ hpair)) hv (ih' hws)
    · simp only [bind_eq_ok, pure_eq_ok, sourceAt_eq_ok] at h
      obtain ⟨v, ⟨s, hs, hv⟩, ws', hws, rfl⟩ := h
      rw [Bool.not_eq_true] at hp
      exact .single_of_getElem? (by rw [hy]; rfl) hs (hshares.trans (hp ▸ hpair)) hv
        (by rw [hy]; rfl) (ih hws)
  | case5 y slot rest hy z next more hz ih | case8 y slot rest hy z next more hz ih =>
    rw [assignments.eq_def] at h
    simp only [hy, hz, if_false, bind_eq_ok, pure_eq_ok, sourceAt_eq_ok] at h
    obtain ⟨v, ⟨s, hs, hv⟩, ws', hws, rfl⟩ := h
    exact .single_of_getElem? (by rw [hy]; rfl) hs (sharesNext_cons_of_ne hz) hv (by rw [hy]; rfl)
      (ih hws)
  | case6 y slot rest hy ih | case9 y slot rest hy ih =>
    rw [assignments.eq_def] at h
    simp only [hy, bind_eq_ok, pure_eq_ok, sourceAt_eq_ok] at h
    obtain ⟨v, ⟨s, hs, hv⟩, ws', hws, rfl⟩ := h
    exact .single_of_getElem? (by rw [hy]; rfl) hs rfl hv (by rw [hy]; rfl) (ih hws)
  | case16 y slot fields rest hy | case17 y slot fields rest hy =>
    rw [assignments.eq_def] at h
    simp [hy] at h

lemma assignments_of_readsFields (h : ReadsFields f t d fields rest ws) :
    assignments f t d fields rest = .ok ws := by
  induction h with
  | nil => rfl
  | single hx hs hv _ ih =>
    rw [assignments_single hx hs, hv, ih]
    rfl
  | wide hx hv _ ih =>
    rw [assignments_wide hx, hv, ih]
    rfl
  | pair hs hv _ ih =>
    rw [assignments_pair hs, hv, ih]
    rfl

/-- What fields are assigned is what they have from their sources. -/
theorem assignments_eq_ok_iff : assignments f t d fields rest = .ok ws ↔
    ReadsFields f t d fields rest ws :=
  ⟨readsFields_of_assignments, assignments_of_readsFields⟩

lemma firstSource_succ (i : Nat) :
    firstSource (x :: fields) (i + 1) = x.1.type.slots + firstSource fields i := by
  simp [firstSource]

/-- Fields that share a value are no references, and take one slot each. -/
lemma types_of_sharesNext {y : Field × Nat} (hs : sharesNext d x (y :: fields) rest = .ok true) :
    (x.1.type = .int ∨ x.1.type = .float) ∧ y.1.type = .int := by
  rw [sharesNext] at hs
  split_ifs at hs with hxy
  · exact hxy
  · cases hs

lemma slots_of_isReference {ty : BasicType} (h : ty.isReference = true) : ty.slots = 1 := by
  cases ty with
  | object | array => rfl
  | _ => cases h

/-- The field of a reference has a first source, and its word refers to what that refers to. -/
lemma ReadsFields.exists_mem {i slot : Nat} {field : Field} (h : ReadsFields f t d fields rest ws)
    (hfield : fields[i]? = some (field, slot)) (ht : field.type.isReference = true) :
    ∃ x v, rest[firstSource fields i]? = some x ∧ f.resolve t x = .ok v ∧
      (slot, .ref v.object?) ∈ ws := by
  induction h generalizing i with
  | nil => simp at hfield
  | @single y fields s rest w ws hy hs hw _ ih =>
    cases i with
    | zero =>
      cases hfield
      refine ⟨s, w, rfl, hw, ?_⟩
      rw [BasicType.keep, if_pos ht]
      exact List.mem_cons_self
    | succ i =>
      obtain ⟨x, v, hx, hv, hmem⟩ := ih hfield
      refine ⟨x, v, ?_, hv, List.mem_cons_of_mem _ hmem⟩
      rwa [firstSource_succ, hy, Nat.add_comm]
  | @wide y fields dummy s rest w ws hy hw _ ih =>
    cases i with
    | zero =>
      cases hfield
      exact absurd (hy.symm.trans (slots_of_isReference ht)) (by decide)
    | succ i =>
      obtain ⟨x, v, hx, hv, hmem⟩ := ih hfield
      refine ⟨x, v, ?_, hv, List.mem_cons_of_mem _ hmem⟩
      rwa [firstSource_succ, hy, Nat.add_comm]
  | @pair y z fields dummy s rest w ws hs hw _ ih =>
    obtain ⟨hy, hz⟩ := types_of_sharesNext hs
    match i with
    | 0 =>
      cases hfield
      rcases hy with hy | hy
      · rw [show field.type = .int from hy] at ht
        cases ht
      · rw [show field.type = .float from hy] at ht
        cases ht
    | 1 =>
      cases hfield
      rw [show field.type = .int from hz] at ht
      cases ht
    | i + 2 =>
      obtain ⟨x, v, hx, hv, hmem⟩ := ih hfield
      refine ⟨x, v, ?_, hv, List.mem_cons_of_mem _ (List.mem_cons_of_mem _ hmem)⟩
      have hslots : y.1.type.slots = 1 := by
        rcases hy with hy | hy
        · rw [hy]
          rfl
        · rw [hy]
          rfl
      have hfirst : firstSource (y :: z :: fields) (i + 2) = firstSource fields i + 1 + 1 := by
        rw [firstSource_succ, firstSource_succ, hslots, hz]
        simp only [BasicType.slots]
        omega
      rwa [hfirst]

/-- The body of an instance that was filled in, from one that had a slot for every field. -/
lemma target?_of_instance (hk : d.klass.isInstance = true)
    (h : filledBody f t d (.fields slots) = .ok b') (hsize : slots.size = d.klass.slotCount)
    {field : Field}
    (hfield : (visibleFields d.klass f.region.seesInjected)[i]? = some (field, slot))
    (ht : field.type.isReference = true) :
    ∃ x v, d.sources[firstSource (visibleFields d.klass f.region.seesInjected) i]? = some x ∧
      f.resolve t x = .ok v ∧ b'.target? slot = v.object? := by
  obtain ⟨ws, hws, rfl⟩ := exists_assignments_of_filledBody hk h
  have hread := assignments_eq_ok_iff.1 hws
  obtain ⟨x, v, hx, hv, hmem⟩ := hread.exists_mem hfield ht
  have hlt := lt_of_mem_visibleFields (List.mem_of_getElem? hfield)
  refine ⟨x, v, hx, hv, ?_⟩
  rw [Body.target?, writeSlots_of_mem (hread.map_fst ▸ nodup_visibleFields _ _) hmem
    (hsize ▸ hlt)]
  rfl

/-- The same fields are read wherever the same sources have a value. -/
lemma ReadsFields.exists_of_resolve (h : ReadsFields f t d fields rest ws)
    (hall : ∀ s v, f.resolve t s = .ok v → ∃ v', f.resolve t' s = .ok v') :
    ∃ ws', ReadsFields f t' d fields rest ws' := by
  induction h with
  | nil => exact ⟨_, .nil⟩
  | single hx hs hv _ ih =>
    obtain ⟨v', hv'⟩ := hall _ _ hv
    obtain ⟨ws', h'⟩ := ih
    exact ⟨_, .single hx hs hv' h'⟩
  | wide hx hv _ ih =>
    obtain ⟨v', hv'⟩ := hall _ _ hv
    obtain ⟨ws', h'⟩ := ih
    exact ⟨_, .wide hx hv' h'⟩
  | pair hs hv _ ih =>
    obtain ⟨v', hv'⟩ := hall _ _ hv
    obtain ⟨ws', h'⟩ := ih
    exact ⟨_, .pair hs hv' h'⟩

/-! ### Sources that give the same -/

/-- What fields are assigned depends on a frame in what its sources give only. -/
lemma assignments_congr (h : ∀ x, f'.resolve t' x = f.resolve t x) :
    assignments f' t' d fields rest = assignments f t d fields rest := by
  induction fields, rest using assignments.induct f t d with
  | case1 rest => rw [assignments, assignments]
  | case2 y slot fields rest hy ih | case3 y slot fields rest hy ih
  | case6 y slot rest hy ih | case9 y slot rest hy ih
  | case10 y slot fields rest hy ih | case11 y slot fields rest hy ih
  | case12 y slot fields rest hy ih | case13 y slot fields rest hy ih
  | case14 y slot fields rest hy ih | case15 y slot fields rest hy ih =>
    rw [assignments.eq_def f', assignments.eq_def f]
    simp only [hy, h, ih]
  | case4 y slot rest hy z next more hz ih ih' | case7 y slot rest hy z next more hz ih ih' =>
    rw [assignments.eq_def f', assignments.eq_def f]
    simp only [hy, hz, if_true, h, ih, ih']
  | case5 y slot rest hy z next more hz ih | case8 y slot rest hy z next more hz ih =>
    rw [assignments.eq_def f', assignments.eq_def f]
    simp only [hy, hz, if_false, h, ih]
  | case16 y slot fields rest hy | case17 y slot fields rest hy =>
    rw [assignments.eq_def f', assignments.eq_def f]
    simp only [hy]

/-- The bits of a source do not depend on what stands for eliminated objects. -/
lemma bits_resolve (x : Source) :
    Word.bits <$> f.resolve t' x = Word.bits <$> f.resolve t x := by
  cases x <;> rfl

lemma bits_cons (g : Int64 → List Int64) {r r' : Checked (List Int64)}
    (hs : Word.bits <$> f'.resolve t' s = Word.bits <$> f.resolve t s) (hr : r' = r) :
    (do let w ← f'.resolve t' s; return g w.bits ++ (← r')) =
      (do let w ← f.resolve t s; return g w.bits ++ (← r)) := by
  subst hr
  have hbits := congrArg (· >>= fun b => do return g b ++ (← r')) hs
  simpa only [bind_map_left] using hbits

section Bits

variable (h : ∀ x, Word.bits <$> f'.resolve t' x = Word.bits <$> f.resolve t x)
include h

lemma wideElements_congr : wideElements f' t' d ss = wideElements f t d ss := by
  induction ss using wideElements.induct with
  | case1 => rfl
  | case2 s => rfl
  | case3 s s' rest ih => exact bits_cons (fun w => [w]) (h s') ih

lemma intElements_congr : intElements f' t' d ss = intElements f t d ss := by
  induction ss using intElements.induct f t d with
  | case1 => rw [intElements, intElements]
  | case2 s ih =>
    rw [intElements.eq_def f, intElements.eq_def f']
    exact bits_cons (fun w => [lowHalf w]) (h s) ih
  | case3 s s' rest ih ih' =>
    rw [intElements.eq_def f, intElements.eq_def f']
    refine bind_congr fun pair => ?_
    cases pair with
    | true => exact bits_cons (fun w => [lowHalf w, highHalf w]) (h s') ih'
    | false => exact bits_cons (fun w => [lowHalf w]) (h s) ih

lemma byteElements_congr {index : Nat} {rs : List (Source × Nat)} :
    byteElements f' t' index rs = byteElements f t index rs := by
  induction index, rs using byteElements.induct with
  | case1 index => rfl
  | case2 index s count rest ih =>
    exact bind_congr fun _ => bits_cons (bytesOf · count) (h s) ih

lemma plainElements_congr {cut : Int64 → Int64} :
    plainElements f' t' cut ss = plainElements f t cut ss := by
  refine congrArg (fun g => ss.mapM g) (funext fun s => ?_)
  have hbits := congrArg (· >>= fun b => (return cut b : Checked Int64)) (h s)
  simpa only [bind_map_left] using hbits

/-- The elements of an array of primitives depend on a frame in the bits of its sources only. -/
lemma primitiveElements_congr {ty : BasicType} :
    primitiveElements f' t' d ty = primitiveElements f t d ty := by
  cases ty with
  | long | double => exact wideElements_congr h
  | int => exact intElements_congr h
  | byte => exact byteElements_congr h
  | float | short | char | boolean => exact plainElements_congr h
  | object | array | void | illegal => rfl

end Bits

end Bailout.Restore
