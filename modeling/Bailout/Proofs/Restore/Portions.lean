import Bailout.Proofs.Restore.Fields

/-!
# Fields of restored instances

How a compiler lists the values of an instance, and that filling the instance in reads the list as
it was written. The sources come in portions: one source for a field, two for a long or a double,
or two for an int or a float and the int after it, which are then written as one value. Nothing in
the list says which portions share a value; that is guessed from what follows, and the guess is
right for every list of portions.
-/

namespace Bailout

/-- What a field or an element of a type keeps of a value. -/
def BasicType.keep (ty : BasicType) (w : Word) : Word :=
  if ty.isReference then .ref w.object? else .raw (ty.truncate w.bits)

namespace Source

variable {s s' : Source}

/-- Two sources for one 64-bit value, which the second one gives: an int before a constant, or two
locations. -/
inductive Pair : Source → Source → Prop
  | constants {v : Int32} {s : Source} (hs : s.isWideConstant = true) : Pair (.int v) s
  | located {l l' : Location} (hl : l.reading.isWide = true) (hl' : l'.reading.isWide = true) :
      Pair (.located l) (.located l')

lemma isWideConstant_of_isWide (h : s.isWide = false) : s.isWideConstant = false := by
  cases s with
  | long | double => cases h
  | _ => rfl

lemma Pair.isWideConstant (h : s.Pair s') : s.isWideConstant = false := by
  cases h with
  | constants => rfl
  | located => rfl

end Source

namespace Restore

/-! ### Two ints as one value -/

/-- The 64-bit value of two ints, the first one low. -/
def joined (low high : Int64) : Int64 := .ofBitVec (high.toInt32.toBitVec ++ low.toInt32.toBitVec)

lemma lowHalf_joined (low high : Int64) : lowHalf (joined low high) = lowHalf low := by
  have h : (joined low high).toInt32 = low.toInt32 := by
    refine Int32.toBitVec_inj.1 (BitVec.eq_of_getLsbD_eq fun i hi => ?_)
    rw [Int64.toBitVec_toInt32, joined, Int64.toBitVec_ofBitVec, BitVec.getLsbD_signExtend,
      BitVec.getLsbD_append]
    simp [hi, Nat.lt_trans hi]
  rw [lowHalf, h, lowHalf]

lemma highHalf_joined (low high : Int64) : highHalf (joined low high) = lowHalf high := by
  have h : (joined low high >>> 32).toInt32 = high.toInt32 := by
    refine Int32.toBitVec_inj.1 (BitVec.eq_of_getLsbD_eq fun i hi => ?_)
    have hshift : (joined low high >>> 32).toBitVec = (joined low high).toBitVec.sshiftRight 32 :=
      rfl
    have hlow : ¬ 32 + i < 32 := by omega
    have hwide : ¬ 64 ≤ i := by omega
    rw [Int64.toBitVec_toInt32, hshift, joined, Int64.toBitVec_ofBitVec, BitVec.getLsbD_signExtend,
      BitVec.getLsbD_sshiftRight, BitVec.getLsbD_append]
    simp [hi, hlow, hwide, show i < 64 by omega, show 32 + i < 64 by omega]
  rw [highHalf, h, lowHalf]

/-! ### Portions -/

/-- A portion of the sources of an instance, with the fields that it is for. -/
inductive Portion where
  /-- The source of one field. -/
  | single (x : Field × Nat) (s : Source)
  /-- The sources of a long or a double, of which the second counts. -/
  | wide (x : Field × Nat) (dummy s : Source)
  /-- The sources of two fields that are written as one value, of which the second counts. -/
  | pair (x y : Field × Nat) (dummy s : Source)

namespace Portion

def fields : Portion → List (Field × Nat)
  | single x _ | wide x _ _ => [x]
  | pair x y _ _ => [x, y]

def sources : Portion → List Source
  | single _ s => [s]
  | wide _ dummy s | pair _ _ dummy s => [dummy, s]

/-- The words that a portion gives for the slots of its fields. -/
def words (f : CompiledFrame) (t : Restored) : Portion → Checked (List (Nat × Word))
  | single x s | wide x _ s => do return [(x.2, x.1.type.keep (← f.resolve t s))]
  | pair x y _ s => do
    let w ← f.resolve t s
    return [(x.2, .raw (lowHalf w.bits)), (y.2, .raw (highHalf w.bits))]

/-- A portion as a compiler writes it. -/
inductive Shaped : Portion → Prop
  | single {x : Field × Nat} {s : Source} (hx : x.1.type.slots = 1) (hs : s.isWide = false) :
      Shaped (.single x s)
  | wide {x : Field × Nat} {dummy s : Source} (hx : x.1.type.slots = 2) (hs : s.isWide = true) :
      Shaped (.wide x dummy s)
  | pair {x y : Field × Nat} {dummy s : Source} (hx : x.1.type = .int ∨ x.1.type = .float)
      (hy : y.1.type = .int) (hs : dummy.Pair s) : Shaped (.pair x y dummy s)

/-- The sources of an int do not start with a 64-bit constant. -/
lemma Shaped.exists_cons {p : Portion} (hp : p.Shaped) : ∃ y fields z sources,
    p.fields = y :: fields ∧ p.sources = z :: sources ∧
      (y.1.type = .int → z.isWideConstant = false) := by
  cases hp with
  | single _ hs => exact ⟨_, _, _, _, rfl, rfl, fun _ => Source.isWideConstant_of_isWide hs⟩
  | wide hx _ =>
    refine ⟨_, _, _, _, rfl, rfl, fun hint => ?_⟩
    rw [hint] at hx
    cases hx
  | pair _ _ hs => exact ⟨_, _, _, _, rfl, rfl, fun _ => hs.isWideConstant⟩

end Portion

variable {f : CompiledFrame} {t : Restored} {d : Description} {fields : List (Field × Nat)}
  {rest : List Source} {ws : List (Nat × Word)} {slots : Array (Option Word)}
  {x y : Field × Nat} {dummy s : Source} {p : Portion} {ps : List Portion} {value : Nat → Word}

/-! ### Guessing what shares a value -/

/-- Whether a field is taken to be written as one value with the field after it. -/
def sharesNext (d : Description) (x : Field × Nat) (fields : List (Field × Nat))
    (rest : List Source) : Checked Bool :=
  match fields with
  | [] => return false
  | y :: _ =>
    if (x.1.type = .int ∨ x.1.type = .float) ∧ y.1.type = .int then startsPair d rest
    else return false

lemma startsPair_of_pair (h : dummy.Pair s) : startsPair d (dummy :: s :: rest) = .ok true := by
  cases h with
  | constants hs => exact congrArg Except.ok hs
  | located hl _ => exact congrArg Except.ok hl

lemma startsPair_of_narrow (hs : s.isWide = false)
    (hrest : ∀ z ∈ rest.head?, z.isWideConstant = false) :
    startsPair d (s :: rest) = .ok false := by
  cases s with
  | located l => exact congrArg Except.ok hs
  | int v =>
    cases rest with
    | nil => rfl
    | cons z rest => exact congrArg Except.ok (hrest z rfl)
  | _ => rfl

/-- A field with a source of its own is not taken to share one, whatever comes after it. -/
lemma sharesNext_eq_false (hs : s.isWide = false) (hps : ∀ p ∈ ps, p.Shaped) :
    sharesNext d x (ps.flatMap Portion.fields) (s :: ps.flatMap Portion.sources) = .ok false := by
  cases ps with
  | nil => rfl
  | cons p ps =>
    obtain ⟨y, fields, z, sources, hfields, hsources, hz⟩ := (hps p List.mem_cons_self).exists_cons
    rw [List.flatMap_cons, List.flatMap_cons, hfields, hsources]
    simp only [sharesNext, List.cons_append]
    split_ifs with hxy
    · refine startsPair_of_narrow hs fun z' hz' => ?_
      obtain rfl := Option.some.inj hz'
      exact hz hxy.2
    · rfl

/-! ### Reading portions -/

lemma assignments_single (hx : x.1.type.slots = 1)
    (hs : sharesNext d x fields (s :: rest) = .ok false) :
    assignments f t d (x :: fields) (s :: rest) = (do
      let w ← f.resolve t s
      return (x.2, x.1.type.keep w) :: (← assignments f t d fields rest)) := by
  obtain ⟨x, slot⟩ := x
  rw [assignments.eq_def]
  cases ht : x.type with
  | long | double | void | illegal =>
    rw [ht] at hx
    cases hx
  | object | array | short | char | byte | boolean =>
    simp only [ht]
    rfl
  | int | float =>
    cases fields with
    | nil =>
      simp only [ht]
      rfl
    | cons y more =>
      simp only [sharesNext, ht, true_or, or_true, true_and] at hs
      simp only [ht]
      split_ifs at hs ⊢ with hy
      · rw [hs]
        rfl
      · rfl

lemma assignments_wide (hx : x.1.type.slots = 2) :
    assignments f t d (x :: fields) (dummy :: s :: rest) = (do
      let w ← f.resolve t s
      return (x.2, x.1.type.keep w) :: (← assignments f t d fields rest)) := by
  obtain ⟨x, slot⟩ := x
  rw [assignments.eq_def]
  cases ht : x.type with
  | long | double =>
    simp only [ht]
    rfl
  | _ =>
    rw [ht] at hx
    cases hx

lemma assignments_pair (hs : sharesNext d x (y :: fields) (dummy :: s :: rest) = .ok true) :
    assignments f t d (x :: y :: fields) (dummy :: s :: rest) = (do
      let w ← f.resolve t s
      return (x.2, .raw (lowHalf w.bits)) :: (y.2, .raw (highHalf w.bits)) ::
        (← assignments f t d fields rest)) := by
  obtain ⟨x, slot⟩ := x
  rw [sharesNext] at hs
  split_ifs at hs with hxy
  · obtain ⟨hx, hy⟩ := hxy
    rw [assignments.eq_def]
    rcases hx with hx | hx
    · simp only [show x.type = .int from hx, hy, if_true, hs]
      rfl
    · simp only [show x.type = .float from hx, hy, if_true, hs]
      rfl
  · cases hs

/-- The first of some portions is read, and then the others. -/
lemma assignments_cons (hp : p.Shaped) (hps : ∀ p ∈ ps, p.Shaped) :
    assignments f t d (p.fields ++ ps.flatMap Portion.fields)
        (p.sources ++ ps.flatMap Portion.sources) = (do
      let us ← p.words f t
      return us ++ (← assignments f t d (ps.flatMap Portion.fields)
        (ps.flatMap Portion.sources))) := by
  cases hp with
  | single hx hs =>
    refine (assignments_single hx (sharesNext_eq_false hs hps)).trans ?_
    simp only [Portion.words, bind_assoc, pure_bind]
    rfl
  | wide hx _ =>
    refine (assignments_wide hx).trans ?_
    simp only [Portion.words, bind_assoc, pure_bind]
    rfl
  | pair hx hy hs =>
    refine (assignments_pair ((if_pos ⟨hx, hy⟩).trans (startsPair_of_pair hs))).trans ?_
    simp only [Portion.words, bind_assoc, pure_bind]
    rfl

/-- The portions are read one after the other, and no source is left. -/
theorem assignments_flatMap (hps : ∀ p ∈ ps, p.Shaped) :
    assignments f t d (ps.flatMap Portion.fields) (ps.flatMap Portion.sources) =
      List.flatten <$> ps.mapM (Portion.words f t) := by
  induction ps with
  | nil => rfl
  | cons p ps ih =>
    obtain ⟨hp, hps⟩ := List.forall_mem_cons.1 hps
    rw [List.flatMap_cons, List.flatMap_cons, assignments_cons hp hps, ih hps, List.mapM_cons]
    simp only [bind_map_left, map_bind, map_pure, List.flatten_cons]

/-! ### Values of fields -/

/-- A portion gives the values of its fields, which are listed by slot. -/
def Portion.Gives (f : CompiledFrame) (t : Restored) (value : Nat → Word) : Portion → Prop
  | single x s | wide x _ s => f.resolve t s = .ok (value x.2)
  | pair x y _ s => f.resolve t s = .ok (.raw (joined (value x.2).bits (value y.2).bits))

/-- A portion is how a compiler writes the values of its fields. -/
structure Portion.Encodes (f : CompiledFrame) (t : Restored) (value : Nat → Word) (p : Portion) :
    Prop where
  shaped : p.Shaped
  gives : p.Gives f t value

/-- The word for the slot of a field with a given value. -/
def kept (value : Nat → Word) (x : Field × Nat) : Nat × Word := (x.2, x.1.type.keep (value x.2))

lemma Portion.Encodes.words_eq (hp : p.Encodes f t value) :
    p.words f t = .ok (p.fields.map (kept value)) := by
  obtain ⟨hshaped, hgives⟩ := hp
  cases hshaped with
  | single | wide =>
    simp only [Gives] at hgives
    rw [words, hgives]
    rfl
  | @pair x y dummy s hx hy hs =>
    simp only [Gives] at hgives
    have hlow : x.1.type.keep (value x.2) = .raw (lowHalf (value x.2).bits) := by
      rcases hx with hx | hx
      · rw [hx]
        rfl
      · rw [hx]
        rfl
    have hhigh : y.1.type.keep (value y.2) = .raw (lowHalf (value y.2).bits) := by
      rw [hy]
      rfl
    rw [words, hgives, fields, List.map_cons, List.map_singleton, kept, kept, hlow, hhigh,
      ← lowHalf_joined (value x.2).bits (value y.2).bits,
      ← highHalf_joined (value x.2).bits (value y.2).bits]
    rfl

/-- Every field gets its own value. -/
lemma flatten_words_eq (hps : ∀ p ∈ ps, p.Encodes f t value) :
    List.flatten <$> ps.mapM (Portion.words f t) =
      .ok ((ps.flatMap Portion.fields).map (kept value)) := by
  have hwords : ps.mapM (Portion.words f t) = .ok (ps.map fun p => p.fields.map (kept value)) := by
    rw [mapM_eq_ok, List.forall₂_map_right_iff, List.forall₂_same]
    exact fun p hp => (hps p hp).words_eq
  rw [hwords, List.map_flatMap, List.flatMap_def]
  rfl

/-! ### Instances -/

/-- A slot belongs to one field. -/
lemma eq_of_mem_slots {k : Klass} {field field' : Field} {slot : Nat} (h : (field, slot) ∈ k.slots)
    (h' : (field', slot) ∈ k.slots) : field' = field := by
  rw [Klass.slots, List.mem_zipIdx_iff_getElem?] at h h'
  exact Option.some.inj (h'.symm.trans h)

/-- The slots of the fields that compiled code knows hold the values of these, and the others what
they held before. -/
lemma getElem?_writeSlots {k : Klass} {seesInjected : Bool} {field : Field} {slot : Nat}
    (hsize : slots.size = k.slotCount) (h : (field, slot) ∈ k.slots) :
    (writeSlots slots ((visibleFields k seesInjected).map (kept value)))[slot]? =
      if seesInjected || !field.isInjected then some (some (field.type.keep (value slot)))
      else slots[slot]? := by
  have hslots : ((visibleFields k seesInjected).map (kept value)).map Prod.fst =
      (visibleFields k seesInjected).map Prod.snd := by
    rw [List.map_map]
    rfl
  split_ifs with hsees
  · have hvisible : (field, slot) ∈ visibleFields k seesInjected := List.mem_filter.2 ⟨h, hsees⟩
    exact writeSlots_of_mem (hslots ▸ nodup_visibleFields k seesInjected)
      (List.mem_map_of_mem hvisible) (hsize ▸ lt_of_mem_visibleFields hvisible)
  · refine writeSlots_of_notMem fun hmem => hsees ?_
    rw [hslots] at hmem
    obtain ⟨⟨field', slot'⟩, hvisible, rfl⟩ := List.mem_map.1 hmem
    obtain ⟨hslot, hsees'⟩ := List.mem_filter.1 hvisible
    obtain rfl := eq_of_mem_slots h hslot
    exact hsees'

lemma filledBody_of_assignments (hk : d.klass.isInstance = true)
    (h : assignments f t d (visibleFields d.klass f.region.seesInjected) d.sources = .ok ws) :
    filledBody f t d (.fields slots) = .ok (.fields (writeSlots slots ws)) := by
  unfold filledBody
  cases hd : d.klass with
  | primitiveArray | referenceArray =>
    rw [hd] at hk
    cases hk
  | base | derived =>
    rw [hd] at h
    simp only [h, ok_bind]
    rfl

/-- An instance whose sources are portions that give the values of its fields is filled in with
these values, portion after portion, until no source is left. A field that compiled code does not
know stays as it is. -/
theorem filledBody_of_portions (hk : d.klass.isInstance = true)
    (hsize : slots.size = d.klass.slotCount)
    (hfields : ps.flatMap Portion.fields = visibleFields d.klass f.region.seesInjected)
    (hsources : ps.flatMap Portion.sources = d.sources)
    (hps : ∀ p ∈ ps, p.Encodes f t value) :
    assignments f t d (visibleFields d.klass f.region.seesInjected) d.sources =
        List.flatten <$> ps.mapM (Portion.words f t) ∧
      ∃ slots', filledBody f t d (.fields slots) = .ok (.fields slots') ∧
        ∀ field slot, (field, slot) ∈ d.klass.slots → slots'[slot]? =
          if f.region.seesInjected || !field.isInjected
          then some (some (field.type.keep (value slot))) else slots[slot]? := by
  have hread : assignments f t d (visibleFields d.klass f.region.seesInjected) d.sources =
      List.flatten <$> ps.mapM (Portion.words f t) := by
    rw [← hfields, ← hsources]
    exact assignments_flatMap fun p hp => (hps p hp).shaped
  refine ⟨hread, _, filledBody_of_assignments hk (hread.trans (flatten_words_eq hps)), ?_⟩
  intro field slot h
  rw [hfields]
  exact getElem?_writeSlots hsize h

namespace Inherited

def count : Field := { name := "count", type := .long }

def flag : Field := { name := "flag", type := .boolean }

def ratio : Field := { name := "ratio", type := .float }

def hidden : Field := { name := "hidden", type := .object, isInjected := true }

def low : Field := { name := "low", type := .int }

def small : Field := { name := "small", type := .short }

def next : Field := { name := "next", type := .object }

/-- A class below another one. The float and the int are neighbours for code that does not know the
injected field. -/
def klass : Klass :=
  .derived "Derived" (.base "Base" [count, { name := "shared", type := .int, isStatic := true }]
    none) [flag, ratio, hidden, low, small, next] none

def wide : Source := .located ⟨.stack 0, .long⟩

def portions : List Portion :=
  [.wide (count, 0) (.int 0) (.long (-9)), .single (flag, 1) (.int 3),
    .pair (ratio, 2) (low, 4) wide wide, .single (small, 5) (.int 0x18000),
    .single (next, 6) (.located ⟨.stack 1, .reference⟩)]

def description : Description where
  id := 7
  klass := klass
  sources := portions.flatMap Portion.sources

/-- Code that does not know injected fields. -/
def compiled : CompiledFrame where
  region := { ref := 0, compileId := 1, method := default, start := 0, size := 64
              handlerOffset := 48 }
  slots := #[.raw 0x700000001, .ref (some ⟨3⟩)]

/-- The values of the fields, by slot. -/
def content : Nat → Word
  | 0 => .raw (-9)
  | 1 => .raw 3
  | 2 => .raw 1
  | 4 => .raw 7
  | 5 => .raw 0x18000
  | 6 => .ref (some ⟨3⟩)
  | _ => .zero

lemma encodes : ∀ p ∈ portions, p.Encodes compiled {} content := by
  simp only [portions, List.forall_mem_cons]
  exact ⟨⟨.wide rfl rfl, rfl⟩, ⟨.single rfl rfl, rfl⟩,
    ⟨.pair (.inr rfl) rfl (.located rfl rfl), rfl⟩, ⟨.single rfl rfl, rfl⟩,
    ⟨.single rfl rfl, rfl⟩, List.forall_mem_nil _⟩

end Inherited

/-- A new object of the derived class gets its values, cut to their types, and the injected field
stays as it was. -/
theorem filledBody_of_portions_inherited :
    Inherited.klass.isInstance = true ∧
    Inherited.portions.flatMap Portion.fields = visibleFields Inherited.klass false ∧
    (∀ p ∈ Inherited.portions, p.Encodes Inherited.compiled {} Inherited.content) ∧
    ∃ slots, filledBody Inherited.compiled {} Inherited.description
        (.fields (Array.replicate 7 none)) = .ok (.fields slots) ∧
      slots[0]? = some (some (.raw (-9))) ∧ slots[1]? = some (some (.raw 1)) ∧
      slots[2]? = some (some (.raw 1)) ∧ slots[3]? = some none ∧
      slots[4]? = some (some (.raw 7)) ∧ slots[5]? = some (some (.raw (-0x8000))) ∧
      slots[6]? = some (some (.ref (some ⟨3⟩))) := by
  refine ⟨rfl, by decide, Inherited.encodes, ?_⟩
  have hsize : (Array.replicate 7 (none : Option Word)).size = Inherited.klass.slotCount := rfl
  obtain ⟨-, slots, hfilled, hslots⟩ := filledBody_of_portions (d := Inherited.description) rfl
    hsize (by decide) rfl Inherited.encodes
  exact ⟨slots, hfilled, hslots Inherited.count 0 (by decide), hslots Inherited.flag 1 (by decide),
    hslots Inherited.ratio 2 (by decide), hslots Inherited.hidden 3 (by decide),
    hslots Inherited.low 4 (by decide), hslots Inherited.small 5 (by decide),
    hslots Inherited.next 6 (by decide)⟩

end Restore
end Bailout
