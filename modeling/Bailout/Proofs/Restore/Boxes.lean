import Bailout.Proofs.Restore.Attempts
import Bailout.Proofs.Restore.Graph

/-!
# Shared boxes

An eliminated box whose value is shared is the one box of that value. Which value it has is read
from its source, though, before the value is cut to the type of the box: a source with more in it
than the field keeps is not taken for the value that the box will hold, and gets a box of its own.
-/

namespace Bailout

/-- Instances of a class are boxes: they have one field, for a value of the type that they box. -/
structure Klass.Boxes (k : Klass) (ty : BasicType) : Prop where
  isInstance : k.isInstance = true
  box : k.box? = some ty
  layout : ∃ x, k.layout = [x] ∧ x.type = ty

lemma Klass.Boxes.slotCount_eq {k : Klass} {ty : BasicType} (hk : k.Boxes ty) :
    k.slotCount = 1 := by
  obtain ⟨x, hlayout, -⟩ := hk.layout
  rw [Klass.slotCount, hlayout, List.length_singleton]

/-! ### Values that are shared -/

namespace BasicType

variable {ty : BasicType} {low high : Int} {w : Int64}

lemma toNat_toUInt64 (h : 0 ≤ w.toInt) : (w.toUInt64.toNat : Int) = w.toInt := by
  change (w.toBitVec.toNat : Int) = w.toBitVec.toInt
  have hsign : 0 ≤ w.toBitVec.toInt := h
  rw [BitVec.toInt_eq_toNat_cond] at hsign ⊢
  split_ifs at hsign ⊢
  · rfl
  · have hlt := w.toBitVec.isLt
    omega

/-- A value that is shared is a value of its type. -/
lemma truncate_of_shared (hrange : ty.sharedRange? = some (low, high)) (hlow : low ≤ w.toInt)
    (hhigh : w.toInt ≤ high) : ty.truncate w = w := by
  refine Int64.toInt_inj.1 ?_
  cases ty with
  | boolean =>
    cases hrange
    obtain rfl | rfl : w = 0 ∨ w = 1 := by
      rw [← Int64.toInt_inj, ← Int64.toInt_inj]
      change w.toInt = 0 ∨ w.toInt = 1
      omega
    · rfl
    · rfl
  | char =>
    cases hrange
    have hword := toNat_toUInt64 hlow
    have hcut : w.toUInt64.toUInt16.toNat = w.toUInt64.toNat := by
      rw [UInt64.toNat_toUInt16, Nat.mod_eq_of_lt (by omega)]
    rw [truncate, Int64.toInt_ofNat_of_lt (by omega), hcut, hword]
  | byte =>
    cases hrange
    rw [truncate, Int8.toInt_toInt64, Int64.toInt_toInt8, Int.bmod_eq_of_le] <;> omega
  | short =>
    cases hrange
    rw [truncate, Int16.toInt_toInt64, Int64.toInt_toInt16, Int.bmod_eq_of_le] <;> omega
  | int =>
    cases hrange
    rw [truncate, Int32.toInt_toInt64, Int64.toInt_toInt32, Int.bmod_eq_of_le] <;> omega
  | long => rfl
  | float | double | object | array | void | illegal => cases hrange

end BasicType

/-! ### Caches that were filled -/

/-- An object is a box of a value. -/
structure Store.IsBox (s : Store) (k : Klass) (v : Int) (r : Ref) : Prop where
  has : s.Has r
  klass : (s.get r).klass = k
  body : s.body r = .fields #[some (.raw (Int64.ofInt v))]

/-- What an object is does not change where the store only grows. -/
lemma Store.IsBox.mono {s s' : Store} {k : Klass} {v : Int} {r : Ref} (h : s.IsBox k v r)
    (hs : s.Extends s') (hle : s.objects.size ≤ s'.objects.size) : s'.IsBox k v r where
  has := h.has.mono hle
  klass := (congrArg Object.klass (hs r h.has)).trans h.klass
  body := (congrArg Object.body (hs r h.has)).trans h.body

namespace BoxCaches

variable {c c' : BoxCaches} {m m' : Memory} {store : Store} {k : Klass} {ty : BasicType}
  {low high : Int} {boxes boxes' : Array Ref} {w : Int64} {r : Ref} {slot : Nat}

/-- The boxes of a class are shared: the cache of their type has one for each value of the range. -/
structure Shares (c : BoxCaches) (store : Store) (k : Klass) (ty : BasicType) (low high : Int) :
    Prop where
  shared : ty.sharedRange? = some (low, high)
  ready : ∃ boxes, c.caches.get? ty = some (.ready low boxes) ∧
    List.Forall₂ (store.IsBox k) (range low high) boxes.toList

lemma getElem?_range {i : Nat} (h : low + (i : Int) ≤ high) :
    (range low high)[i]? = some (low + (i : Int)) := by
  rw [range, List.getElem?_map, List.getElem?_range (by omega), Option.map_some]

lemma length_range : (range low high).length = (high - low + 1).toNat := by
  rw [range, List.length_map, List.length_range]

namespace Shares

/-- There is a box for a value in the range. -/
lemma exists_hit (h : c.Shares store k ty low high) (hlow : low ≤ w.toInt)
    (hhigh : w.toInt ≤ high) : ∃ r, c.lookup ty w = .hit r ∧ store.IsBox k w.toInt r := by
  obtain ⟨boxes, hcache, hboxes⟩ := h.ready
  have hvalue : low + ((w.toInt - low).toNat : Int) = w.toInt := by omega
  obtain ⟨r, hr, hbox⟩ := exists_getElem?_of_forall₂ hboxes (getElem?_range (hvalue.trans_le hhigh))
  refine ⟨r, ?_, hvalue ▸ hbox⟩
  rw [lookup, hcache]
  simp only [if_neg (Int.not_lt.2 hlow), ← Array.getElem?_toList, hr]

/-- There is none for other values. -/
lemma lookup_eq_miss (h : c.Shares store k ty low high)
    (hout : ¬ (low ≤ w.toInt ∧ w.toInt ≤ high)) : c.lookup ty w = .miss := by
  obtain ⟨boxes, hcache, hboxes⟩ := h.ready
  have hsize : boxes.size = (high - low + 1).toNat := hboxes.length_eq.symm.trans length_range
  rw [lookup, hcache]
  by_cases hlow : w.toInt < low
  · simp only [if_pos hlow]
  · have hbeyond : boxes.size ≤ (w.toInt - low).toNat := by omega
    simp only [if_neg hlow, Array.getElem?_eq_none hbeyond]

end Shares

/-! ### Filling a cache -/

lemma valueSlot_of_boxes (hk : k.Boxes ty) : valueSlot k ty = 0 := by
  obtain ⟨x, hlayout, rfl⟩ := hk.layout
  simp [valueSlot, Klass.slots, hlayout]

/-- A new box is put behind all other objects, and it holds the value that it is made for. -/
lemma isBox_of_allocateInstance (hk : k.Boxes ty) (h : m.allocateInstance k = .ok (.ok (r, m')))
    (v : Int) :
    m.store.Extends (setValue m'.store r (valueSlot k ty) (Int64.ofInt v)) ∧
    m.store.objects.size ≤ (setValue m'.store r (valueSlot k ty) (Int64.ofInt v)).objects.size ∧
    (setValue m'.store r (valueSlot k ty) (Int64.ofInt v)).IsBox k v r := by
  have hnew : Restore.newObject m { id := 0, klass := k, sources := [] } = .ok (.ok (r, m')) := by
    rw [Restore.newObject, if_pos hk.isInstance, h]
  obtain ⟨o, ho, hadd⟩ := Restore.blank_of_newObject hnew
  obtain ⟨hgrows, -, hhas⟩ := Restore.newObject_spec hnew
  have hindex := Restore.index_of_newObject hnew
  have hself : m'.store.get r = o := by
    rw [← Store.get_add_self m.store o, hadd]
  have hset : setValue m'.store r (valueSlot k ty) (Int64.ofInt v) =
      m'.store.setBody r (.fields #[some (.raw (Int64.ofInt v))]) := by
    rw [setValue, Store.body, hself, ho.slots hk.isInstance, valueSlot_of_boxes hk]
    simp only [hk.slotCount_eq]
    rfl
  have hget : (m'.store.setBody r (.fields #[some (.raw (Int64.ofInt v))])).get r =
      { o with body := .fields #[some (.raw (Int64.ofInt v))] } := by
    rw [Store.setBody, Store.get_modify_self _ _ hhas, hself]
  rw [hset]
  refine ⟨fun q hq => ?_, ?_, ?_, ?_, ?_⟩
  · have hne : q ≠ r := by
      rintro rfl
      exact absurd hq (Nat.not_lt.2 hindex.ge)
    rw [Store.setBody, Store.get_modify_of_ne _ _ hne, ← Store.get_add_of_lt _ o hq, hadd]
  · rw [Store.setBody, Store.size_modify]
    exact hgrows.size_le
  · rwa [Store.Has, Store.setBody, Store.size_modify]
  · rw [hget]
    exact ho.klass
  · rw [Store.body, hget]

/-- A cache is filled with a box for each value, and nothing else is done to what was there. -/
lemma isBox_of_fill (hk : k.Boxes ty) {vs : List Int}
    (h : fill m k (valueSlot k ty) boxes vs = .ok (.ok boxes', m')) :
    m.store.Extends m'.store ∧ m.store.objects.size ≤ m'.store.objects.size ∧
      ∃ new, boxes'.toList = boxes.toList ++ new ∧ List.Forall₂ (m'.store.IsBox k) vs new := by
  induction vs generalizing m boxes with
  | nil =>
    cases h
    exact ⟨fun _ _ => rfl, Nat.le_refl _, [], by simp, .nil⟩
  | cons v vs ih =>
    rw [fill, bind_eq_ok] at h
    obtain ⟨y, hy, h⟩ := h
    cases y with
    | error e => cases h
    | ok y =>
      obtain ⟨r, m₁⟩ := y
      obtain ⟨hextends, hle, hbox⟩ := isBox_of_allocateInstance hk hy v
      obtain ⟨hextends', hle', new, hnew, hboxes⟩ := ih h
      refine ⟨fun q hq => ?_, hle.trans hle', r :: new, by simp [hnew], ?_⟩
      · rw [hextends' q (hq.mono hle), hextends q hq]
      · exact .cons (hbox.mono hextends' hle') hboxes

/-- Once the cache of a class of boxes is filled, the boxes are shared. -/
theorem shares_of_install (hk : k.Boxes ty) (hrange : ty.sharedRange? = some (low, high))
    (h : install c m k = .ok (none, c', m')) : c'.Shares m'.store k ty low high := by
  rw [install, hk.box] at h
  simp only [hrange, bind_eq_ok] at h
  obtain ⟨⟨y, m₁⟩, hy, h⟩ := h
  cases y with
  | error e => cases h
  | ok boxes =>
    cases h
    obtain ⟨-, -, new, hnew, hboxes⟩ := isBox_of_fill hk hy
    refine ⟨hrange, boxes, Table.get?_set_self _ _ _, ?_⟩
    rw [hnew]
    exact hboxes

end BoxCaches

namespace Restore

variable {s : Supply} {f : CompiledFrame} {t : Restored} {d : Description} {ds : List Description}
  {m : Memory} {p : Progress} {ty : BasicType} {low high : Int} {b : Body} {v : Int64}

/-! ### Values of boxes -/

/-- The value of a box that may be shared is no reference, and the last of its sources counts. -/
lemma slots_of_shared (hrange : ty.sharedRange? = some (low, high)) :
    ty.slots = boxedSource ty + 1 ∧ ty.isReference = false := by
  cases ty with
  | boolean | char | byte | short | int | long => exact ⟨rfl, rfl⟩
  | float | double | object | array | void | illegal => cases hrange

/-- A new box is filled in with the value of its source, cut to its type; it stays as it is if
compiled code does not know its field. -/
lemma body_of_filledBody (hk : d.klass.Boxes ty) (hrange : ty.sharedRange? = some (low, high))
    (h : filledBody f t d (.fields #[none]) = .ok b) :
    (d.sources = [] ∧ b = .fields #[none]) ∨
    ∃ x w, d.sources[boxedSource ty]? = some x ∧ f.resolve t x = .ok w ∧
      b = .fields #[some (.raw (ty.truncate w.bits))] := by
  obtain ⟨ws, hws, rfl⟩ := exists_assignments_of_filledBody hk.isInstance h
  obtain ⟨x, hlayout, rfl⟩ := hk.layout
  obtain ⟨hslots, hplain⟩ := slots_of_shared hrange
  have hkeep : ∀ v, x.type.keep v = .raw (x.type.truncate v.bits) := fun v => by
    rw [BasicType.keep, hplain, if_neg Bool.false_ne_true]
  have hvisible : visibleFields d.klass f.region.seesInjected =
      if f.region.seesInjected || !x.isInjected then [(x, 0)] else [] := by
    simp [visibleFields, Klass.slots, hlayout, List.filter_cons]
  have hread := readsFields_of_assignments hws
  rw [hvisible] at hread
  generalize d.sources = rest at hread ⊢
  split_ifs at hread
  · right
    cases hread with
    | @single _ _ s _ v _ hx _ hv hrest =>
      cases hrest
      have hfirst : boxedSource x.type = 0 := Nat.succ.inj (hslots.symm.trans hx)
      exact ⟨s, v, by rw [hfirst]; rfl, hv, by rw [hkeep]; rfl⟩
    | @wide _ _ _ s _ v _ hx hv hrest =>
      cases hrest
      have hsecond : boxedSource x.type = 1 := Nat.succ.inj (hslots.symm.trans hx)
      exact ⟨s, v, by rw [hsecond]; rfl, hv, by rw [hkeep]; rfl⟩
  · left
    cases hread
    exact ⟨rfl, rfl⟩

lemma lookup_of_not_eliminateAutoBox (h : s.config.eliminateAutoBox = false) :
    lookup s f t d = .ok .miss := by
  simp [lookup, h]

/-- The caches are asked for the value that the source gives, whole. -/
lemma lookup_of_boxes (hk : d.klass.Boxes ty) (hon : s.config.eliminateAutoBox = true)
    (hauto : d.autoBox = true) {x : Source} {w : Word}
    (hx : d.sources[boxedSource ty]? = some x) (hw : f.resolve t x = .ok w) :
    lookup s f {} d = .ok (s.boxes.lookup ty w.bits) := by
  rw [lookup_congr s f {} t, lookup, hk.isInstance, hauto, hon]
  simp only [Bool.and_self, if_true, sharedBox, hk.box, hx, hw, ok_bind]
  rfl

/-! ### What stands for a box -/

/-- A new object stands for a description, unless the heap refuses it. -/
structure Fresh (m : Memory) (p : Progress) (d : Description) : Prop where
  uncached : p.table.isCached d.id = false
  new : ∀ r, p.table.get d.id = some r → m.store.objects.size ≤ r.index
  refused : p.table.get d.id = none → ∃ m₁ e, newObject m₁ d = .ok (.error e)

lemma exists_attempt_of_allocate (hp : allocate s m f ds = .ok p) (hd : d ∈ ds) :
    ∃ m₁ m₂, Attempt s f d m₁ (p.table.get d.id) m₂ :=
  (attempts_of_foldlM (allotted_of_foldlM hp).ids hp).1.exists_attempt hd

lemma fresh_of_miss (hp : allocate s m f ds = .ok p) (hd : d ∈ ds)
    (hmiss : lookup s f {} d = .ok .miss) : Fresh m p d where
  uncached := by
    rw [← Bool.not_eq_true, (allotted_of_foldlM hp).isCached_iff hd, hmiss]
    rintro ⟨r, hr⟩
    cases hr
  new := by
    intro r hr
    exact (((allotted_of_foldlM hp).origin hd hr).resolve_left (by simp [hmiss])).2.1
  refused := by
    intro hnone
    obtain ⟨m₁, m₂, h⟩ := exists_attempt_of_allocate hp hd
    rw [hnone] at h
    obtain ⟨-, hunavailable | ⟨-, e, hnew⟩⟩ := h.lacking
    · rw [hmiss] at hunavailable
      cases hunavailable
    · exact ⟨m₁, e, hnew⟩

lemma stands_of_hit (hp : allocate s m f ds = .ok p) (hd : d ∈ ds) {r : Ref}
    (hhit : lookup s f {} d = .ok (.hit r)) :
    p.table.get d.id = some r ∧ p.table.isCached d.id = true := by
  obtain ⟨m₁, m₂, h⟩ := exists_attempt_of_allocate hp hd
  exact ⟨h.eq_of_hit hhit, ((allotted_of_foldlM hp).isCached_iff hd).2 ⟨r, hhit⟩⟩

/-- Where boxes of a class are shared, the shared box of a value in the range stands for an
eliminated box of it if and only if its source gives just that value. If the source gives more than
the field keeps, the value is not shared or shared boxes are not in use, a new object stands for it.
Descriptions in order are always allocated, and filling the cache of the class has its boxes
shared. -/
theorem canonical_iff (hk : d.klass.Boxes ty) :
    (∀ c m₀ c' m' low high, ty.sharedRange? = some (low, high) →
      BoxCaches.install c m₀ d.klass = .ok (none, c', m') →
      c'.Shares m'.store d.klass ty low high) ∧
    ∀ s m f ds low high, s.boxes.Shares m.store d.klass ty low high →
      d ∈ ds → d.autoBox = true →
      (InOrder s f ds → ∃ p, allocate s m f ds = .ok p) ∧
      ∀ p v, allocate s m f ds = .ok p →
        filledBody f p.table d (.fields #[none]) = .ok (.fields #[some (.raw v)]) →
        ∃ x w, d.sources[boxedSource ty]? = some x ∧ f.resolve p.table x = .ok w ∧
          ty.truncate w.bits = v ∧
          (s.config.eliminateAutoBox = true → low ≤ v.toInt → v.toInt ≤ high →
            ∃ r, s.boxes.lookup ty v = .hit r ∧ m.store.IsBox d.klass v.toInt r ∧
              (p.table.get d.id = some r ∧ p.table.isCached d.id = true ↔ w.bits = v)) ∧
          (s.config.eliminateAutoBox = false ∨ w.bits ≠ v ∨ v.toInt < low ∨ high < v.toInt →
            Fresh m p d) := by
  refine ⟨fun c m₀ c' m' low high hrange h => BoxCaches.shares_of_install hk hrange h, ?_⟩
  intro s m f ds low high hshares hd hauto
  refine ⟨fun h => exists_allocate h m, fun p v hp hfilled => ?_⟩
  rcases body_of_filledBody hk hshares.shared hfilled with ⟨-, hnone⟩ | ⟨x, w, hx, hw, hbody⟩
  · simp at hnone
  obtain rfl : ty.truncate w.bits = v := by simpa using hbody.symm
  have hfresh : s.config.eliminateAutoBox = false ∨ w.bits ≠ ty.truncate w.bits ∨
      (ty.truncate w.bits).toInt < low ∨ high < (ty.truncate w.bits).toInt → Fresh m p d := by
    intro hout
    cases hon : s.config.eliminateAutoBox with
    | false => exact fresh_of_miss hp hd (lookup_of_not_eliminateAutoBox hon)
    | true =>
      have hlookup := lookup_of_boxes hk hon hauto hx hw
      refine fresh_of_miss hp hd (hlookup.trans (congrArg _ (hshares.lookup_eq_miss ?_)))
      -- a value that is found in the cache is in the range, and there nothing is cut off
      rintro ⟨hlow, hhigh⟩
      rw [BasicType.truncate_of_shared hshares.shared hlow hhigh] at hout
      rcases hout with hoff | hne | hout
      · rw [hon] at hoff
        cases hoff
      · exact hne rfl
      · omega
  refine ⟨x, w, hx, hw, rfl, fun hon hlow hhigh => ?_, hfresh⟩
  obtain ⟨r, hr, hbox⟩ := hshares.exists_hit hlow hhigh
  refine ⟨r, hr, hbox, ?_, fun hsame => ?_⟩
  · rintro ⟨-, hcached⟩
    by_contra hne
    rw [(hfresh (.inr (.inl hne))).uncached] at hcached
    cases hcached
  · rw [← hsame] at hr
    exact stands_of_hit hp hd ((lookup_of_boxes hk hon hauto hx hw).trans (congrArg _ hr))

namespace Flag

def boolean : Klass := .base "Boolean" [⟨"value", .boolean, false, false⟩] (some .boolean)

lemma boxes_boolean : boolean.Boxes .boolean := ⟨rfl, rfl, _, rfl, rfl⟩

/-- A box whose value is in a slot of the frame. -/
def description : Description where
  id := 7
  klass := boolean
  sources := [.located ⟨.stack 0, .normal⟩]
  autoBox := true

def compiled (w : Int64) : CompiledFrame where
  region := { ref := 0, compileId := 1, method := default, start := 0, size := 64
              handlerOffset := 48 }
  slots := #[.raw w]

def supply : Supply where
  config := {}
  boxes := ⟨⟨[(.boolean, .ready 0 #[⟨0⟩, ⟨1⟩])]⟩⟩

/-- A memory with the boxes of both values. -/
def memory : Memory where
  heap := { used := 48, allocations := 2 }
  store := ⟨#[{ serial := 1, klass := boolean, body := .fields #[some (.raw 0)] },
    { serial := 2, klass := boolean, body := .fields #[some (.raw 1)] }]⟩

lemma install_eq : BoxCaches.install {} {} boolean = .ok (none, supply.boxes, memory) := rfl

end Flag

/-- The box of a slot that holds one is the shared box of one. -/
theorem canonical_iff_flag : ∃ p r,
    Flag.boolean.Boxes .boolean ∧
    Flag.supply.boxes.Shares Flag.memory.store Flag.boolean .boolean 0 1 ∧
    allocate Flag.supply Flag.memory (Flag.compiled 1) [Flag.description] = .ok p ∧
    Flag.supply.boxes.lookup .boolean 1 = .hit r ∧
    p.table.get 7 = some r ∧ p.table.isCached 7 = true := by
  obtain ⟨hinstall, hcanonical⟩ := canonical_iff (d := Flag.description) Flag.boxes_boolean
  have hshares := hinstall _ _ _ _ _ _ rfl Flag.install_eq
  obtain ⟨-, hstands⟩ := hcanonical Flag.supply Flag.memory (Flag.compiled 1) [Flag.description]
    0 1 hshares List.mem_cons_self rfl
  obtain ⟨x, w, hx, hw, htruncate, hshared, -⟩ := hstands _ 1 rfl rfl
  obtain ⟨r, hr, -, hiff⟩ := hshared rfl (by decide) (by decide)
  cases hx
  cases hw
  obtain ⟨hget, hcached⟩ := hiff.2 rfl
  exact ⟨_, r, Flag.boxes_boolean, hshares, rfl, hr, hget, hcached⟩

/-- A slot that holds more than the field keeps gives a new box of one, though there is a shared
one. -/
theorem uncanonical_flag : ∃ p,
    BoxCaches.install {} {} Flag.boolean = .ok (none, Flag.supply.boxes, Flag.memory) ∧
    allocate Flag.supply Flag.memory (Flag.compiled 0x100000001) [Flag.description] = .ok p ∧
    filledBody (Flag.compiled 0x100000001) p.table Flag.description (.fields #[none]) =
      .ok (.fields #[some (.raw 1)]) ∧
    Flag.supply.boxes.lookup .boolean 1 = .hit ⟨1⟩ ∧
    p.table.get 7 = some ⟨2⟩ ∧ p.table.isCached 7 = false :=
  ⟨_, Flag.install_eq, rfl, rfl, rfl, rfl, rfl⟩

end Restore
end Bailout
