import Bailout.Proofs.Restore.Boxes
import Bailout.Proofs.Restore.Rename

/-!
# Sharing goes unnoticed

Whether shared boxes are used for eliminated ones is seen in which objects there are and in nothing
else. With shared boxes the same descriptions have objects, of the same classes, with the same
values; where without them an object refers to a new box, it refers to the shared one.
-/

namespace Bailout

namespace Restore

variable {s : Supply} {f : CompiledFrame} {t t' : Restored} {d : Description}
  {ds : List Description} {m m' : Memory} {o : Option Ref} {x : Source} {ρ : Ref → Ref}

/-! ### Room -/

/-- The bytes that the heap is asked for by a description. -/
def demand (d : Description) : Checked Nat :=
  if d.klass.isInstance then d.klass.allocationBytes 0
  else do d.klass.allocationBytes (← arrayLength d)

/-- The bytes of the object of a description, if they can be counted. -/
def footprint (d : Description) : Nat :=
  match demand d with
  | .ok n => n
  | .error _ => 0

/-- A heap has room for an object for each of some descriptions. -/
structure HasRoom (h : Heap) (ds : List Description) : Prop where
  count : h.allocations + ds.length ≤ h.limit
  bytes : h.used + (ds.map footprint).sum ≤ h.capacity

/-- The heap is asked for what the description demands, and has the room or not. -/
lemma reserve?_of_newObject {y : Except HeapExhausted (Ref × Memory)} (h : newObject m d = .ok y) :
    ∃ n, demand d = .ok n ∧ ((∃ e, y = .error e ∧ m.heap.reserve? n = none) ∨
      ∃ r m', y = .ok (r, m') ∧ m.heap.reserve? n = some m'.heap) := by
  have hallocate : ∀ k n, m.allocate k n = .ok y → ∃ bytes, k.allocationBytes n = .ok bytes ∧
      ((∃ e, y = .error e ∧ m.heap.reserve? bytes = none) ∨
        ∃ r m', y = .ok (r, m') ∧ m.heap.reserve? bytes = some m'.heap) := by
    intro k n h
    simp only [Memory.allocate, bind_eq_ok] at h
    obtain ⟨bytes, hbytes, h⟩ := h
    refine ⟨bytes, hbytes, ?_⟩
    cases hr : m.heap.reserve? bytes with
    | none =>
      rw [hr] at h
      cases h
      exact .inl ⟨_, rfl, rfl⟩
    | some heap =>
      simp only [hr, bind_eq_ok] at h
      obtain ⟨body, -, h⟩ := h
      cases h
      exact .inr ⟨_, _, rfl, rfl⟩
  unfold newObject at h
  unfold demand
  split_ifs at h ⊢
  · simp only [Memory.allocateInstance, bind_eq_ok] at h
    obtain ⟨_, -, h⟩ := h
    exact hallocate _ _ h
  · simp only [Memory.allocateArray, bind_eq_ok] at h
    obtain ⟨n, hn, _, -, h⟩ := h
    rw [hn]
    exact hallocate _ _ h

namespace HasRoom

variable {h h' : Heap} {n : Nat}

lemma tail (hroom : HasRoom h (d :: ds)) : HasRoom h ds := by
  obtain ⟨hcount, hbytes⟩ := hroom
  rw [List.length_cons] at hcount
  rw [List.map_cons, List.sum_cons] at hbytes
  exact ⟨by omega, by omega⟩

lemma reserve? (hroom : HasRoom h (d :: ds)) (hd : demand d = .ok n) :
    ∃ h', h.reserve? n = some h' ∧ HasRoom h' ds := by
  obtain ⟨hcount, hbytes⟩ := hroom
  rw [List.length_cons] at hcount
  have hn : footprint d = n := by rw [footprint, hd]
  rw [List.map_cons, List.sum_cons, hn] at hbytes
  refine ⟨_, if_pos ⟨by omega, by omega⟩, ?_, ?_⟩
  · simp only
    omega
  · simp only
    omega

end HasRoom

/-- With room for all objects none is lacking but for boxes that are unavailable. -/
lemma Attempt.of_hasRoom (h : Attempt s f d m o m') (hroom : HasRoom m.heap (d :: ds))
    (havailable : lookup s f {} d ≠ .ok .unavailable) : o.isSome = true ∧ HasRoom m'.heap ds := by
  cases h with
  | shared h => exact ⟨rfl, hroom.tail⟩
  | unavailable h => exact absurd h havailable
  | refused h hnew =>
    obtain ⟨n, hn, ⟨e, -, hnone⟩ | ⟨r, m', hy, -⟩⟩ := reserve?_of_newObject hnew
    · obtain ⟨h', hsome, -⟩ := hroom.reserve? hn
      rw [hnone] at hsome
      cases hsome
    · cases hy
  | granted h hnew =>
    obtain ⟨n, hn, ⟨e, hy, -⟩ | ⟨r, m₁, hy, hsome⟩⟩ := reserve?_of_newObject hnew
    · cases hy
    · cases hy
      obtain ⟨h', hsome', hroom⟩ := hroom.reserve? hn
      rw [hsome] at hsome'
      cases hsome'
      exact ⟨rfl, hroom⟩

lemma Attempts.isSome_of_hasRoom {g : Description → Option Ref}
    (h : Attempts s f m ds (ds.map g) m') (hroom : HasRoom m.heap ds)
    (havailable : ∀ d ∈ ds, lookup s f {} d ≠ .ok .unavailable) :
    ∀ d ∈ ds, (g d).isSome = true := by
  induction ds generalizing m with
  | nil => simp
  | cons d ds ih =>
    cases h with
    | cons h hs =>
      obtain ⟨hfirst, hrest⟩ := h.of_hasRoom hroom (havailable d List.mem_cons_self)
      intro e he
      rcases List.mem_cons.1 he with rfl | he
      · exact hfirst
      · exact ih hs hrest (fun d hd => havailable d (List.mem_cons_of_mem _ hd)) e he

/-! ### Boxes in and out of use -/

/-- The supply with shared boxes in use or out of use. -/
def Supply.sharing (s : Supply) (b : Bool) : Supply :=
  { s with config := { s.config with eliminateAutoBox := b } }

lemma lookup_sharing_false : lookup (s.sharing false) f t d = .ok .miss :=
  lookup_of_not_eliminateAutoBox rfl

/-- What is there of the boxes of a description: it is of no box that the compiler made, or of a box
of a class whose boxes are shared, or no boxes of the type are shared and its source can be read. -/
inductive Boxable (s : Supply) (m : Memory) (f : CompiledFrame) (d : Description) : Prop
  | plain (h : d.klass.isInstance = false ∨ d.autoBox = false ∨ d.klass.box? = none)
  | shared {ty : BasicType} {low high : Int} (hk : d.klass.Boxes ty)
      (h : s.boxes.Shares m.store d.klass ty low high)
  | unshared {ty : BasicType} (hbox : d.klass.box? = some ty)
      (hcache : s.boxes.caches.get? ty = none)
      (hread : ∀ x, d.sources[boxedSource ty]? = some x → ∃ w, f.resolve {} x = .ok w)

lemma lookup_of_not_autoBox (h : d.autoBox = false) : lookup s f t d = .ok .miss := by
  simp [lookup, h]

/-- A box that is asked for and found has the value that a new one would be filled in with. -/
lemma lookup_sharing_cases (t : Restored) (hd : Orderly (s.sharing false) f d)
    (hb : Boxable s m f d) : lookup (s.sharing true) f {} d = .ok .miss ∨
    ∃ r w, lookup (s.sharing true) f {} d = .ok (.hit r) ∧ m.store.IsBox d.klass (Int64.toInt w) r ∧
      d.klass.isInstance = true ∧ d.klass.slotCount = 1 ∧
      filledBody f t d (.fields #[none]) = .ok (.fields #[some (.raw w)]) := by
  cases hauto : d.autoBox with
  | false => exact .inl (lookup_of_not_autoBox hauto)
  | true =>
    cases hb with
    | plain h =>
      left
      simp only [hauto, Bool.true_eq_false, false_or] at h
      rw [lookup]
      split_ifs with hask
      · have hbox : d.klass.box? = none := by simp_all
        rw [sharedBox, hbox]
        rfl
      · rfl
    | @unshared ty hbox hcache hread =>
      left
      rw [lookup]
      split_ifs
      · rw [sharedBox, hbox]
        cases hx : d.sources[boxedSource ty]? with
        | none =>
          simp only [hx]
          rfl
        | some x =>
          obtain ⟨w, hw⟩ := hread x hx
          simp only [hx, hw, ok_bind, BoxCaches.lookup, Supply.sharing, hcache]
          rfl
      · rfl
    | @shared ty low high hk hshares =>
      obtain ⟨b, hfilled⟩ := hd.filled lookup_sharing_false t (.fields #[none])
      rcases body_of_filledBody hk hshares.shared hfilled with ⟨hnil, -⟩ | ⟨x, w, hx, hw, rfl⟩
      · left
        rw [lookup, hk.isInstance, hauto]
        simp only [Supply.sharing, Bool.and_self, if_true, sharedBox, hk.box, hnil]
        rfl
      · have hlookup := lookup_of_boxes (s := s.sharing true) hk rfl hauto hx hw
        by_cases hin : low ≤ w.bits.toInt ∧ w.bits.toInt ≤ high
        · obtain ⟨r, hr, hbox⟩ := hshares.exists_hit hin.1 hin.2
          refine .inr ⟨r, w.bits, hlookup.trans (congrArg _ hr), hbox, hk.isInstance,
            hk.slotCount_eq, ?_⟩
          rwa [BasicType.truncate_of_shared hshares.shared hin.1 hin.2] at hfilled
        · exact .inl (hlookup.trans (congrArg _ (hshares.lookup_eq_miss hin)))

/-- Descriptions that can be restored without shared boxes can be restored with them. -/
lemma inOrder_sharing (hds : InOrder (s.sharing false) f ds) (hb : ∀ d ∈ ds, Boxable s m f d) :
    InOrder (s.sharing true) f ds where
  ids := hds.ids
  each := by
    intro d hd
    have horderly := hds.each d hd
    refine ⟨?_, fun _ => horderly.sized lookup_sharing_false,
      fun _ => horderly.filled lookup_sharing_false⟩
    rcases lookup_sharing_cases {} horderly (hb d hd) with hmiss | ⟨r, w, hhit, -⟩
    · exact ⟨_, hmiss⟩
    · exact ⟨_, hhit⟩

variable {pending : Option Thrown} {mode : Mode} {off on : Outcome}

/-- With room for all objects, and no boxes that are unavailable, all of them are restored. -/
lemma exists_objects_of_hasRoom
    (hboxes : ∀ ty w q, s.boxes.lookup ty w = .hit q → m.store.Has q) (hds : InOrder s f ds)
    (hroom : HasRoom m.heap ds) (havailable : ∀ d ∈ ds, lookup s f {} d ≠ .ok .unavailable)
    (pending : Option Thrown) (mode : Mode) :
    ∃ out, objects s m pending mode f ds = .ok out ∧ out.failed = false ∧
      (∀ d ∈ ds, ∃ r, out.table.get d.id = some r) := by
  obtain ⟨out, hout⟩ := exists_objects hds m pending mode
  have hall := attempted_of_objects hboxes hout
  obtain ⟨m', hattempts, -⟩ := hall.attempts
  have hthere := hattempts.isSome_of_hasRoom hroom havailable
  refine ⟨out, hout, ?_, fun d hd => Option.isSome_iff_exists.1 (hthere d hd)⟩
  rw [← Bool.not_eq_true, hall.failed]
  rintro ⟨d, hd, hnone⟩
  have hsome := hthere d hd
  rw [hnone] at hsome
  cases hsome

/-! ### Renaming the new boxes -/

/-- What the box caches, a frame and the descriptions for it refer to is there. -/
structure Grounded (s : Supply) (store : Store) (f : CompiledFrame) (ds : List Description) :
    Prop where
  boxes : ∀ ty w q, s.boxes.lookup ty w = .hit q → store.Has q
  words : ∀ p w, f.word? p = some w → ∀ q, w.object? = some q → store.Has q
  constants : ∀ d ∈ ds, ∀ q, .reference (some q) ∈ d.sources → store.Has q

/-- Nothing that a frame holds is renamed. -/
lemma read_rename (hwords : ∀ p w, f.word? p = some w → ∀ q, w.object? = some q → ρ q = q)
    (l : Location) : f.read l = Word.rename ρ <$> f.read l := by
  obtain ⟨place, reading⟩ := l
  unfold CompiledFrame.read
  cases hw : f.word? place with
  | none => cases reading <;> rfl
  | some w =>
    cases reading with
    | reference =>
      cases w with
      | raw b =>
        simp only [Reading.interpret]
        split_ifs <;> rfl
      | ref o => exact congrArg Except.ok (Word.rename_eq_self (hwords place (.ref o) hw)).symm
    | _ => rfl

lemma renames_of_grounded (hg : Grounded s m.store f ds) (hold : ∀ q, m.store.Has q → ρ q = q)
    (htable : ∀ id, t'.get id = (t.get id).map ρ) (hd : d ∈ ds) : Renames ρ f t t' d.sources := by
  intro x hx
  cases x with
  | eliminated id => exact congrArg (Except.ok ∘ Word.ref) (htable id)
  | located l => exact read_rename (fun p w hw q hq => hold q (hg.words p w hw q hq)) l
  | reference o =>
    cases o with
    | none => rfl
    | some q => exact congrArg (Except.ok ∘ Word.ref ∘ some) (hold q (hg.constants d hd q hx)).symm
  | int | long | double | marker | illegal => rfl

/-- What stands for descriptions in one table is renamed to what does in another one, if all of it
is new in the first and stands for one description only. -/
lemma exists_renaming (store : Store)
    (hnew : ∀ id r, t.get id = some r → store.objects.size ≤ r.index)
    (hdistinct : ∀ i j r, t.get i = some r → t.get j = some r → i = j)
    (hboth : ∀ id, (t'.get id).isSome = (t.get id).isSome) :
    ∃ ρ : Ref → Ref, (∀ q, store.Has q → ρ q = q) ∧ ∀ id, t'.get id = (t.get id).map ρ := by
  have heach : ∀ q, ∃ q', (store.Has q → q' = q) ∧
      ∀ id, t.get id = some q → t'.get id = some q' := by
    intro q
    by_cases hq : store.Has q
    · exact ⟨q, fun _ => rfl, fun id hid => absurd hq (Nat.not_lt.2 (hnew id q hid))⟩
    · by_cases hsome : ∃ id, t.get id = some q
      · obtain ⟨id, hid⟩ := hsome
        obtain ⟨q', hq'⟩ := Option.isSome_iff_exists.1 ((hboth id).trans (by rw [hid]; rfl))
        exact ⟨q', fun h => absurd h hq, fun j hj => hdistinct id j q hid hj ▸ hq'⟩
      · exact ⟨q, fun _ => rfl, fun id hid => absurd ⟨id, hid⟩ hsome⟩
  choose ρ hold hget using heach
  refine ⟨ρ, hold, fun id => ?_⟩
  cases hid : t.get id with
  | none =>
    have hnone := hboth id
    rw [hid] at hnone
    exact Option.isNone_iff_eq_none.1 (by simpa using hnone)
  | some q => exact hget q id hid

/-- Blank objects of a description are filled in alike. -/
lemma filledBody_of_blank {x x' : Object} (hx : Blank d x) (hx' : Blank d x') :
    filledBody f t d x'.body = filledBody f t d (x.body.rename ρ) := by
  cases hk : d.klass.isInstance with
  | true =>
    rw [hx.slots hk, hx'.slots hk, Body.rename, Array.map_replicate]
    rfl
  | false =>
    unfold filledBody
    cases hd : d.klass with
    | base | derived =>
      rw [hd] at hk
      cases hk
    | primitiveArray | referenceArray => rfl

/-! ### With and without shared boxes -/

/-- Objects were restored without and with shared boxes, and only their identity tells which: the
object of each description is renamed, along with all references to it. -/
structure Unnoticed (m : Memory) (ds : List Description) (ρ : Ref → Ref) (off on : Outcome) :
    Prop where
  contains : ∀ id, on.table.contains id = true ↔ off.table.contains id = true
  stands : ∀ d ∈ ds, ∃ q, off.table.get d.id = some q ∧ on.table.get d.id = some (ρ q) ∧
    (on.memory.store.get (ρ q)).klass = (off.memory.store.get q).klass ∧
    on.memory.store.body (ρ q) = (off.memory.store.body q).rename ρ
  /-- What was there keeps its name. -/
  old : ∀ q, m.store.Has q → ρ q = q
  /-- What was there is untouched, the shared boxes among it. -/
  kept : m.store.Extends on.memory.store ∧ m.store.Extends off.memory.store
  pending : on.pending = off.pending

lemma Attempted.exists_mem (h : Attempted s m pending mode f ds off) {id : Nat} {q : Ref}
    (hq : off.table.get id = some q) : ∃ d ∈ ds, d.id = id := by
  refine (h.contains id).1 ?_
  rw [Restored.get, Option.join_eq_some_iff] at hq
  rw [Restored.contains, Table.contains, hq]
  rfl

/-- All objects that are restored without shared boxes are new. -/
lemma Attempted.new_of_sharing_false (h : Attempted (s.sharing false) m pending mode f ds off)
    {id : Nat} {q : Ref} (hq : off.table.get id = some q) : m.store.objects.size ≤ q.index := by
  obtain ⟨d, hd, rfl⟩ := h.exists_mem hq
  rcases h.origin d hd q hq with hhit | ⟨-, hnew, -⟩
  · rw [lookup_sharing_false] at hhit
    cases hhit
  · exact hnew

/-- The object of a description without shared boxes, renamed, is its object with them. -/
lemma body_of_sharing {q q' : Ref} (hd : d ∈ ds) (horderly : Orderly (s.sharing false) f d)
    (hb : Boxable s m f d) (hoff : Attempted (s.sharing false) m pending mode f ds off)
    (hon : Attempted (s.sharing true) m pending mode f ds on)
    (hrenames : Renames ρ f off.table on.table d.sources)
    (hq : off.table.get d.id = some q) (hq' : on.table.get d.id = some q') :
    (on.memory.store.get q').klass = (off.memory.store.get q).klass ∧
      on.memory.store.body q' = (off.memory.store.body q).rename ρ := by
  have huncached : off.table.isCached d.id = false := by
    rw [← Bool.not_eq_true, hoff.cached d hd, lookup_sharing_false]
    rintro ⟨r, hr⟩
    cases hr
  obtain ⟨x, b, hblank, hfilled, hget⟩ := hoff.filled d hd huncached q hq
  rw [Store.body, Store.body, hget]
  rcases lookup_sharing_cases off.table horderly hb with hmiss | ⟨r, w, hhit, hbox, hk, hslots, hb⟩
  · have huncached' : on.table.isCached d.id = false := by
      rw [← Bool.not_eq_true, hon.cached d hd, hmiss]
      rintro ⟨r, hr⟩
      cases hr
    obtain ⟨x', b', hblank', hfilled', hget'⟩ := hon.filled d hd huncached' q' hq'
    rw [filledBody_of_blank hblank hblank', filledBody_rename hrenames hfilled] at hfilled'
    cases hfilled'
    rw [hget']
    exact ⟨hblank'.klass.trans hblank.klass.symm, rfl⟩
  · obtain rfl : q' = r := by
      rcases hon.origin d hd q' hq' with hhit' | ⟨hmiss, -⟩
      · rw [hhit] at hhit'
        cases hhit'
        rfl
      · rw [hhit] at hmiss
        cases hmiss
    rw [hblank.slots hk, hslots] at hfilled
    obtain rfl : b = .fields #[some (.raw w)] := Except.ok.inj (hfilled.symm.trans hb)
    have hbody : (m.store.get q').body = _ := hbox.body
    rw [hon.kept q' hbox.has, hbody, Int64.ofInt_toInt]
    exact ⟨hbox.klass.trans hblank.klass.symm, by simp [Body.rename, Word.rename]⟩

lemma unnoticed_of_attempted (hds : InOrder (s.sharing false) f ds)
    (hb : ∀ d ∈ ds, Boxable s m f d) (hg : Grounded s m.store f ds)
    (hoff : Attempted (s.sharing false) m pending mode f ds off)
    (hon : Attempted (s.sharing true) m pending mode f ds on)
    (hthere : ∀ d ∈ ds, ∃ q, off.table.get d.id = some q)
    (hthere' : ∀ d ∈ ds, ∃ q, on.table.get d.id = some q) (hfailed : off.failed = on.failed) :
    ∃ ρ, Unnoticed m ds ρ off on := by
  have hboth : ∀ id, (on.table.get id).isSome = (off.table.get id).isSome := by
    intro id
    by_cases hid : ∃ d ∈ ds, d.id = id
    · obtain ⟨d, hd, rfl⟩ := hid
      obtain ⟨q, hq⟩ := hthere d hd
      obtain ⟨q', hq'⟩ := hthere' d hd
      rw [hq, hq']
      rfl
    · have hnone : ∀ o : Option Ref, (∀ q, o = some q → ∃ d ∈ ds, d.id = id) → o = none :=
        fun o ho => Option.eq_none_iff_forall_ne_some.2 fun q hq => hid (ho q hq)
      rw [hnone _ fun _ => hon.exists_mem, hnone _ fun _ => hoff.exists_mem]
  obtain ⟨ρ, hold, htable⟩ := exists_renaming m.store
    (fun _ _ => hoff.new_of_sharing_false)
    (fun i j r hi hj => hoff.distinct i j r (hoff.new_of_sharing_false hi) hi hj) hboth
  refine ⟨ρ, fun id => ?_, fun d hd => ?_, hold, ⟨hon.kept, hoff.kept⟩, ?_⟩
  · rw [hon.contains, hoff.contains]
  · obtain ⟨q, hq⟩ := hthere d hd
    have hq' : on.table.get d.id = some (ρ q) := by rw [htable, hq, Option.map_some]
    exact ⟨q, hq, hq', body_of_sharing hd (hds.each d hd) (hb d hd) hoff hon
      (renames_of_grounded hg hold htable hd) hq hq'⟩
  · rw [hon.pending, hoff.pending, hfailed]

/-- Restoring objects comes to the same with and without shared boxes, but for the identity of
boxes: where there is room for all of them, the same descriptions have objects, of the same classes
and with the same bodies once the new boxes are renamed to the shared ones. -/
theorem sharing_unnoticed (hds : InOrder (s.sharing false) f ds) (hroom : HasRoom m.heap ds)
    (hb : ∀ d ∈ ds, Boxable s m f d) (hg : Grounded s m.store f ds) (pending : Option Thrown)
    (mode : Mode) : ∃ off on ρ,
      objects (s.sharing false) m pending mode f ds = .ok off ∧ off.failed = false ∧
      objects (s.sharing true) m pending mode f ds = .ok on ∧ on.failed = false ∧
      Unnoticed m ds ρ off on := by
  have havailable : ∀ d ∈ ds, lookup (s.sharing true) f {} d ≠ .ok .unavailable := by
    intro d hd hunavailable
    rcases lookup_sharing_cases {} (hds.each d hd) (hb d hd) with hmiss | ⟨r, w, hhit, -⟩
    · rw [hmiss] at hunavailable
      cases hunavailable
    · rw [hhit] at hunavailable
      cases hunavailable
  obtain ⟨off, hoff, hfailed, hthere⟩ := exists_objects_of_hasRoom (s := s.sharing false) hg.boxes
    hds hroom (fun d _ => by simp [lookup_sharing_false]) pending mode
  obtain ⟨on, hon, hfailed', hthere'⟩ := exists_objects_of_hasRoom (s := s.sharing true) hg.boxes
    (inOrder_sharing hds hb) hroom havailable pending mode
  obtain ⟨ρ, hunnoticed⟩ := unnoticed_of_attempted hds hb hg (attempted_of_objects hg.boxes hoff)
    (attempted_of_objects hg.boxes hon) hthere hthere' (hfailed.trans hfailed'.symm)
  exact ⟨off, on, ρ, hoff, hfailed, hon, hfailed', hunnoticed⟩

namespace Flag

def pair : Klass := .base "Pair" [⟨"left", .object, false, false⟩, ⟨"right", .object, false, false⟩]
  none

/-- A pair of a box and of itself. -/
def descriptions : List Description :=
  [{ id := 1, klass := pair, sources := [.eliminated 7, .eliminated 1] }, description]

lemma shares : supply.boxes.Shares memory.store boolean .boolean 0 1 :=
  BoxCaches.shares_of_install boxes_boolean rfl install_eq

lemma inOrder : InOrder (supply.sharing false) (compiled 1) descriptions := by
  have hrun : ∃ o, objectsIfEnabled (supply.sharing false) memory none .plain (compiled 1)
      descriptions = .ok o ∧ o.failed = false := ⟨_, rfl, rfl⟩
  obtain ⟨o, ho, hfailed⟩ := hrun
  exact inOrder_of_objects rfl ho hfailed

lemma hasRoom : HasRoom memory.heap descriptions := ⟨by decide, by decide⟩

lemma boxable : ∀ d ∈ descriptions, Boxable supply memory (compiled 1) d := by
  simp only [descriptions, List.forall_mem_cons]
  exact ⟨.plain (.inr (.inl rfl)), .shared boxes_boolean shares, List.forall_mem_nil _⟩

lemma grounded : Grounded supply memory.store (compiled 1) descriptions where
  boxes := by
    intro ty w q h
    obtain ⟨low, boxes, hcache, hq⟩ := mem_of_boxes_lookup h
    cases ty with
    | boolean =>
      cases hcache
      rcases (by simpa using hq : q = ⟨0⟩ ∨ q = ⟨1⟩) with rfl | rfl
      · exact Nat.zero_lt_two
      · exact Nat.one_lt_two
    | _ => cases hcache
  words := by
    intro p w hw q hq
    cases p with
    | register i => simp [CompiledFrame.word?, compiled] at hw
    | stack i =>
      have hmem : w ∈ (compiled 1).slots := Array.mem_of_getElem? hw
      obtain rfl : w = .raw 1 := by simpa [compiled] using hmem
      cases hq
  constants := by simp [descriptions, description]

end Flag

/-- Without shared boxes the pair refers to a new box, and with them to the shared one. -/
theorem sharing_unnoticed_flag : ∃ off on ρ,
    InOrder (Flag.supply.sharing false) (Flag.compiled 1) Flag.descriptions ∧
    HasRoom Flag.memory.heap Flag.descriptions ∧
    (∀ d ∈ Flag.descriptions, Boxable Flag.supply Flag.memory (Flag.compiled 1) d) ∧
    Grounded Flag.supply Flag.memory.store (Flag.compiled 1) Flag.descriptions ∧
    Unnoticed Flag.memory Flag.descriptions ρ off on ∧
    off.table.get 1 = some ⟨2⟩ ∧ off.table.get 7 = some ⟨3⟩ ∧ on.table.get 7 = some ⟨1⟩ ∧
    off.memory.store.body ⟨2⟩ = .fields #[some (.ref (some ⟨3⟩)), some (.ref (some ⟨2⟩))] ∧
    on.memory.store.body ⟨2⟩ = .fields #[some (.ref (some ⟨1⟩)), some (.ref (some ⟨2⟩))] := by
  obtain ⟨off, on, ρ, hoff, -, hon, -, hunnoticed⟩ :=
    sharing_unnoticed Flag.inOrder Flag.hasRoom Flag.boxable Flag.grounded none .plain
  cases hoff
  cases hon
  exact ⟨_, _, ρ, Flag.inOrder, Flag.hasRoom, Flag.boxable, Flag.grounded, hunnoticed, rfl, rfl,
    rfl, rfl, rfl⟩

end Restore
end Bailout
