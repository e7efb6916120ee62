import Bailout.Proofs.Restore.Objects
import Bailout.Proofs.Restore.Portions

/-!
# Elements of restored arrays

How a compiler lists the elements of an array of primitives, and that the array which is allocated
for them has room for exactly these elements and is filled in with them. Ints may be written two as
one value, and bytes in runs of one, two, four or eight. A run of another length stops the runtime.
-/

namespace Bailout.Restore

variable {f : CompiledFrame} {t : Restored} {d : Description} {ty : BasicType}
  {ss rest tail : List Source} {es : List Int64} {s : Source}

/-! ### Bytes of a word -/

/-- The number that some bytes stand for, the lowest first. Of each word the low byte counts. -/
def littleEndian : List Int64 → Nat
  | [] => 0
  | b :: bs => b.toBitVec.toNat % 256 + 256 * littleEndian bs

lemma littleEndian_div_pow (bs : List Int64) {k : Nat} (hk : k < bs.length) :
    littleEndian bs / 256 ^ k % 256 = bs[k].toBitVec.toNat % 256 := by
  induction bs generalizing k with
  | nil => cases hk
  | cons b bs ih =>
    cases k with
    | zero => simp [littleEndian]
    | succ k =>
      rw [littleEndian, Nat.pow_succ', ← Nat.div_div_eq_div_mul,
        Nat.add_mul_div_left _ _ (by decide), Nat.div_eq_of_lt (Nat.mod_lt _ (by decide)),
        Nat.zero_add]
      exact ih (by simpa using hk)

/-- The byte at a position of a word. -/
lemma toNat_shiftRight (w : Int64) {k : Nat} (hk : k < 8) :
    (w >>> Int64.ofNat (8 * k)).toBitVec.toNat % 256 = w.toBitVec.toNat / 256 ^ k % 256 := by
  have hshift : (w >>> Int64.ofNat (8 * k)).toBitVec = w.toBitVec.sshiftRight (8 * k) := by
    have hcount : ∀ k < 8, ((Int64.ofNat (8 * k)).toBitVec.smod 64).toNat = 8 * k := by decide
    rw [Int64.toBitVec_shiftRight, BitVec.sshiftRight', hcount k hk]
  have hlow : (w.toBitVec.sshiftRight (8 * k)).setWidth 8 =
      (w.toBitVec.ushiftRight (8 * k)).setWidth 8 := by
    refine BitVec.eq_of_getLsbD_eq fun i hi => ?_
    have hin : 8 * k + i < 64 := by omega
    rw [BitVec.getLsbD_setWidth, BitVec.getLsbD_setWidth, BitVec.getLsbD_sshiftRight,
      BitVec.ushiftRight_eq, BitVec.getLsbD_ushiftRight, if_pos hin]
    simp [show ¬ 64 ≤ i by omega]
  have hbyte := congrArg BitVec.toNat hlow
  rw [BitVec.toNat_setWidth, BitVec.toNat_setWidth, BitVec.ushiftRight_eq, BitVec.toNat_ushiftRight,
    Nat.shiftRight_eq_div_pow, Nat.pow_mul] at hbyte
  rw [hshift]
  exact hbyte

lemma truncate_byte_eq {v w : Int64} (h : v.toBitVec.toNat % 256 = w.toBitVec.toNat % 256) :
    BasicType.truncate .byte v = BasicType.truncate .byte w := by
  have hlow : v.toInt8 = w.toInt8 := by
    refine Int8.toBitVec_inj.1 (BitVec.eq_of_toNat_eq ?_)
    rwa [Int64.toBitVec_toInt8, Int64.toBitVec_toInt8,
      BitVec.signExtend_eq_setWidth_of_le _ (by decide),
      BitVec.signExtend_eq_setWidth_of_le _ (by decide), BitVec.toNat_setWidth,
      BitVec.toNat_setWidth]
  rw [BasicType.truncate, BasicType.truncate, hlow]

/-- The bytes of a word that holds them lowest first. -/
lemma bytesOf_eq {w : Int64} {bs : List Int64} (hbs : bs.length ≤ 8)
    (h : w.toBitVec.toNat % 256 ^ bs.length = littleEndian bs) :
    bytesOf w bs.length = bs.map (BasicType.truncate .byte) := by
  refine List.ext_getElem (by simp [bytesOf]) fun k hk hk' => ?_
  have hlt : k < bs.length := by simpa using hk'
  have hpow : 256 ^ bs.length = 256 ^ k * 256 ^ (bs.length - k - 1 + 1) := by
    rw [← Nat.pow_add]
    congr 1
    omega
  simp only [bytesOf, List.getElem_map, List.getElem_range]
  refine truncate_byte_eq ?_
  rw [toNat_shiftRight w (by omega), ← littleEndian_div_pow bs hlt, ← h, hpow,
    Nat.mod_mul_right_div_self, Nat.mod_mod_of_dvd _ ⟨_, Nat.pow_succ'⟩]

/-! ### Lists of elements -/

/-- The types of which a single element has one source. A byte is a run of its own. -/
def singleTypes : List BasicType := [.boolean, .char, .short, .float, .int]

/-- How a compiler lists the elements of an array of primitives: a source for each; two sources for
a long or a double, of which the second counts; two sources for two ints that are written as one
value; or a source for a run of bytes, the first of them lowest, with a marker for each of the
others. -/
inductive Lists (f : CompiledFrame) (t : Restored) (ty : BasicType) :
    List Source → List Int64 → Prop
  | nil : Lists f t ty [] []
  | single {s : Source} {v : Word} {ss : List Source} {es : List Int64}
      (hty : ty ∈ singleTypes) (hs : ty = .int → s.isWide = false) (hv : f.resolve t s = .ok v)
      (h : Lists f t ty ss es) : Lists f t ty (s :: ss) (v.bits :: es)
  | wide {dummy s : Source} {v : Word} {ss : List Source} {es : List Int64} (hty : ty.slots = 2)
      (hv : f.resolve t s = .ok v) (h : Lists f t ty ss es) :
      Lists f t ty (dummy :: s :: ss) (v.bits :: es)
  | pair {dummy s : Source} {a b : Int64} {ss : List Source} {es : List Int64} (hty : ty = .int)
      (hs : dummy.Pair s) (hv : f.resolve t s = .ok (.raw (joined a b))) (h : Lists f t ty ss es) :
      Lists f t ty (dummy :: s :: ss) (a :: b :: es)
  | run {s : Source} {v : Word} {b : Int64} {bs : List Int64} {ss : List Source} {es : List Int64}
      (hty : ty = .byte) (hs : s.isMarker = false) (hlen : (b :: bs).length ∈ runLengths)
      (hv : f.resolve t s = .ok v)
      (hbytes : v.bits.toBitVec.toNat % 256 ^ (b :: bs).length = littleEndian (b :: bs))
      (h : Lists f t ty ss es) :
      Lists f t ty (s :: (List.replicate bs.length .marker ++ ss)) (b :: bs ++ es)

lemma slots_of_mem_singleTypes : ∀ ty ∈ singleTypes, ty.slots = 1 := by decide

/-- Nothing but an array of primitives has elements that are listed. -/
lemma Lists.eq_nil (hsingle : ty ∉ singleTypes) (hslots : ty.slots ≠ 2) (hbyte : ty ≠ .byte)
    (h : Lists f t ty ss es) : ss = [] ∧ es = [] := by
  cases h with
  | nil => exact ⟨rfl, rfl⟩
  | single hty => exact absurd hty hsingle
  | wide hty => exact absurd hty hslots
  | pair hty => exact absurd (hty ▸ by decide) hsingle
  | run hty => exact absurd hty hbyte

/-! ### One source or two for an element -/

lemma plainElements_of_lists {cut : Int64 → Int64} (hint : ty ≠ .int) (hbyte : ty ≠ .byte)
    (hslots : ty.slots = 1) (h : Lists f t ty ss es) :
    plainElements f t cut ss = .ok (es.map cut) := by
  induction h with
  | nil => rfl
  | single _ _ hv _ ih =>
    rw [plainElements] at ih ⊢
    rw [List.mapM_cons, hv, ih]
    rfl
  | wide hty =>
    rw [hslots] at hty
    cases hty
  | pair hty => exact absurd hty hint
  | run hty => exact absurd hty hbyte

lemma wideElements_of_lists (hslots : ty.slots = 2) (h : Lists f t ty ss es) :
    wideElements f t d ss = .ok es := by
  induction h with
  | nil => rfl
  | single hty =>
    rw [slots_of_mem_singleTypes _ hty] at hslots
    cases hslots
  | wide _ hv _ ih =>
    rw [wideElements, hv, ih]
    rfl
  | pair hty | run hty =>
    rw [hty] at hslots
    cases hslots

/-! ### Ints -/

/-- A list of ints does not start with a 64-bit constant. -/
lemma Lists.isWideConstant_head (h : Lists f t .int ss es) :
    ∀ z ∈ ss.head?, z.isWideConstant = false := by
  intro z hz
  cases h with
  | nil => cases hz
  | single _ hs =>
    cases hz
    exact Source.isWideConstant_of_isWide (hs rfl)
  | wide hty => cases hty
  | pair _ hs =>
    cases hz
    exact hs.isWideConstant
  | run hty => cases hty

lemma intElements_single (hs : s.isWide = false)
    (hrest : ∀ z ∈ rest.head?, z.isWideConstant = false) :
    intElements f t d (s :: rest) = (do
      let w ← f.resolve t s
      return lowHalf w.bits :: (← intElements f t d rest)) := by
  rw [intElements.eq_def]
  cases rest with
  | nil => rfl
  | cons next more =>
    simp only [startsPair_of_narrow hs hrest]
    rfl

lemma intElements_pair {dummy : Source} (hs : dummy.Pair s) :
    intElements f t d (dummy :: s :: rest) = (do
      let w ← f.resolve t s
      return lowHalf w.bits :: highHalf w.bits :: (← intElements f t d rest)) := by
  rw [intElements.eq_def]
  simp only [startsPair_of_pair hs]
  rfl

lemma intElements_of_lists (h : Lists f t .int ss es) :
    intElements f t d ss = .ok (es.map lowHalf) := by
  induction h with
  | nil =>
    rw [intElements]
    rfl
  | single _ hs hv h ih =>
    rw [intElements_single (hs rfl) h.isWideConstant_head, hv, ih]
    rfl
  | wide hty => cases hty
  | @pair dummy s a b ss es _ hs hv _ ih =>
    rw [intElements_pair hs, hv, ih, List.map_cons, List.map_cons, ← lowHalf_joined a b,
      ← highHalf_joined a b]
    rfl
  | run hty => cases hty

/-! ### Bytes -/

lemma runsFrom_replicate {n k : Nat} (htail : ∀ q ∈ tail.head?, q.isMarker = false) :
    runsFrom s n (List.replicate k .marker ++ tail) = (s, n + k) :: runs tail := by
  induction k generalizing n with
  | zero =>
    cases tail with
    | nil => rfl
    | cons q qs => simp [runsFrom, runs, htail q rfl]
  | succ k ih =>
    rw [List.replicate_succ, List.cons_append, runsFrom,
      show Source.marker.isMarker = true from rfl, if_pos rfl, ih, Nat.add_assoc, Nat.add_comm 1 k]

/-- A source with the markers after it is one run. -/
lemma runs_replicate {k : Nat} (htail : ∀ q ∈ tail.head?, q.isMarker = false) :
    runs (s :: (List.replicate k .marker ++ tail)) = (s, k + 1) :: runs tail := by
  rw [runs, runsFrom_replicate htail, Nat.add_comm]

/-- A list of bytes does not start with a marker, if what comes after it does not. -/
lemma Lists.isMarker_head (h : Lists f t .byte ss es)
    (htail : ∀ q ∈ tail.head?, q.isMarker = false) :
    ∀ q ∈ (ss ++ tail).head?, q.isMarker = false := by
  cases h with
  | nil => exact htail
  | single hty => exact absurd hty (by decide)
  | wide hty => cases hty
  | pair hty => cases hty
  | run _ hs =>
    intro q hq
    cases hq
    exact hs

lemma le_of_mem_runLengths : ∀ n ∈ runLengths, n ≤ 8 := by decide

/-- The listed bytes are read, and then what comes after them. -/
lemma byteElements_of_lists {index : Nat} (htail : ∀ q ∈ tail.head?, q.isMarker = false)
    (h : Lists f t .byte ss es) :
    byteElements f t index (runs (ss ++ tail)) =
      (es.map (BasicType.truncate .byte) ++ ·) <$>
        byteElements f t (index + es.length) (runs tail) := by
  induction h generalizing index with
  | nil => simp
  | single hty => exact absurd hty (by decide)
  | wide hty => cases hty
  | pair hty => cases hty
  | @run s v b bs ss es _ hs hlen hv hbytes h ih =>
    have hread := bytesOf_eq (le_of_mem_runLengths _ hlen) hbytes
    rw [List.cons_append, List.append_assoc, runs_replicate (h.isMarker_head htail), byteElements,
      guarantee, if_pos (by simpa using hlen), hv]
    have hnext : index + (bs.length + 1) + es.length = index + (b :: bs ++ es).length := by
      rw [List.length_append, List.length_cons, Nat.add_assoc]
    rw [List.length_cons] at hread
    simp only [ok_bind, ih, map_eq_pure_bind, bind_assoc, pure_bind, List.map_append,
      List.append_assoc, hread, hnext]

/-! ### Lengths -/

lemma length_wideElements (h : wideElements f t d ss = .ok es) : ss.length = 2 * es.length := by
  induction ss using wideElements.induct generalizing es with
  | case1 =>
    cases h
    rfl
  | case2 =>
    rw [wideElements] at h
    cases h
  | case3 _ s rest ih =>
    rw [wideElements, bind_eq_ok] at h
    obtain ⟨w, -, h⟩ := h
    obtain ⟨es, hes, h⟩ := bind_eq_ok.1 h
    cases h
    rw [List.length_cons, List.length_cons, ih hes, List.length_cons]
    omega

lemma length_intElements (h : intElements f t d ss = .ok es) : ss.length = es.length := by
  induction ss using intElements.induct f t d generalizing es with
  | case1 =>
    rw [intElements] at h
    cases h
    rfl
  | case2 s ih =>
    rw [intElements.eq_def] at h
    simp only [bind_eq_ok, pure_eq_ok] at h
    obtain ⟨w, -, es, hes, rfl⟩ := h
    simp [← ih hes]
  | case3 s next more ih ih' =>
    rw [intElements.eq_def] at h
    simp only [bind_eq_ok] at h
    obtain ⟨pair, -, h⟩ := h
    split_ifs at h
    · simp only [bind_eq_ok, pure_eq_ok] at h
      obtain ⟨w, -, es, hes, rfl⟩ := h
      simp [ih' hes]
    · simp only [bind_eq_ok, pure_eq_ok] at h
      obtain ⟨w, -, es, hes, rfl⟩ := h
      simp [← ih hes]

lemma length_plainElements {cut : Int64 → Int64} (h : plainElements f t cut ss = .ok es) :
    ss.length = es.length :=
  (mapM_eq_ok.1 h).length_eq

lemma sum_runsFrom {n : Nat} : ((runsFrom s n ss).map Prod.snd).sum = n + ss.length := by
  induction ss generalizing s n with
  | nil => rfl
  | cons q qs ih =>
    rw [runsFrom]
    split_ifs
    · rw [ih, List.length_cons]
      omega
    · rw [List.map_cons, List.sum_cons, ih, List.length_cons, Nat.add_comm 1]

lemma sum_runs : ((runs ss).map Prod.snd).sum = ss.length := by
  cases ss with
  | nil => rfl
  | cons s ss => rw [runs, sum_runsFrom, List.length_cons, Nat.add_comm]

lemma length_byteElements {index : Nat} {rs : List (Source × Nat)}
    (h : byteElements f t index rs = .ok es) : (rs.map Prod.snd).sum = es.length := by
  induction rs generalizing index es with
  | nil =>
    cases h
    rfl
  | cons r rs ih =>
    simp only [byteElements, bind_eq_ok, pure_eq_ok] at h
    obtain ⟨_, -, w, -, es', hes', rfl⟩ := h
    simp [ih hes', bytesOf]

/-- What is filled in is as long as what is allocated, whatever the sources are. -/
theorem arrayLength_of_primitiveElements {box : Option BasicType}
    (hk : d.klass = .primitiveArray ty box) (h : primitiveElements f t d ty = .ok es) :
    arrayLength d = .ok es.length := by
  have hlength : d.sources.length = sourcesPerElement ty * es.length := by
    cases ty with
    | long | double => exact length_wideElements h
    | int => exact (length_intElements h).trans (Nat.one_mul _).symm
    | byte => exact sum_runs.symm.trans ((length_byteElements h).trans (Nat.one_mul _).symm)
    | float | short | char | boolean =>
      exact (length_plainElements h).trans (Nat.one_mul _).symm
    | object | array | void | illegal =>
      obtain ⟨_, hnone, h⟩ := bind_eq_ok.1 h
      cases h
      exact List.length_eq_zero_iff.2 (List.isEmpty_iff.1 (guarantee_eq_ok.1 hnone))
  have hpos : 0 < sourcesPerElement ty := Nat.le_max_left ..
  rw [arrayLength, hk]
  simp only [Klass.element?, hlength, Nat.mul_mod_right, Nat.mul_div_cancel_left _ hpos]
  rfl

/-! ### Arrays of primitives -/

variable {box : Option BasicType} {p : Progress} {heap : Heap} {n : Nat}

lemma elementBytes_le (ty : BasicType) : ty.elementBytes ≤ 8 := by
  cases ty <;> decide

/-- The heap hands out an array of zeros, if it has the room. -/
lemma allocateOne_primitiveArray (sup : Supply) (hk : d.klass = .primitiveArray ty box)
    (hlength : arrayLength d = .ok n) (hn : 8 * n ≤ Body.addressable)
    (hnew : p.table.contains d.id = false)
    (hheap : p.memory.heap.reserve? (Klass.headerBytes + n * ty.elementBytes) = some heap) :
    ∃ r memory, allocateOne sup f p d =
        .ok { p with memory, table := p.table.insert d.id (some r) } ∧
      memory.store.body r = .primitives (Array.replicate n 0) := by
  have hbytes : d.klass.allocationBytes n = .ok (Klass.headerBytes + n * ty.elementBytes) := by
    have hsize : n * ty.elementBytes ≤ n * 8 := Nat.mul_le_mul_left n (elementBytes_le ty)
    have hfit : Klass.headerBytes + n * ty.elementBytes < wordLimit := by
      simp only [Klass.headerBytes, wordLimit, Body.addressable] at hn ⊢
      omega
    rw [hk]
    simp only [Klass.allocationBytes, ok_bind, checkedAdd_of_lt hfit,
      checkedMul_of_lt (Nat.lt_of_le_of_lt (Nat.le_add_left ..) hfit)]
  have hfresh : Body.fresh d.klass n = .ok (.primitives (Array.replicate n 0)) := by
    rw [hk, Body.fresh, if_pos hn]
  have hinstance : d.klass.isInstance = false := by rw [hk]; rfl
  have hmiss : lookup sup f p.table d = .ok .miss := by
    rw [lookup, hinstance]
    rfl
  let o : Object := { serial := heap.allocations, klass := d.klass
                      body := .primitives (Array.replicate n 0) }
  let memory : Memory := { heap, store := (p.memory.store.add o).2 }
  have hobject : newObject p.memory d = .ok (.ok ((p.memory.store.add o).1, memory)) := by
    simp only [newObject, hinstance, hlength, ok_bind, Memory.allocateArray, Memory.allocate,
      hbytes, hheap, hfresh]
    rfl
  refine ⟨(p.memory.store.add o).1, memory, ?_, ?_⟩
  · simp only [allocateOne, hnew, hmiss, ok_bind, hobject]
    rfl
  · rw [Store.body, Store.get_add_self]

lemma fillOne_primitiveArray {store : Store} {r : Ref} (hk : d.klass = .primitiveArray ty box)
    (hcached : t.isCached d.id = false) (hr : t.get d.id = some r) :
    fillOne f t store d = (do
      let es ← primitiveElements f t d ty
      return store.setBody r (.primitives es.toArray)) := by
  simp only [fillOne, hcached, hr, filledBody, hk, bind_assoc, pure_bind]
  rfl

lemma primitiveElements_of_lists (h : Lists f t ty d.sources es) :
    primitiveElements f t d ty = .ok (es.map ty.truncate) := by
  cases ty with
  | long | double =>
    exact (wideElements_of_lists rfl h).trans (congrArg Except.ok (List.map_id _).symm)
  | int => exact intElements_of_lists h
  | byte =>
    have hread : byteElements f t 0 (runs (d.sources ++ [])) = _ :=
      byteElements_of_lists (by simp) h
    rw [List.append_nil] at hread
    refine hread.trans ?_
    simp [runs, byteElements]
  | float | short | char | boolean =>
    exact plainElements_of_lists (by decide) (by decide) rfl h
  | object | array | void | illegal =>
    obtain ⟨hsources, rfl⟩ := h.eq_nil (by decide) (by decide) (by decide)
    rw [primitiveElements, hsources]
    rfl

/-- The array for a list of elements is allocated with room for exactly these, if the heap has it,
and filled in with them, cut to their type. A run of bytes that is not one, two, four or eight long
stops the runtime. -/
theorem elements_of_lists (hk : d.klass = .primitiveArray ty box) (h : Lists f t ty ss es) :
    (∀ sup p heap, p.table.contains d.id = false → 8 * es.length ≤ Body.addressable →
      p.memory.heap.reserve? (Klass.headerBytes + es.length * ty.elementBytes) = some heap →
      ∃ r memory, allocateOne sup f p { d with sources := ss } =
          .ok { p with memory, table := p.table.insert d.id (some r) } ∧
        memory.store.body r = .primitives (Array.replicate es.length 0)) ∧
    (∀ store r, t.isCached d.id = false → t.get d.id = some r →
      fillOne f t store { d with sources := ss } =
        .ok (store.setBody r (.primitives (es.map ty.truncate).toArray)) ∧
      ∀ s k tail, ty = .byte → s.isMarker = false → k + 1 ∉ runLengths →
        (∀ q ∈ tail.head?, q.isMarker = false) →
        fillOne f t store
            { d with sources := ss ++ s :: (List.replicate k .marker ++ tail) } =
          fatal (.byteRun (k + 1) es.length)) := by
  have hread : primitiveElements f t { d with sources := ss } ty = .ok (es.map ty.truncate) :=
    primitiveElements_of_lists h
  have hlength := arrayLength_of_primitiveElements (d := { d with sources := ss }) hk hread
  rw [List.length_map] at hlength
  refine ⟨fun sup p heap hnew hn hheap => ?_, fun store r hcached hr => ⟨?_, ?_⟩⟩
  · exact allocateOne_primitiveArray sup hk hlength hn hnew hheap
  · refine (fillOne_primitiveArray (d := { d with sources := ss }) hk hcached hr).trans ?_
    rw [hread]
    rfl
  · rintro s k tail rfl hs hlong htail
    have hbad : byteElements f t (0 + es.length)
        (runs (s :: (List.replicate k .marker ++ tail))) = fatal (.byteRun (k + 1) es.length) := by
      rw [runs_replicate htail, byteElements, guarantee, if_neg (by simpa using hlong),
        Nat.zero_add]
      rfl
    have hhead : ∀ q ∈ (s :: (List.replicate k Source.marker ++ tail)).head?,
        q.isMarker = false := by simpa using hs
    refine (fillOne_primitiveArray (d := { d with sources := ss ++ _ }) hk hcached hr).trans ?_
    rw [primitiveElements, byteElements_of_lists hhead h, hbad]
    rfl

namespace Listed

/-- A run of one byte, of whose source the rest does not count, and a run of four. -/
def bytes : List Source :=
  [.int 0x1ff, .int 0x10280ff, .marker, .marker, .marker]

def description : Description where
  id := 7
  klass := .primitiveArray .byte none
  sources := []

def table : Restored := ({} : Restored).insert 7 (some ⟨0⟩)

lemma lists : Lists Inherited.compiled table .byte bytes [-1, -1, -128, 2, 1] :=
  @Lists.run _ _ _ (.int 0x1ff) (.raw 0x1ff) (-1) [] _ _ rfl rfl (by decide) rfl (by decide)
    (@Lists.run _ _ _ (.int 0x10280ff) (.raw 0x10280ff) (-1) [-128, 2, 1] _ _ rfl rfl (by decide)
      rfl (by decide) .nil)

end Listed

/-- An array of five bytes is allocated and filled in. Three more bytes cannot be in one run. -/
theorem elements_of_lists_listed :
    Lists Inherited.compiled Listed.table .byte Listed.bytes [-1, -1, -128, 2, 1] ∧
    (∃ r memory, allocateOne default Inherited.compiled default
        { Listed.description with sources := Listed.bytes } =
          .ok { memory, table := Restored.insert {} 7 (some r) } ∧
      memory.store.body r = .primitives #[0, 0, 0, 0, 0]) ∧
    fillOne Inherited.compiled Listed.table {}
        { Listed.description with sources := Listed.bytes } =
      .ok (Store.setBody {} ⟨0⟩ (.primitives #[-1, -1, -128, 2, 1])) ∧
    fillOne Inherited.compiled Listed.table {}
        { Listed.description with sources := Listed.bytes ++ [.int 0, .marker, .marker] } =
      fatal (.byteRun 3 5) := by
  obtain ⟨hallocated, hfilled⟩ := elements_of_lists (d := Listed.description) rfl Listed.lists
  obtain ⟨hfilled, hlong⟩ := hfilled {} ⟨0⟩ rfl rfl
  refine ⟨Listed.lists, ?_, hfilled, hlong (.int 0) 2 [] rfl rfl (by decide) (by simp)⟩
  exact hallocated default default _ rfl (by decide) rfl

end Bailout.Restore
