import Mathlib.Data.List.Nodup
import Mathlib.Data.Set.Subsingleton
import Mathlib.Order.CompletePartialOrder
import Mathlib.Order.Interval.Set.Disjoint
import Mathlib.Tactic.Common
import Bailout.Proofs.Checked
import Bailout.Proofs.Compiled.Installed

/-!
# Where code lies

Addresses are handed out in lots, one behind the other. Regions that are installed in lots of their
own do not overlap as long as the lots do not wrap around the address space, so an address belongs
to at most one region and it does not matter in which order the regions are searched for it.
-/

namespace Bailout

/-- The addresses of the code. -/
def Region.range (x : Region) : Set Nat := Set.Ico x.start (x.start + x.size)

instance (x : Region) (pc : Nat) : Decidable (pc ∈ x.range) :=
  inferInstanceAs (Decidable (x.start ≤ pc ∧ pc < x.start + x.size))

lemma Region.contains_eq {x : Region} (h : x.start + x.size < wordLimit) (pc : Nat) :
    x.contains pc = .ok (decide (pc ∈ x.range)) := by
  simp only [contains, range, Set.mem_Ico]
  split_ifs with hpc
  · simp only [checkedAdd_of_lt h, bind, Except.bind, pure, Except.pure, hpc, true_and]
  · simp only [pure, Except.pure, hpc, false_and, decide_false]

namespace CodeCache

/-! ### Lots -/

/-- The first address that is handed out. -/
def base : Nat := 0x100000

/-- Addresses that were set aside for code of a size. -/
structure Lot where
  start : Nat
  size : Nat
  deriving DecidableEq, Repr

/-- The bytes that lots take. -/
def taken (lots : List Lot) : Nat := (lots.map fun x => alignedSize x.size).sum

variable {lots : List Lot} {x : Lot} {i j k : Nat}

lemma alignedSize_pos (n : Nat) : 0 < alignedSize n :=
  Nat.lt_of_lt_of_le (by decide) (le_max_left _ _)

lemma le_alignedSize (n : Nat) : n ≤ alignedSize n := by
  have := le_max_right alignment ((n + 15) / 16 * 16)
  rw [alignedSize]
  omega

lemma taken_append (lots lots' : List Lot) : taken (lots ++ lots') = taken lots + taken lots' := by
  simp [taken]

lemma taken_take_le (lots : List Lot) (h : i ≤ j) : taken (lots.take i) ≤ taken (lots.take j) := by
  obtain ⟨rest, hrest⟩ := List.take_prefix_take_left (l := lots) h
  rw [← hrest, taken_append]
  exact Nat.le_add_right _ _

lemma taken_take_le_self (lots : List Lot) (i : Nat) : taken (lots.take i) ≤ taken lots := by
  conv_rhs => rw [← List.take_append_drop i lots, taken_append]
  exact Nat.le_add_right _ _

/-- A lot reaches as far as the next one. -/
lemma taken_take_succ (h : lots[k]? = some x) :
    taken (lots.take (k + 1)) = taken (lots.take k) + alignedSize x.size := by
  rw [List.take_add_one, h, taken_append]
  simp [taken]

/-- Every lot takes some bytes, so only the first one begins where the first address is. -/
lemma taken_take_eq_zero (hk : k < lots.length) : taken (lots.take k) = 0 ↔ k = 0 := by
  constructor
  · intro hzero
    by_contra hne
    have hfirst := taken_take_succ (List.getElem?_eq_getElem (Nat.zero_lt_of_lt hk))
    have hle : taken (lots.take (0 + 1)) ≤ taken (lots.take k) :=
      taken_take_le lots (Nat.one_le_iff_ne_zero.2 hne)
    have hpos := alignedSize_pos lots[0].size
    omega
  · rintro rfl
    rfl

/-! ### Histories -/

/-- The compilation ids of all regions that were ever installed. -/
def compileIds (c : CodeCache) : List Nat :=
  (List.range c.regions.size).map fun r => (c.region r).compileId

/-- A cache after some lots were set aside in it and some regions were installed, each at the start
of a lot and no larger than it. The sites say which lot each region is in. -/
inductive Built : List Lot → List Nat → CodeCache → Prop
  | new : Built [] [] {}
  | reserve {lots : List Lot} {sites : List Nat} {c c' : CodeCache} {n a : Nat}
      (built : Built lots sites c) (reserved : c.reserve n = .ok (a, c')) :
      Built (lots ++ [⟨a, n⟩]) sites c'
  | install {lots : List Lot} {sites : List Nat} {c : CodeCache} {k : Nat} {lot : Lot} {x : Region}
      (built : Built lots sites c) (lot_eq : lots[k]? = some lot) (start_eq : x.start = lot.start)
      (size_le : x.size ≤ alignedSize lot.size) :
      Built lots (sites ++ [k]) (c.install x)

variable {sites : List Nat} {c c' : CodeCache} {a n r q pc : Nat}

lemma reserve_eq_ok : c.reserve n = .ok (a, c') ↔ alignedSize n < wordLimit ∧
    a = c.nextAddress ∧
    c' = { c with nextAddress := (c.nextAddress + alignedSize n) % wordLimit } := by
  unfold reserve
  split_ifs with h
  · simp [h, eq_comm]
  · simp [h]

/-- New code that does not say where it starts is installed in a lot of its own. -/
theorem Built.add {compileId size frameWords : Nat} {method : Method} {handler : Option Nat}
    {seesInjected : Bool} {debug : DebugInfo} (hb : Built lots sites c)
    (h : c.add compileId method size none handler frameWords seesInjected debug = .ok (r, c')) :
    ∃ a, Built (lots ++ [⟨a, size⟩]) (sites ++ [lots.length]) c' := by
  simp only [CodeCache.add, bind_eq_ok, pure_eq_ok] at h
  obtain ⟨⟨a, d⟩, hreserve, _, -, h⟩ := h
  cases h
  exact ⟨a, .install (hb.reserve hreserve) List.getElem?_concat_length rfl (le_alignedSize size)⟩

/-- What lots and sites say about a cache. -/
structure Placed (lots : List Lot) (sites : List Nat) (c : CodeCache) : Prop where
  next : c.nextAddress = (base + taken lots) % wordLimit
  starts : ∀ k x, lots[k]? = some x → x.start = (base + taken (lots.take k)) % wordLimit
  size : c.regions.size = sites.length
  regions : ∀ r k, sites[r]? = some k → ∃ x, lots[k]? = some x ∧
    (c.region r).start = x.start ∧ (c.region r).size ≤ alignedSize x.size
  installed : ∀ r ∈ c.installed.values, r < c.regions.size
  ids : ∀ i r, c.get? i = some r → r < c.regions.size ∧ (c.region r).compileId = i

lemma Placed.new : Placed [] [] {} where
  next := rfl
  starts := by simp
  size := rfl
  regions := by simp
  installed := by
    intro r hr
    cases hr
  ids := by
    intro i r hr
    cases hr

lemma Placed.reserve (h : Placed lots sites c) (hr : c.reserve n = .ok (a, c')) :
    Placed (lots ++ [⟨a, n⟩]) sites c' := by
  obtain ⟨-, rfl, rfl⟩ := reserve_eq_ok.1 hr
  refine ⟨?_, ?_, h.size, ?_, h.installed, h.ids⟩
  · rw [h.next, Nat.mod_add_mod, taken_append, ← Nat.add_assoc]
    rfl
  · intro k x hx
    rcases Nat.lt_trichotomy k lots.length with hk | rfl | hk
    · rw [List.getElem?_append_left hk] at hx
      rw [List.take_append_of_le_length hk.le]
      exact h.starts k x hx
    · rw [List.getElem?_concat_length] at hx
      cases hx
      rw [List.take_left']
      · exact h.next
      · rfl
    · rw [List.getElem?_eq_none (by simpa using Nat.succ_le_of_lt hk)] at hx
      cases hx
  · intro r k hk
    obtain ⟨x, hx, hplace⟩ := h.regions r k hk
    obtain ⟨hlt, -⟩ := List.getElem?_eq_some_iff.1 hx
    exact ⟨x, (List.getElem?_append_left hlt).trans hx, hplace⟩

lemma Placed.install {y : Region} (h : Placed lots sites c) (hk : lots[k]? = some x)
    (hstart : y.start = x.start) (hsize : y.size ≤ alignedSize x.size) :
    Placed lots (sites ++ [k]) (c.install y) := by
  refine ⟨h.next, h.starts, ?_, ?_, ?_, ?_⟩
  · rw [size_install, h.size, List.length_append, List.length_singleton]
  · intro r i hi
    rw [region_install]
    rcases Nat.lt_trichotomy r sites.length with hr | rfl | hr
    · rw [List.getElem?_append_left hr] at hi
      rw [if_neg (by rw [h.size]; exact hr.ne)]
      exact h.regions r i hi
    · rw [List.getElem?_concat_length] at hi
      cases hi
      rw [if_pos h.size.symm]
      exact ⟨x, hk, hstart, hsize⟩
    · rw [List.getElem?_eq_none (by simpa using Nat.succ_le_of_lt hr)] at hi
      cases hi
  · intro r hr
    rw [size_install]
    rcases mem_values_set hr with rfl | hr
    · exact Nat.lt_succ_self _
    · exact Nat.lt_succ_of_lt (h.installed r hr)
  · intro i r hr
    rw [size_install, region_install]
    simp only [CodeCache.get?, CodeCache.install, Table.get?_set] at hr
    split_ifs at hr with hi
    · cases hr
      exact ⟨Nat.lt_succ_self _, by rw [if_pos rfl]; exact hi.symm⟩
    · obtain ⟨hlt, hid⟩ := h.ids i r hr
      exact ⟨Nat.lt_succ_of_lt hlt, by rwa [if_neg hlt.ne]⟩

theorem Built.placed (hb : Built lots sites c) : Placed lots sites c := by
  induction hb with
  | new => exact .new
  | reserve _ hr ih => exact ih.reserve hr
  | install _ hk hstart hsize ih => exact ih.install hk hstart hsize

/-! ### Lots that do not wrap -/

namespace Placed

variable (h : Placed lots sites c) (hfit : taken lots < wordLimit - base)

include h hfit

lemma start_eq (hx : lots[k]? = some x) : x.start = base + taken (lots.take k) := by
  have hle := taken_take_le_self lots k
  rw [h.starts k x hx, Nat.mod_eq_of_lt (by omega)]

/-- A region begins where its lot does, and ends before the next lot. -/
lemma exists_site (hr : r < c.regions.size) : ∃ k, sites[r]? = some k ∧
    (c.region r).start = base + taken (lots.take k) ∧
    (c.region r).start + (c.region r).size ≤ base + taken (lots.take (k + 1)) := by
  rw [h.size] at hr
  obtain ⟨x, hx, hstart, hsize⟩ := h.regions r sites[r] (List.getElem?_eq_getElem hr)
  refine ⟨sites[r], List.getElem?_eq_getElem hr, hstart.trans (h.start_eq hfit hx), ?_⟩
  rw [hstart, h.start_eq hfit hx, taken_take_succ hx]
  omega

lemma stop_lt (hr : r < c.regions.size) :
    (c.region r).start + (c.region r).size < wordLimit := by
  obtain ⟨k, -, -, hstop⟩ := h.exists_site hfit hr
  have hle := taken_take_le_self lots (k + 1)
  omega

/-- The first address is that of code just if the code lies in the first lot. -/
lemma base_mem_range_iff (hr : r < c.regions.size) :
    base ∈ (c.region r).range ↔ sites[r]? = some 0 ∧ 0 < (c.region r).size := by
  obtain ⟨k, hk, hstart, -⟩ := h.exists_site hfit hr
  obtain ⟨x, hx, -⟩ := h.regions r k hk
  obtain ⟨hlt, -⟩ := List.getElem?_eq_some_iff.1 hx
  rw [hk, Option.some.injEq, ← taken_take_eq_zero hlt, Region.range, Set.mem_Ico, hstart]
  omega

/-- Regions in different lots do not overlap. -/
lemma disjoint_range (hown : sites.Nodup) (hr : r < c.regions.size) (hq : q < c.regions.size)
    (hne : r ≠ q) : Disjoint (c.region r).range (c.region q).range := by
  obtain ⟨i, hi, hi₀, hi₁⟩ := h.exists_site hfit hr
  obtain ⟨j, hj, hj₀, hj₁⟩ := h.exists_site hfit hq
  have hij : i ≠ j := by
    rintro rfl
    exact hne ((List.getElem?_inj (h.size ▸ hr) hown).1 (hi.trans hj.symm))
  rw [Region.range, Region.range, Set.Ico_disjoint_Ico]
  -- Whichever lot comes first ends before the other one begins.
  rcases Nat.lt_or_gt_of_ne hij with hlt | hlt
  · have hle : taken (lots.take (i + 1)) ≤ taken (lots.take j) := taken_take_le lots hlt
    exact (min_le_left _ _).trans (le_max_of_le_right (by omega))
  · have hle : taken (lots.take (j + 1)) ≤ taken (lots.take i) := taken_take_le lots hlt
    exact (min_le_right _ _).trans (le_max_of_le_left (by omega))

end Placed

/-! ### Looking an address up -/

lemma findIn_eq {rs : List Nat}
    (h : ∀ r ∈ rs, (c.region r).start + (c.region r).size < wordLimit) (pc : Nat) :
    c.findIn pc rs = .ok (rs.find? fun r => pc ∈ (c.region r).range) := by
  induction rs with
  | nil => rfl
  | cons r rs ih =>
    rw [findIn, Region.contains_eq (h r List.mem_cons_self), List.find?_cons,
      ih fun q hq => h q (List.mem_cons_of_mem r hq)]
    by_cases hpc : pc ∈ (c.region r).range <;> simp [hpc, bind, Except.bind, pure, Except.pure]

namespace Placed

variable (h : Placed lots sites c) (hfit : taken lots < wordLimit - base) {rs qs : List Nat}
  (hrs : ∀ r ∈ rs, r < c.regions.size)

include h hfit hrs

lemma findIn_eq (pc : Nat) :
    c.findIn pc rs = .ok (rs.find? fun r => pc ∈ (c.region r).range) :=
  CodeCache.findIn_eq (fun r hr => h.stop_lt hfit (hrs r hr)) pc

lemma findIn_eq_none : c.findIn pc rs = .ok none ↔ ∀ r ∈ rs, pc ∉ (c.region r).range := by
  simp [h.findIn_eq hfit hrs]

/-- As there is at most one region at an address, the search ends at that one. -/
lemma findIn_eq_some (hown : sites.Nodup) :
    c.findIn pc rs = .ok (some r) ↔ r ∈ rs ∧ pc ∈ (c.region r).range := by
  rw [h.findIn_eq hfit hrs, Except.ok.injEq]
  constructor
  · intro hr
    exact ⟨List.mem_of_find?_eq_some hr, by simpa using List.find?_some hr⟩
  · rintro ⟨hr, hpc⟩
    obtain ⟨q, hq⟩ : ∃ q, rs.find? (fun r => pc ∈ (c.region r).range) = some q :=
      Option.isSome_iff_exists.1 (List.find?_isSome.2 ⟨r, hr, by simpa using hpc⟩)
    have hqc : pc ∈ (c.region q).range := by simpa using List.find?_some hq
    by_contra hne
    have hdisjoint := h.disjoint_range hfit hown (hrs r hr)
      (hrs q (List.mem_of_find?_eq_some hq)) fun e => hne (e ▸ hq)
    exact Set.disjoint_left.1 hdisjoint hpc hqc

lemma findIn_perm (hown : sites.Nodup) (hp : qs.Perm rs) : c.findIn pc qs = c.findIn pc rs := by
  have hqs : ∀ r ∈ qs, r < c.regions.size := fun r hr => hrs r (hp.mem_iff.1 hr)
  obtain ⟨found, hfound⟩ : ∃ found, c.findIn pc rs = .ok found := ⟨_, h.findIn_eq hfit hrs pc⟩
  rw [hfound]
  cases found with
  | none =>
    rw [h.findIn_eq_none hfit hrs] at hfound
    exact (h.findIn_eq_none hfit hqs).2 fun r hr => hfound r (hp.mem_iff.1 hr)
  | some r =>
    obtain ⟨hr, hpc⟩ := (h.findIn_eq_some hfit hrs hown).1 hfound
    exact (h.findIn_eq_some hfit hqs hown).2 ⟨hp.mem_iff.2 hr, hpc⟩

end Placed

/-- No installed region covers an address, and none is found there. -/
def Free (c : CodeCache) (pc : Nat) : Prop :=
  (∀ r ∈ c.installed.values, pc ∉ (c.region r).range) ∧ c.findByPc pc = .ok none

lemma Placed.free_iff (h : Placed lots sites c) (hfit : taken lots < wordLimit - base) :
    c.Free pc ↔ ∀ r ∈ c.installed.values, pc ∉ (c.region r).range := by
  rw [Free, findByPc, h.findIn_eq_none hfit h.installed]
  exact and_self_iff

/-! ### Regions with compilation ids of their own -/

lemma compileIds_install (c : CodeCache) (y : Region) :
    (c.install y).compileIds = c.compileIds ++ [y.compileId] := by
  rw [compileIds, size_install, List.range_succ, List.map_append, List.map_singleton,
    region_install, if_pos rfl]
  refine congrArg (· ++ _) (List.map_congr_left fun r hr => ?_)
  rw [region_install, if_neg (List.mem_range.1 hr).ne]

/-- No region takes the place of another one with the same compilation id. -/
lemma Built.installed_values (hb : Built lots sites c) (hids : c.compileIds.Nodup) :
    c.installed.values = List.range c.regions.size := by
  induction hb with
  | new => rfl
  | reserve _ hr ih =>
    obtain ⟨-, -, rfl⟩ := reserve_eq_ok.1 hr
    exact ih hids
  | @install _ _ c _ _ y hb _ _ _ ih =>
    rw [compileIds_install, List.nodup_append'] at hids
    obtain ⟨hids, -, hnew⟩ := hids
    have hfresh : c.installed.get? y.compileId = none := by
      by_contra hsome
      obtain ⟨r, hr⟩ := Option.ne_none_iff_exists'.1 hsome
      obtain ⟨hlt, hid⟩ := hb.placed.ids _ r hr
      exact hnew (List.mem_map.2 ⟨r, List.mem_range.2 hlt, hid⟩) List.mem_cons_self
    rw [size_install, List.range_succ, ← ih hids]
    exact Table.values_set_of_none _ hfresh

/-- As long as the lots fit into the address space, each is where the ones before it end. Regions in
lots of their own do not overlap, so every address belongs to at most one of them. A search finds
the one that an address belongs to, in whatever order it looks at the regions. -/
theorem disjoint_ranges_of_built (hb : Built lots sites c) (hfit : taken lots < wordLimit - base)
    (hown : sites.Nodup) (hids : c.compileIds.Nodup) :
    (∀ n, taken lots + alignedSize n < wordLimit - base →
      ∃ c', c.reserve n = .ok (base + taken lots, c')) ∧
    (∀ r < c.regions.size, ∀ q < c.regions.size, r ≠ q →
      Disjoint (c.region r).range (c.region q).range) ∧
    (∀ pc, {r | r < c.regions.size ∧ pc ∈ (c.region r).range}.Subsingleton) ∧
    (∀ pc r, c.findByPc pc = .ok (some r) ↔ r < c.regions.size ∧ pc ∈ (c.region r).range) ∧
    (∀ pc, c.findByPc pc = .ok none ↔ ∀ r < c.regions.size, pc ∉ (c.region r).range) ∧
    ∀ pc rs, rs.Perm c.installed.values → c.findIn pc rs = c.findByPc pc := by
  have h := hb.placed
  have hvalues := hb.installed_values hids
  have hmem : ∀ r, r ∈ c.installed.values ↔ r < c.regions.size := fun r => by
    rw [hvalues, List.mem_range]
  refine ⟨fun n hn => ?_, fun r hr q hq => h.disjoint_range hfit hown hr hq, ?_, fun pc r => ?_,
    fun pc => ?_, fun pc rs => h.findIn_perm hfit h.installed hown⟩
  · refine ⟨_, reserve_eq_ok.2 ⟨by omega, ?_, rfl⟩⟩
    rw [h.next, Nat.mod_eq_of_lt (by omega)]
  · rintro pc r ⟨hr, hpc⟩ q ⟨hq, hqc⟩
    by_contra hne
    exact Set.disjoint_left.1 (h.disjoint_range hfit hown hr hq hne) hpc hqc
  · rw [findByPc, h.findIn_eq_some hfit h.installed hown, hmem]
  · rw [findByPc, h.findIn_eq_none hfit h.installed]
    simp only [hmem]

/-- Three lots, one of them for code of no size, and regions in the last and in the first. -/
def scattered : CodeCache :=
  let c : CodeCache := { nextAddress := 0x100060 }
  let c := c.install ⟨0, 7, default, 0x100020, 50, 34, 4, false, {}⟩
  c.install ⟨0, 3, default, 0x100000, 16, 0, 4, false, {}⟩

def scatteredLots : List Lot := [⟨0x100000, 0⟩, ⟨0x100010, 5⟩, ⟨0x100020, 50⟩]

lemma built_scattered : Built scatteredLots [2, 0] scattered := by
  have h₁ : Built [⟨0x100000, 0⟩] [] { nextAddress := 0x100010 } := Built.new.reserve rfl
  have h₂ : Built [⟨0x100000, 0⟩, ⟨0x100010, 5⟩] [] { nextAddress := 0x100020 } := h₁.reserve rfl
  have h₃ : Built scatteredLots [] { nextAddress := 0x100060 } := h₂.reserve rfl
  exact (h₃.install rfl rfl (by decide)).install rfl rfl (by decide)

/-- The first lot ends where the second one begins, in which there is no code. -/
theorem disjoint_ranges_scattered :
    taken scatteredLots < wordLimit - base ∧ [2, 0].Nodup ∧ scattered.compileIds.Nodup ∧
    (∃ c', scattered.reserve 1 = .ok (0x100060, c')) ∧
    Disjoint (scattered.region 0).range (scattered.region 1).range ∧
    scattered.findByPc 0x10000f = .ok (some 1) ∧ scattered.findByPc 0x100010 = .ok none ∧
    scattered.findIn 0x100020 [1, 0] = .ok (some 0) := by
  have hfit : taken scatteredLots < wordLimit - base := by decide
  have hown : [2, 0].Nodup := by decide
  have hids : scattered.compileIds.Nodup := by decide
  obtain ⟨hreserve, hdisjoint, -, hsome, hnone, hperm⟩ :=
    disjoint_ranges_of_built built_scattered hfit hown hids
  refine ⟨hfit, hown, hids, hreserve 1 (by decide), hdisjoint 0 (by decide) 1 (by decide)
    (by decide), (hsome _ _).2 (by decide), (hnone _).2 (by decide), ?_⟩
  rw [hperm _ _ (by decide)]
  exact (hsome _ _).2 (by decide)

end CodeCache
end Bailout
