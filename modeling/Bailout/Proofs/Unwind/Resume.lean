import Bailout.Proofs.Compiled.Ranges
import Bailout.Proofs.Unwind.Sizes

/-!
# Where activations resume

Every activation that a plan puts in place of a compiled frame resumes at one and the same address.
It is meant to be an address of the interpreter, but it is also the first address that is set aside
for code.
-/

namespace Bailout

namespace Unwind

variable {s : Restore.Supply} {m m' : Memory} {t u v : Thread} {mode mode' : Mode} {l : Layout}
  {p : Plan}

/-! ### What is planned -/

/-- A plan has an activation at least, and a size and an address for each. -/
structure Fits (p : Plan) : Prop where
  frames : p.frames ≠ []
  sizes : p.layout.sizes.length = p.frames.length
  pcs : p.layout.pcs.tail = List.replicate p.frames.length interpreterEntry

theorem fits_of_fetch (h : fetch s m t mode = .ok (l, m', u)) :
    ∃ p, u.plan = some p ∧ p.layout = l ∧ Fits p := by
  obtain ⟨frame, caller, f, r, got, p, sizes, saved, hp, rfl, -, hreaches, hsizes, hlayout⟩ :=
    reaches_of_fetch h
  obtain ⟨-, rfl⟩ := Packed.sizesFrom_eq_ok.1 hsizes
  refine ⟨p, hp, rfl, hreaches.ne_nil, ?_, ?_⟩ <;> rw [← (layout_eq_ok.1 hlayout).2] <;> simp

/-! ### What is laid down -/

/-- Each activation resumes where it was planned to. -/
lemma lay_spec {xs : List (Packed × Nat × Nat)} (h : lay l mode t xs = .ok u) :
    ∃ fs, u.stack = fs ++ t.stack ∧
      List.Forall₂ (fun x g => ∃ isTop, Lays l mode isTop x.1 x.2.1 x.2.2 g) xs fs.reverse := by
  induction xs generalizing t with
  | nil =>
    cases h
    exact ⟨[], rfl, .nil⟩
  | cons x xs ih =>
    rw [lay, bind_eq_ok] at h
    obtain ⟨v, hv, h⟩ := h
    obtain ⟨-, sp, -, hstack⟩ := Thread.push_spec hv
    obtain ⟨g, hstack, hg⟩ : ∃ g, v.stack = g :: t.stack ∧
        Lays l mode xs.isEmpty x.1 x.2.1 x.2.2 g := ⟨_, hstack, rfl, rfl, rfl⟩
    obtain ⟨fs, hfs, hlays⟩ := ih h
    refine ⟨fs ++ [g], ?_, ?_⟩
    · rw [hfs, hstack, List.append_assoc, List.singleton_append]
    · rw [List.reverse_append]
      exact .cons ⟨xs.isEmpty, hg⟩ hlays

lemma length_rooms (l : Layout) : (rooms l).length = l.sizes.length := by
  unfold rooms Layout.frameWords
  cases l.sizes <;> simp

/-- The activations that take the place of a compiled frame, each of which is interpreted and
resumes where all do. -/
theorem unpack_resumes (hp : t.plan = some p) (hfits : Fits p) {verify : Bool} {ty : BasicType}
    (h : unpack .faithful verify t mode = .ok (ty, u)) :
    ∃ stubs f below fs, t.stack = stubs ++ f :: below ∧ f.id = p.deoptee ∧
      u.stack = fs ++ below ∧ fs.length = p.frames.length ∧
      ∀ g ∈ fs, g.kind.interpreted?.isSome = true ∧ g.pc = interpreterEntry := by
  obtain ⟨q, v, hq, hrun, rfl⟩ := unpack_spec h
  obtain rfl : q = p := Option.some.inj (hq.symm.trans hp)
  rw [Unpacker.run, replace, bind_eq_ok] at hrun
  obtain ⟨w, hdrop, hlay⟩ := hrun
  obtain ⟨stubs, f, hstack, hid, -, -⟩ := dropDeoptee_spec hdrop
  obtain ⟨fs, hfs, hlays⟩ := lay_spec hlay
  refine ⟨stubs, f, w.stack, fs, hstack, hid, hfs, ?_, fun g hg => ?_⟩
  · rw [← List.length_reverse, ← hlays.length_eq, List.length_zip, List.length_zip,
      List.length_reverse, length_rooms, hfits.sizes, hfits.pcs, List.length_replicate,
      Nat.min_self, Nat.min_self]
  · obtain ⟨x, hx, isTop, hkind, -, hpc⟩ :=
      exists_mem_of_forall₂ hlays (List.mem_reverse.2 hg)
    have hplanned : x.2.2 ∈ q.layout.pcs.tail := (List.of_mem_zip (List.of_mem_zip hx).2).2
    rw [hfits.pcs] at hplanned
    exact ⟨by rw [hkind]; rfl, hpc.trans (List.eq_of_mem_replicate hplanned)⟩

/-! ### Whose addresses they are -/

open CodeCache (Lot Built taken base)

variable {lots : List Lot} {sites : List Nat} {c : CodeCache} {pc : Nat}

lemma free_interpreterEntry_iff (hb : Built lots sites c)
    (hfit : taken lots < wordLimit - base) : c.Free interpreterEntry ↔
      ∀ r ∈ c.installed.values, sites[r]? = some 0 → (c.region r).size = 0 := by
  have h := hb.placed
  rw [h.free_iff hfit]
  refine forall₂_congr fun r hr => ?_
  rw [show interpreterEntry = base from rfl, h.base_mem_range_iff hfit (h.installed r hr)]
  simp [Nat.pos_iff_ne_zero]

/-- None of the addresses at which planned activations resume lies in installed code, just when
there is no code in the first lot that was set aside. The same is true of the activations once they
took the place of the compiled frame. -/
theorem resumes_free_iff (hb : Built lots sites c) (hfit : taken lots < wordLimit - base)
    (hfetch : fetch s m t mode = .ok (l, m', u)) :
    ((∀ pc ∈ l.pcs.tail, c.Free pc) ↔
      ∀ r ∈ c.installed.values, sites[r]? = some 0 → (c.region r).size = 0) ∧
    ∀ verify mode' ty v, unpack .faithful verify u mode' = .ok (ty, v) →
      ∃ stubs f below fs, u.stack = stubs ++ f :: below ∧ v.stack = fs ++ below ∧
        fs.length = l.sizes.length ∧ (∀ g ∈ fs, g.kind.interpreted?.isSome = true) ∧
        ((∀ g ∈ fs, c.Free g.pc) ↔
          ∀ r ∈ c.installed.values, sites[r]? = some 0 → (c.region r).size = 0) := by
  obtain ⟨p, hp, rfl, hfits⟩ := fits_of_fetch hfetch
  have hpos : p.frames.length ≠ 0 := fun hzero => hfits.frames (List.length_eq_zero_iff.1 hzero)
  rw [← free_interpreterEntry_iff hb hfit]
  refine ⟨?_, fun verify mode' ty v hunpack => ?_⟩
  · simp [hfits.pcs, List.mem_replicate, hpos]
  · obtain ⟨stubs, f, below, fs, hstack, -, hlaid, hlength, hfs⟩ := unpack_resumes hp hfits hunpack
    refine ⟨stubs, f, below, fs, hstack, hlaid, hlength.trans hfits.sizes.symm,
      fun g hg => (hfs g hg).1, fun hfree => ?_, fun hfree g hg => ?_⟩
    · obtain ⟨g, hg⟩ := List.exists_mem_of_length_pos (Nat.pos_of_ne_zero (hlength ▸ hpos))
      rw [← (hfs g hg).2]
      exact hfree g hg
    · rw [(hfs g hg).2]
      exact hfree

/-! ### Code in the first lot and in the second

Two caches to compare: one with code in the first lot that was set aside, and one in which the first
lot was left empty. -/

namespace Lots

def first : List Lot := [⟨0x100000, 64⟩]

def second : List Lot := [⟨0x100000, 64⟩, ⟨0x100040, 64⟩]

/-- Compiled code into which nothing was inlined. -/
def region (start : Nat) : Region where
  ref := 0
  compileId := 1
  method := default
  start := start
  size := 64
  handlerOffset := 48
  debug := ⟨[{ offset := 8, scopes := [{ method := default, bci := 0 }] }]⟩

def inFirst : CodeCache := CodeCache.install { nextAddress := 0x100040 } (region 0x100000)

def inSecond : CodeCache := CodeCache.install { nextAddress := 0x100080 } (region 0x100040)

lemma built_inFirst : Built first [0] inFirst := by
  have h : Built first [] { nextAddress := 0x100040 } := Built.new.reserve rfl
  exact h.install rfl rfl (by decide)

lemma built_inSecond : Built second [1] inSecond := by
  have h₁ : Built first [] { nextAddress := 0x100040 } := Built.new.reserve rfl
  have h₂ : Built second [] { nextAddress := 0x100080 } := h₁.reserve rfl
  exact h₂.install rfl rfl (by decide)

/-- A thread that stands in the code. -/
def thread (c : CodeCache) : Thread where
  id := 1
  name := "main"
  stack := [
    ⟨2, Thread.stackBase - 8, 4, (c.region 0).start + 8,
      .compiled { region := c.region 0, slots := #[] }⟩,
    ⟨1, Thread.stackBase - 4, 4, 0x40, .entry⟩]
  lastFrameId := 2

end Lots

/-- The frame of code in the second lot becomes an activation that resumes outside of all code. -/
theorem resumes_free_second : taken Lots.second < wordLimit - base ∧
    ∃ l m' u ty v, fetch ⟨{}, {}⟩ {} (Lots.thread Lots.inSecond) .plain = .ok (l, m', u) ∧
      unpack .faithful true u .plain = .ok (ty, v) ∧ (∀ pc ∈ l.pcs.tail, Lots.inSecond.Free pc) ∧
      ∃ fs below, v.stack = fs ++ below ∧ fs.length = l.sizes.length ∧
        ∀ g ∈ fs, Lots.inSecond.Free g.pc := by
  have hfit : taken Lots.second < wordLimit - base := by decide
  have hempty : ∀ r ∈ Lots.inSecond.installed.values, [1][r]? = some 0 →
      (Lots.inSecond.region r).size = 0 := by decide
  obtain ⟨l, m', u, hfetch, ty, v, hunpack⟩ : ∃ l m' u,
      fetch ⟨{}, {}⟩ {} (Lots.thread Lots.inSecond) .plain = .ok (l, m', u) ∧
      ∃ ty v, unpack .faithful true u .plain = .ok (ty, v) := ⟨_, _, _, rfl, _, _, rfl⟩
  obtain ⟨hpcs, hframes⟩ := resumes_free_iff Lots.built_inSecond hfit hfetch
  obtain ⟨stubs, f, below, fs, -, hstack, hlength, -, hfree⟩ := hframes true .plain ty v hunpack
  exact ⟨hfit, l, m', u, ty, v, hfetch, hunpack, hpcs.2 hempty, fs, below, hstack, hlength,
    hfree.2 hempty⟩

/-- The frame of code in the first lot becomes an activation that resumes at the beginning of that
very code. -/
theorem resumes_inside_first : Built Lots.first [0] Lots.inFirst ∧
    Lots.inFirst.findByPc 0x100000 = .ok (some 0) ∧
    ∃ l m' u ty v, fetch ⟨{}, {}⟩ {} (Lots.thread Lots.inFirst) .plain = .ok (l, m', u) ∧
      l.pcs.tail = [0x100000] ∧ unpack .faithful true u .plain = .ok (ty, v) ∧
      v.stack.map (fun f => (f.kind.interpreted?.isSome, f.pc)) =
        [(true, 0x100000), (false, 0x40)] :=
  ⟨Lots.built_inFirst, rfl, _, _, _, _, _, rfl, rfl, rfl, rfl⟩

end Unwind
end Bailout
