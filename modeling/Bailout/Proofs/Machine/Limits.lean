import Bailout.Proofs.Machine.Escalation
import Bailout.Proofs.Round.AtOnce

/-!
# Limits hold over any run

While a machine runs, traps fire at all places and for all reasons, the interpreter records traps of
its own, and code is installed, marked and deoptimized. All of that only adds to what is known about
a method. So the trap limit of a bytecode and the cutoff for its recompilations are kept by counting
what happens at the bytecode, whatever else happens, and whether or not there is room for its
record.
-/

namespace Bailout

/-! ### Runs -/

/-- Something that happens to a machine. -/
inductive Happening where
  /-- A trap fires, and closes its region or does not. -/
  | trap (site : Site) (request : Request) (closes : Bool)
  /-- The interpreter records a trap. -/
  | interpreted (method bci : Nat) (reason : Reason)
  | installed
  /-- A region of a method is marked, so that its invalidation counts or does not. -/
  | marked (method : Nat) (counts : Bool)
  | committed
  /-- Neither profiles nor code are concerned. -/
  | elsewhere
  deriving DecidableEq, Repr

namespace Happening

def isTrap : Happening → Bool
  | trap .. => true
  | _ => false

/-- A trap at a bytecode of a method, for a reason, that asks for something. -/
def hits (M bci : Nat) (r : Reason) : Happening → Bool
  | trap s q _ => s.trapped = M && s.scope.bci = bci && q.reason = r && q.action ≠ .leave
  | _ => false

/-- Such a trap that closes a region of the method itself. -/
def stops (M bci : Nat) (r : Reason) : Happening → Bool
  | trap s q closes =>
    closes && s.compiled = M && s.trapped = M && s.scope.bci = bci && q.reason = r &&
      q.action ≠ .leave
  | _ => false

variable {M bci : Nat} {r : Reason} {e : Happening}

lemma hits_eq_true : e.hits M bci r = true ↔ ∃ s q b, e = trap s q b ∧
    s.trapped = M ∧ s.scope.bci = bci ∧ q.reason = r ∧ q.action ≠ .leave := by
  cases e with
  | trap s q b => simp [hits, and_assoc]
  | _ => simp [hits]

lemma stops_eq_true : e.stops M bci r = true ↔ ∃ s q, e = trap s q true ∧
    s.compiled = M ∧ s.trapped = M ∧ s.scope.bci = bci ∧ q.reason = r ∧ q.action ≠ .leave := by
  cases e with
  | trap s q b => simp [stops, and_assoc]
  | _ => simp [stops]

lemma hits_of_stops (h : e.stops M bci r = true) : e.hits M bci r = true := by
  obtain ⟨s, q, rfl, -, h⟩ := stops_eq_true.1 h
  exact hits_eq_true.2 ⟨s, q, true, rfl, h⟩

lemma isTrap_of_hits (h : e.hits M bci r = true) : e.isTrap = true := by
  obtain ⟨s, q, b, rfl, -⟩ := hits_eq_true.1 h
  rfl

end Happening

namespace Machine

/-- Something happens to a machine. -/
inductive Happens (m : Machine) : Happening → Machine → Prop where
  | trap {t : Nat} {s : Site} {q : Request} {m' : Machine} (hs : Site.find (m.thread t) = .ok s)
      (hin : s.In m) (h : m.handleTrap t q = .ok m') :
      Happens m (.trap s q ((m.program.code.state s.region.ref).inUse &&
        !(m'.program.code.state s.region.ref).inUse)) m'
  | interpreted (M bci : Nat) (r : Reason) :
      Happens m (.interpreted M bci r) (m.recordInterpreted M bci r)
  | installed (x : Region) : Happens m .installed (m.setCode (m.program.code.install x))
  | marked {b b' : Batch} {code : CodeCache} {ref : Nat} {counts : Bool}
      (h : b.mark m.generations m.program.code ref counts = .ok (b', code)) :
      Happens m (.marked (m.program.code.region ref).method.ref counts) (m.setCode code)
  | committed {b : Batch} {m' : Machine} (h : m.commit b = .ok m') : Happens m .committed m'
  | elsewhere {m' : Machine} (hconfig : m'.config = m.config)
      (hregions : m'.program.code.regions = m.program.code.regions)
      (hprofile : ∀ M, (m'.program.method M).profile = (m.program.method M).profile)
      (hgiven : ∀ M, (m.program.method M).notCompilable = true →
        (m'.program.method M).notCompilable = true) : Happens m .elsewhere m'

/-- What happens to a machine, one after the other. -/
inductive Unfolds (m : Machine) : List Happening → Machine → Prop where
  | nil : Unfolds m [] m
  | snoc {es : List Happening} {e : Happening} {m' m'' : Machine} (h : Unfolds m es m')
      (he : Happens m' e m'') : Unfolds m (es ++ [e]) m''

end Machine

/-! ### What nothing takes back -/

namespace Rounds

variable {r r' : Rounds} {cutoff : Nat} {b : Batch}

/-- A commit that is not answered already retires what is marked, and does nothing else to code and
methods. -/
lemma program_commit (h : r.commit cutoff b = .ok r') : r'.program = r.program ∨
    ∃ n target, r.program.retireMarked target cutoff = .ok (n, r'.program) := by
  have hwork : ∀ (g : Generations) {r₁ : Rounds} {target : Nat},
      { r with generations := g }.deoptimizeMarked cutoff target = .ok r₁ →
      ∃ n target, r.program.retireMarked target cutoff = .ok (n, r₁.program) := by
    intro g r₁ target hr
    simp only [deoptimizeMarked, bind_eq_ok, pure_eq_ok] at hr
    obtain ⟨⟨n, p⟩, hp, _, -, rfl⟩ := hr
    exact ⟨n, target, hp⟩
  unfold commit at h
  split_ifs at h
  · cases h
    exact .inl rfl
  · obtain ⟨⟨target, g⟩, -, h⟩ := bind_eq_ok.1 h
    exact .inr (hwork g h)
  · obtain ⟨⟨c, g⟩, -, h⟩ := bind_eq_ok.1 h
    cases c with
    | satisfied =>
      cases h
      exact .inl rfl
    | busy => cases h
    | claimed target =>
      simp only [bind_eq_ok, pure_eq_ok] at h
      obtain ⟨r₁, hr, _, -, _, -, rfl⟩ := h
      have hp := hwork g hr
      exact .inr hp

end Rounds

/-- A commit retires what is marked, or does nothing to code and methods. -/
lemma Machine.program_commit {m m' : Machine} {b : Batch} (h : m.commit b = .ok m') :
    m'.config = m.config ∧ (m'.program = m.program ∨
      ∃ n target, m.program.retireMarked target m.cutoff = .ok (n, m'.program)) := by
  simp only [commit, bind_eq_ok, pure_eq_ok] at h
  obtain ⟨r, hr, rfl⟩ := h
  exact ⟨rfl, Rounds.program_commit hr⟩

namespace CodeCache

variable {c c' : CodeCache} {M ref : Nat}

/-- Invalidations of a method's code count: no region of the method is marked otherwise. -/
def Counts (c : CodeCache) (M : Nat) : Prop :=
  ∀ r < c.regions.size, (c.region r).method.ref = M → (c.state r).mark ≠ .uncounted

lemma Counts.changesAt (hc : c.Counts M) (h : c.ChangesAt c' ref)
    (hs : ref < c.regions.size → (c.region ref).method.ref = M →
      (c'.state ref).mark ≠ .uncounted) : c'.Counts M := by
  intro r hr hM
  rw [h.size] at hr
  rw [h.region] at hM
  by_cases hne : r = ref
  · subst hne
    exact hs hr hM
  · rw [h.state r hne]
    exact hc r hr hM

lemma Counts.retires {refs : List Nat} (hc : c.Counts M) (h : c.Retires c' refs) :
    c'.Counts M := by
  intro r hr hM
  rw [h.size] at hr
  rw [h.region] at hM
  by_cases hmem : r ∈ refs
  · rw [h.retired r hmem hr]
    simp
  · rw [h.state r hmem]
    exact hc r hr hM

lemma Counts.install (hc : c.Counts M) (x : Region) : (c.install x).Counts M := by
  intro r hr hM
  by_cases hne : r = c.regions.size
  · rw [hne, state_install_self]
    simp
  · have hlt : r < c.regions.size := by
      rw [size_install] at hr
      omega
    have hregion : (c.install x).region r = c.region r := by
      simp only [region, CodeCache.install, Array.getD_eq_getD_getElem?, Array.getElem?_push,
        if_neg hne]
    rw [state_install_of_ne c x hne]
    exact hc r hlt (hregion ▸ hM)

end CodeCache

/-- A region that is marked keeps the mark it had, or gets the one that was asked for. -/
lemma Batch.counts_mark {b b' : Batch} {g : Generations} {c c' : CodeCache} {ref M : Nat}
    {counts : Bool} (hc : c.Counts M) (hcounts : (c.region ref).method.ref = M → counts = true)
    (h : b.mark g c ref counts = .ok (b', c')) : c'.Counts M := by
  rcases mark_cases h with rfl | ⟨-, rfl⟩
  · exact hc
  · refine hc.changesAt (c.changesAt_modify ref _) fun hr hM => ?_
    rw [CodeCache.state_modify_self _ _ hr, hcounts hM]
    simp [RegionState.withMark]

namespace Machine

variable {start m m' : Machine} {e : Happening} {es : List Happening} {M bci t : Nat}
  {r : Reason}

/-- Whatever happens only adds to what is known, and does not configure the machine anew. -/
theorem Happens.grows (h : Happens m e m') :
    m.program.Grows m'.program ∧ m'.config = m.config := by
  cases h with
  | trap hs hin h =>
    have hx := handleTrap_spec hs h
    exact ⟨hx.grows, hx.config⟩
  | interpreted M bci r =>
    exact ⟨Program.grows_modifyMethod (MethodState.grows_recordInterpreted _ _ _ _), rfl⟩
  | installed x => exact ⟨.of_eq rfl, rfl⟩
  | marked h => exact ⟨.of_eq rfl, rfl⟩
  | committed h =>
    obtain ⟨hconfig, hp⟩ := program_commit h
    refine ⟨?_, hconfig⟩
    rcases hp with hp | ⟨n, target, hp⟩
    · rw [hp]
      exact .refl _
    · exact Program.grows_retireMarked hp
  | elsewhere hconfig _ hprofile hgiven =>
    exact ⟨fun M => .of_eq (hprofile M) (hgiven M), hconfig⟩

/-- Invalidations go on counting, unless regions are marked otherwise. -/
lemma Happens.counts (h : Happens m e m') (he : e ≠ .marked M false)
    (hc : m.program.code.Counts M) : m'.program.code.Counts M := by
  cases h with
  | trap hs hin h =>
    have hx := handleTrap_spec hs h
    refine hc.changesAt hx.changesAt fun hr hM => ?_
    rw [hx.state hr]
    exact hc _ hr hM
  | interpreted M bci r => exact hc
  | installed x => exact hc.install x
  | @marked b b' code ref counts h =>
    refine Batch.counts_mark hc (fun hM => ?_) h
    by_contra hcounts
    rw [Bool.not_eq_true] at hcounts
    exact he (by rw [hM, hcounts])
  | committed h =>
    rcases (program_commit h).2 with hp | ⟨n, target, hp⟩
    · rw [hp]
      exact hc
    · exact hc.retires (Program.retireMarked_spec hp)
  | elsewhere _ hregions _ _ =>
    intro r hr hM
    rw [CodeCache.region, hregions] at hM
    rw [CodeCache.state, hregions]
    exact hc r (hregions ▸ hr) hM

/-- Only traps and commits charge a method, and a trap does it once. -/
lemma Happens.decompiles_le (h : Happens m e m') (he : e ≠ .committed) :
    (m'.program.method M).decompiles ≤
      (m.program.method M).decompiles + if e.isTrap then 1 else 0 := by
  cases h with
  | trap hs hin h => exact (handleTrap_spec hs h).decompiles_le M
  | interpreted M' bci r =>
    refine Nat.le_of_eq (Program.decompiles_modifyMethod ?_ M)
    exact MethodState.decompiles_recordInterpreted _ _ _ _
  | installed x => exact Nat.le_refl _
  | marked h => exact Nat.le_refl _
  | committed h => exact absurd rfl he
  | elsewhere _ _ hprofile _ =>
    rw [MethodState.decompiles, hprofile]
    exact Nat.le_refl _

/-- A trap that hits a bytecode is noted. -/
lemma Happens.noted {n : Nat} {q : Reason} (h : Happens m e m')
    (hc : m.config.profileTraps = true) (hr : r.standIn? = some q) (he : e.hits M bci r = true)
    (hn : n ≠ 0 → (m.program.method M).Noted bci r q n) :
    (m'.program.method M).Noted bci r q (n + 1) := by
  obtain ⟨s, request, b, rfl, rfl, rfl, rfl, ha⟩ := Happening.hits_eq_true.1 he
  cases h with
  | trap hs hin h => exact noted_handleTrap hc hin hr ha hs h hn

/-- The bytecode is blamed for a region that a trap there closes. If it was before, that is counted,
and the method is given up past the cutoff. -/
lemma Happens.blamed {k : Nat} {q : Reason} (h : Happens m e m')
    (hc : m.config.profileTraps = true) (hr : r.standIn? = some q)
    (hm : m.program.code.Counts M) (he : e.stops M bci r = true) :
    (m'.program.method M).Blamed bci 0 ∧
      (m.config.perBytecodeTrapLimit ≤ m.config.methodLimit r →
        (m.program.method M).Noted bci r q 1 → (m.program.method M).Blamed bci k →
        (m'.program.method M).Blamed bci (k + 1) ∧
          (m.config.perBytecodeRecompilationCutoff < k + 1 →
            m.config.perBytecodeRecompilationCutoff < counterLimit - 1 →
            (m'.program.method M).notCompilable = true)) := by
  obtain ⟨s, request, heq, hcompiled, rfl, rfl, rfl, ha⟩ := Happening.stops_eq_true.1 he
  cases h with
  | @trap t s' request' _ hs hin h =>
    simp only [Happening.trap.injEq, Bool.and_eq_true, Bool.not_eq_true'] at heq
    obtain ⟨rfl, rfl, hopen, hclosed⟩ := heq
    have hmark := hm s'.region.ref hin.ref_lt (by rw [hin.region]; exact hcompiled)
    exact ⟨blamed_handleTrap hc hin hr ha hs h hcompiled.symm hmark hopen hclosed,
      fun hlimit => blamed_handleTrap_again hc hin hr ha hs h hcompiled.symm hmark hopen hclosed
        hlimit⟩
  | _ => cases heq

/-! ### Runs -/

lemma Unfolds.config (h : Unfolds start es m) : m.config = start.config := by
  induction h with
  | nil => rfl
  | snoc _ he ih => exact he.grows.2.trans ih

lemma Unfolds.counts (h : Unfolds start es m) (hc : start.program.code.Counts M)
    (hes : .marked M false ∉ es) : m.program.code.Counts M := by
  induction h with
  | nil => exact hc
  | snoc _ he ih =>
    rw [List.mem_append, not_or, List.mem_singleton] at hes
    exact he.counts (Ne.symm hes.2) (ih hes.1)

lemma Unfolds.decompiles_le (h : Unfolds start es m) (hes : .committed ∉ es) :
    (m.program.method M).decompiles ≤
      (start.program.method M).decompiles + es.countP Happening.isTrap := by
  induction h with
  | nil => exact Nat.le_refl _
  | snoc _ he ih =>
    rw [List.mem_append, not_or, List.mem_singleton] at hes
    rw [List.countP_append, List.countP_singleton, ← Nat.add_assoc]
    exact Nat.le_trans (he.decompiles_le (Ne.symm hes.2)) (Nat.add_le_add_right (ih hes.1) _)

/-- All traps that hit a bytecode are noted. -/
theorem Unfolds.noted {q : Reason} (h : Unfolds start es m)
    (hc : start.config.profileTraps = true) (hr : r.standIn? = some q)
    (hn : es.countP (Happening.hits M bci r) ≠ 0) :
    (m.program.method M).Noted bci r q (es.countP (Happening.hits M bci r)) := by
  induction h with
  | nil => exact absurd rfl hn
  | @snoc es e m' m'' h he ih =>
    rw [List.countP_append, List.countP_singleton] at hn ⊢
    have hc' : m'.config.profileTraps = true := h.config ▸ hc
    split_ifs at hn ⊢ with hhits
    · exact he.noted hc' hr hhits ih
    · exact (ih hn).grows (he.grows.1 M)

/-- All regions of a method that traps at a bytecode closed are blamed on it. All but the first were
compiled again because of it, and past the cutoff the method is given up. -/
theorem Unfolds.blamed {q : Reason} (h : Unfolds start es m)
    (hc : start.config.profileTraps = true) (hr : r.standIn? = some q)
    (hlimit : start.config.perBytecodeTrapLimit ≤ start.config.methodLimit r)
    (htop : start.config.perBytecodeRecompilationCutoff < counterLimit - 1)
    (hm : start.program.code.Counts M) (hes : .marked M false ∉ es) {k : Nat}
    (hk : es.countP (Happening.stops M bci r) = k + 1) :
    (m.program.method M).Blamed bci k ∧ (start.config.perBytecodeRecompilationCutoff < k →
      (m.program.method M).notCompilable = true) := by
  induction h generalizing k with
  | nil => cases hk
  | @snoc es e m' m'' h he ih =>
    have hconfig := h.config
    have hes' := hes
    rw [List.mem_append, not_or] at hes'
    have hm' := h.counts hm hes'.1
    rw [List.countP_append, List.countP_singleton] at hk
    split_ifs at hk with hstops
    · have hblamed := fun k => he.blamed (k := k) (hconfig ▸ hc) hr hm' hstops
      cases k with
      | zero => exact ⟨(hblamed 0).1, fun hlt => absurd hlt (Nat.not_lt_zero _)⟩
      | succ k =>
        have hk' : es.countP (Happening.stops M bci r) = k + 1 := by omega
        have hhits : 0 < es.countP (Happening.hits M bci r) :=
          Nat.lt_of_lt_of_le (hk' ▸ Nat.succ_pos k)
            (List.countP_mono_left fun _ _ => Happening.hits_of_stops)
        have hnoted := (h.noted hc hr (Nat.ne_of_gt hhits)).mono hhits
        obtain ⟨hblamed, hgiven⟩ := (hblamed k).2 (hconfig ▸ hlimit) hnoted (ih hes'.1 hk').1
        exact ⟨hblamed, fun hlt => hgiven (hconfig ▸ hlt) (hconfig ▸ htop)⟩
    · obtain ⟨hblamed, hgiven⟩ := ih hes'.1 hk
      have hgrows := he.grows.1 M
      exact ⟨hblamed.grows hgrows, fun hlt => hgrows.notCompilable (hgiven hlt)⟩

/-! ### A method that wears out -/

namespace Worn

/-- One trap is tolerated at each bytecode, and one recompilation because of it; and one bytecode of
each method can have a record. -/
def config : Config where
  perBytecodeTrapLimit := 1
  perBytecodeRecompilationCutoff := 1
  extraDataSlots := 1

def method : Method where
  ref := 0
  id := 1
  holder := "A"
  name := "loop"
  parameters := 0
  locals := 1
  maxStack := 1
  parameters_le_locals := by decide

/-- The code of the method as of one of its compilations. -/
def region (ref : Nat) : Region where
  ref := ref
  compileId := ref + 1
  method := method
  start := 0x1000 * (ref + 1)
  size := 64
  handlerOffset := 48
  debug := ⟨[{ offset := 8, scopes := [{ method, bci := 2 }] }]⟩

/-- A thread that runs in one of the regions. -/
def thread (ref : Nat) : Thread where
  id := ref
  name := "main"
  stack := [⟨1, Thread.stackBase - 4, 4, 0x1000 * (ref + 1) + 8,
    .compiled { region := region ref, slots := #[] }⟩]

/-- The method is compiled three times, and a thread runs in each of the regions. -/
def machine : Machine where
  config := config
  program := {
    methods := #[{ method }]
    code := { regions := #[(region 0, {}), (region 1, {}), (region 2, {})] } }
  roster := { threads := #[thread 0, thread 1, thread 2] }

def nullCheck (a : Action) : Request := .pack .nullCheck a

end Worn

/-! ### Limits -/

/-- A trap at a bytecode past its limit leaves the region that it came from closed, whatever the
trap asks for, unless that is nothing. Everything that hit the bytecode for the same reason was noted,
and the history cannot take the trap for the first one. The trap can be handled unless the method
was charged too often before the run, or commits go on charging it. -/
theorem closed_of_hits {s : Site} {q : Request} (h : Unfolds start es m)
    (hc : start.config.profileTraps = true) (hpos : 0 < start.config.perBytecodeTrapLimit)
    (htraps : es.countP Happening.isTrap + 1 < 2 ^ 31) (hs : Site.find (m.thread t) = .ok s)
    (hin : s.In m) (ha : q.action ≠ .leave) (hr : q.reason.standIn?.isSome = true)
    (hn : start.config.perBytecodeTrapLimit ≤
      es.countP (Happening.hits s.trapped s.scope.bci q.reason)) :
    (∀ m', m.handleTrap t q = .ok m' → (m'.program.code.state s.region.ref).inUse = false) ∧
    (.committed ∉ es → (start.program.method s.compiled).decompiles ≤ 2 ^ 31 →
      ∃ m', m.handleTrap t q = .ok m') := by
  have htop : 2 ^ 31 + 2 ^ 31 = counterLimit := by decide
  constructor
  · intro m' hm'
    obtain ⟨r, hr⟩ := Option.isSome_iff_exists.1 hr
    have hle : es.countP (Happening.hits s.trapped s.scope.bci q.reason) ≤
        es.countP Happening.isTrap :=
      List.countP_mono_left fun _ _ => Happening.isTrap_of_hits
    have hnoted : (m.program.method s.trapped).Noted s.scope.bci q.reason r
        (es.countP (Happening.hits s.trapped s.scope.bci q.reason)) :=
      h.noted hc hr (by omega)
    have hclosed := invalidate_judge (h.config ▸ hc) hin hr ha (Nat.lt_of_lt_of_le hpos hn) hnoted
      (h.config ▸ hn) (h.config ▸ by omega)
    rw [(handleTrap_spec hs hm').state hin.ref_lt, hclosed]
    exact Bool.and_false _
  · intro hcommitted hstart
    have hle := h.decompiles_le (M := s.compiled) hcommitted
    exact exists_handleTrap hs hin q (by omega)

/-- The interpreter takes the only record for another bytecode. A null check fails twice after that,
and the code is closed. -/
theorem closed_of_hits_worn : ∃ es m m' s, Unfolds Worn.machine es m ∧
    Site.find (m.thread 0) = .ok s ∧ s.In m ∧
    es.countP (Happening.hits s.trapped s.scope.bci .nullCheck) = 1 ∧
    (m.program.code.state 0).inUse = true ∧
    m.handleTrap 0 (Worn.nullCheck .maybeRecompile) = .ok m' ∧
    (m'.program.code.state 0).inUse = false := by
  have h : Unfolds Worn.machine [] _ := .nil
  have h := h.snoc (.interpreted 0 5 .classCheck)
  have h := h.snoc (.installed (Worn.region 3))
  have h := h.snoc (@Happens.trap _ 0 _ (Worn.nullCheck .maybeRecompile) _ rfl
    ⟨rfl, by decide, by decide⟩ rfl)
  obtain ⟨hclosed, htotal⟩ := closed_of_hits (t := 0) (q := Worn.nullCheck .maybeRecompile) h rfl
    (by decide) (by decide) rfl ⟨rfl, by decide, by decide⟩ (by decide) rfl (by decide)
  obtain ⟨m', hm'⟩ := htotal (by decide) (by decide)
  exact ⟨_, _, m', _, h, rfl, ⟨rfl, by decide, by decide⟩, by decide, by decide, hm',
    hclosed m' hm'⟩

/-- A method is given up once more of its regions than the cutoff allows, and one, were closed by
traps in the method itself, at one bytecode and for one reason. The first of them may come for any
cause; every other was compiled again because of the bytecode. Invalidations of the method have to
count, and the method as a whole must not be less patient than the bytecode. -/
theorem notCompilable_of_stops (h : Unfolds start es m)
    (hc : start.config.profileTraps = true) (hr : r.standIn?.isSome = true)
    (hlimit : start.config.perBytecodeTrapLimit ≤ start.config.methodLimit r)
    (hcutoff : start.config.perBytecodeRecompilationCutoff < 2 ^ 31)
    (hm : start.program.code.Counts M) (hes : .marked M false ∉ es)
    (hstops : start.config.perBytecodeRecompilationCutoff + 1 <
      es.countP (Happening.stops M bci r)) :
    (m.program.method M).notCompilable = true := by
  have htop : 2 ^ 31 + 2 ^ 31 = counterLimit := by decide
  obtain ⟨q, hr⟩ := Option.isSome_iff_exists.1 hr
  obtain ⟨k, hk⟩ : ∃ k, es.countP (Happening.stops M bci r) = k + 1 :=
    ⟨_, (Nat.succ_pred (Nat.ne_of_gt (Nat.lt_of_le_of_lt (Nat.zero_le _) hstops))).symm⟩
  exact (h.blamed hc hr hlimit (by omega) hm hes hk).2 (by omega)

/-- Null checks fail in all three compilations of the method, after the interpreter has taken the
only record for another bytecode. -/
theorem notCompilable_of_stops_worn : ∃ es m, Unfolds Worn.machine es m ∧
    es.countP (Happening.stops 0 2 .nullCheck) = 3 ∧
    (m.program.method 0).notCompilable = true := by
  have h : Unfolds Worn.machine [] _ := .nil
  have h := h.snoc (.interpreted 0 5 .classCheck)
  have h := h.snoc (@Happens.trap _ 0 _ (Worn.nullCheck .makeNotEntrant) _ rfl
    ⟨rfl, by decide, by decide⟩ rfl)
  have h := h.snoc (@Happens.trap _ 1 _ (Worn.nullCheck .reinterpret) _ rfl
    ⟨rfl, by decide, by decide⟩ rfl)
  have h := h.snoc (@Happens.trap _ 2 _ (Worn.nullCheck .maybeRecompile) _ rfl
    ⟨rfl, by decide, by decide⟩ rfl)
  have hcounts : Worn.machine.program.code.Counts 0 := by
    unfold CodeCache.Counts
    decide
  exact ⟨_, _, h, by decide, @notCompilable_of_stops _ _ _ 0 2 .nullCheck h rfl rfl (by decide)
    (by decide) hcounts (by decide) (by decide)⟩

end Machine
end Bailout
