import Bailout.Proofs.Machine.Limits
import Bailout.Proofs.Machine.Pools

/-!
# Classes that a trap loads

A trap on a class that was not loaded looks for the class, and goes on whether it is found or not.
It turns one entry of one pool into the class, and only if the entry named a class that can be
found. The word of the trap has 31 bits for the index of the entry; of a larger index only the low
ones are kept, and they are the index of another entry.
-/

namespace Bailout

/-! ### Entries -/

namespace Pool

variable {p : Pool} {t : ClassTable} {i j : Nat} {k : Klass}

/-- The class that an entry names, if it is unresolved and the class can be found. -/
def loadable? (p : Pool) (t : ClassTable) (i : Nat) : Option Klass :=
  match p.entries[i]? with
  | some (.unresolved n) => t.get? n
  | _ => none

lemma loadable?_eq_some_iff : p.loadable? t i = some k ↔
    ∃ n, p.entries[i]? = some (.unresolved n) ∧ t.get? n = some k := by
  unfold loadable?
  split
  next n hn => simp [hn]
  next hne =>
    refine iff_of_false (by simp) ?_
    rintro ⟨n, hn, -⟩
    exact hne n hn

/-- A pool in which an entry was turned into its class, if that can be found. -/
def load (p : Pool) (t : ClassTable) (i : Nat) : Pool :=
  match p.loadable? t i with
  | some k => ⟨p.entries.set i (.resolved k)⟩
  | none => p

lemma entries_load_of_ne (h : j ≠ i) : (p.load t i).entries[j]? = p.entries[j]? := by
  unfold load
  split
  · exact List.getElem?_set_ne (Ne.symm h)
  · rfl

lemma load_of_none (h : p.loadable? t i = none) : p.load t i = p := by
  rw [load, h]

lemma entries_load_of_some (h : p.loadable? t i = some k) :
    (p.load t i).entries[i]? = some (.resolved k) := by
  obtain ⟨n, hn, -⟩ := loadable?_eq_some_iff.1 h
  obtain ⟨hlt, -⟩ := List.getElem?_eq_some_iff.1 hn
  rw [load, h]
  exact List.getElem?_set_self hlt

end Pool

/-- What a trap makes of a pool: it loads the entry that it names. -/
lemma MethodState.resolveFor_eq (s : MethodState) (classes : ClassTable) (q : Request) :
    s.resolveFor classes q = s.withPool (q.classIndex?.elim s.pool (s.pool.load classes)) := by
  unfold resolveFor
  cases q.classIndex? with
  | none => rfl
  | some i =>
    rcases he : s.pool.entries[i]? with _ | ⟨n⟩ | k | _
    all_goals simp only [Option.elim_some, Pool.isResolved, Pool.resolve, Pool.load,
      Pool.loadable?, he]
    case some.unresolved => cases classes.get? n <;> rfl
    all_goals rfl

/-- The low 31 bits of an index are read back from the word of a trap. -/
lemma Request.classIndex?_unloaded (i : Nat) :
    (Request.unloaded i).classIndex? = some (i % 1 <<< 31) := by
  have hlt : i % 1 <<< 31 < 2 ^ 31 := Nat.mod_lt _ (by decide)
  have hint : (Int32.ofNat (i % 1 <<< 31)).toInt = (i % 1 <<< 31 : Nat) :=
    Int32.toInt_ofNat_of_lt hlt
  have hnonneg : (0 : Int32) ≤ Int32.ofNat (i % 1 <<< 31) := by
    rw [Int32.le_iff_toInt_le, hint]
    exact Int.natCast_nonneg _
  rw [classIndex?, unloaded, if_pos hnonneg, hint, Int.toNat_natCast]

/-! ### Traps -/

lemma Program.modifyMethod_resolveFor (p : Program) (g : Nat → Pool) (c : ClassTable) (ref : Nat)
    {q : Request} {i : Nat} (hq : q.classIndex? = some i) :
    (p.withPools g).modifyMethod ref (·.resolveFor c q) =
      p.withPools (Function.update g ref ((g ref).load c i)) := by
  have hmethods : (p.withPools g).methods.modify ref (·.resolveFor c q) =
      (p.withPools (Function.update g ref ((g ref).load c i))).methods := by
    refine Array.ext_getElem? fun M => ?_
    simp only [withPools, Array.getElem?_modify, Array.getElem?_mapIdx]
    cases p.methods[M]? with
    | none => split_ifs <;> rfl
    | some s =>
      split_ifs with hM
      · subst hM
        simp only [Option.map_some, Function.update_self, MethodState.resolveFor_eq, hq]
        rfl
      · simp only [Option.map_some, Function.update_of_ne (Ne.symm hM)]
  rw [modifyMethod, hmethods]
  rfl

namespace Machine

variable {m m' : Machine} {c : ClassTable} {g : Nat → Pool} {s : Site} {q : Request} {t i j M : Nat}
  {k : Klass} {l : Layout}

/-- The pools once a trap has loaded an entry of the method in which it fired. -/
def loadedPools (g : Nat → Pool) (c : ClassTable) (s : Site) (i : Nat) : Nat → Pool :=
  Function.update g s.trapped ((g s.trapped).load c i)

/-- A trap on a class loads the entry that it names, and for the rest does not look at the pools. -/
theorem uncommonTrap_withPools (hs : Site.find (m.thread t) = .ok s)
    (hq : q.classIndex? = some i) : (m.withPools c g).uncommonTrap t q =
      (m.passTrap t s q).map (Prod.map id (·.withPools c (loadedPools g c s i))) := by
  have hload : (m.withPools c g).modifyMethod s.trapped (·.resolveFor c q) =
      m.withPools c (loadedPools g c s i) := by
    show { m.withPools c g with
      program := (m.program.withPools g).modifyMethod s.trapped (·.resolveFor c q) } = _
    rw [Program.modifyMethod_resolveFor _ _ _ _ hq]
    rfl
  have hjudge : (m.withPools c g).judge s q =
      (m.withPools c (loadedPools g c s i)).assess s q := by
    rw [← hload, judge_eq]
    rfl
  rw [uncommonTrap, handleTrap_eq_ok (m := m.withPools c g) hs, hjudge]
  exact m.passTrap_withPools c (loadedPools g c s i) t s q

@[simp] lemma withPools_self (m : Machine) : m.withPools m.classes m.program.pool = m := by
  rw [withPools, Program.withPools_pool]

lemma withPools_withPools (m : Machine) (c c' : ClassTable) (g g' : Nat → Pool) :
    (m.withPools c g).withPools c' g' = m.withPools c' g' := by
  have hprogram : (m.program.withPools g).withPools g' = m.program.withPools g' := by
    simp only [Program.withPools, Array.mapIdx_mapIdx]
    rfl
  show { m.withPools c g with classes := c', program := (m.program.withPools g).withPools g' } = _
  rw [hprogram]
  rfl

/-- The pools after a trap are the ones before it, with the entry loaded that it names. -/
lemma exists_passTrap (hs : Site.find (m.thread t) = .ok s) (hq : q.classIndex? = some i)
    (h : m.uncommonTrap t q = .ok (l, m')) : ∃ x, m.passTrap t s q = .ok (l, x) ∧
      m' = x.withPools m.classes (loadedPools m.program.pool m.classes s i) := by
  have heq := uncommonTrap_withPools (c := m.classes) (g := m.program.pool) hs hq
  rw [withPools_self, h] at heq
  cases hx : m.passTrap t s q with
  | error e =>
    rw [hx] at heq
    cases heq
  | ok y =>
    rw [hx] at heq
    cases heq
    exact ⟨y.2, rfl, rfl⟩

/-- A trap that was handled would have been handled with other pools and other classes, too, and
would have left everything else the same. -/
theorem uncommonTrap_withPools_of_ok (hs : Site.find (m.thread t) = .ok s)
    (hq : q.classIndex? = some i) (h : m.uncommonTrap t q = .ok (l, m')) (c : ClassTable)
    (g : Nat → Pool) : (m.withPools c g).uncommonTrap t q =
      .ok (l, m'.withPools c (loadedPools g c s i)) := by
  obtain ⟨x, hx, rfl⟩ := exists_passTrap hs hq h
  rw [uncommonTrap_withPools hs hq, hx, withPools_withPools]
  rfl

/-- An entry of the pool of a method. -/
def entry (m : Machine) (M j : Nat) : Option PoolEntry := (m.program.pool M).entries[j]?

/-- An entry of the method in which a trap fired names an unresolved class that can be found. -/
def Loads (m : Machine) (s : Site) (i : Nat) (k : Klass) : Prop :=
  ∃ n, m.entry s.trapped i = some (.unresolved n) ∧ m.classes.get? n = some k

/-- No entry changes but one of the method in which a trap fired. That is turned into its class if
it names an unresolved one that can be found, and it stays as it is if it does not. -/
structure ResolvesOnly (m : Machine) (s : Site) (i : Nat) (m' : Machine) : Prop where
  others : ∀ M j, M ≠ s.trapped ∨ j ≠ i → m'.entry M j = m.entry M j
  resolved_iff : ∀ k, m'.entry s.trapped i = some (.resolved k) ↔
    m.entry s.trapped i = some (.resolved k) ∨ m.Loads s i k
  failed : (∀ k, ¬ m.Loads s i k) → m'.entry s.trapped i = m.entry s.trapped i

lemma entry_uncommonTrap (hs : Site.find (m.thread t) = .ok s) (hq : q.classIndex? = some i)
    (h : m.uncommonTrap t q = .ok (l, m')) (M j : Nat) :
    m'.entry M j = (loadedPools m.program.pool m.classes s i M).entries[j]? := by
  obtain ⟨x, hx, rfl⟩ := exists_passTrap hs hq h
  refine congrArg (fun p : Pool => p.entries[j]?) (Program.pool_withPools fun hM => ?_)
  rw [size_methods_passTrap hx] at hM
  have hnil : m.program.pool M = {} := Program.pool_of_size_le hM
  by_cases htrapped : M = s.trapped
  · subst htrapped
    rw [loadedPools, Function.update_self, hnil]
    rfl
  · rw [loadedPools, Function.update_of_ne htrapped, hnil]

/-- The entry that is resolved is the one whose index is read back from the word. -/
theorem resolvesOnly_uncommonTrap (hs : Site.find (m.thread t) = .ok s)
    (hq : q.classIndex? = some i) (h : m.uncommonTrap t q = .ok (l, m')) :
    m.ResolvesOnly s i m' := by
  have hentry := entry_uncommonTrap hs hq h
  have htrapped : m'.entry s.trapped i =
      ((m.program.pool s.trapped).load m.classes i).entries[i]? := by
    rw [hentry, loadedPools, Function.update_self]
  have hloads : ∀ k, m.Loads s i k ↔ (m.program.pool s.trapped).loadable? m.classes i = some k :=
    fun k => Pool.loadable?_eq_some_iff.symm
  refine ⟨fun M j hne => ?_, fun k => ?_, fun hnone => ?_⟩
  · rw [hentry]
    by_cases hM : M = s.trapped
    · subst hM
      rw [loadedPools, Function.update_self]
      exact Pool.entries_load_of_ne (hne.resolve_left fun h => h rfl)
    · rw [loadedPools, Function.update_of_ne hM]
      rfl
  · rw [htrapped, hloads]
    cases hload : (m.program.pool s.trapped).loadable? m.classes i with
    | none =>
      rw [Pool.load_of_none hload, or_iff_left (by simp)]
      rfl
    | some k' =>
      have hunresolved : m.entry s.trapped i ≠ some (.resolved k) := by
        obtain ⟨n, hn, -⟩ := Pool.loadable?_eq_some_iff.1 hload
        exact fun hk => absurd (hn.symm.trans hk) (by simp)
      rw [Pool.entries_load_of_some hload, or_iff_right hunresolved]
      simp
  · have hload : (m.program.pool s.trapped).loadable? m.classes i = none :=
      Option.eq_none_iff_forall_ne_some.2 fun k hk => hnone k ((hloads k).2 hk)
    rw [htrapped, Pool.load_of_none hload]
    rfl

lemma not_loads_of_resolvesOnly (hj : m.ResolvesOnly s j m') (hi : m.ResolvesOnly s i m')
    (hne : j ≠ i) (k : Klass) : ¬ m.Loads s i k := by
  rintro ⟨n, hn, hk⟩
  have hresolved := (hi.resolved_iff k).2 (.inr ⟨n, hn, hk⟩)
  rw [hj.others _ _ (.inr hne.symm), hn] at hresolved
  cases hresolved

/-- A trap on an index resolves the entry at that index only, if 31 bits are enough for it. Of a
larger index the low bits are taken, and all is well only if neither entry can be loaded: if the one
at the low bits can, it is, and the one that the trap is on never is. Whether and how the trap is
handled does not depend on pools and classes. -/
theorem resolvesOnly_iff (i : Nat) (hs : Site.find (m.thread t) = .ok s)
    (h : m.uncommonTrap t (.unloaded i) = .ok (l, m')) :
    (m.ResolvesOnly s i m' ↔
      i < 1 <<< 31 ∨ ∀ k, ¬ m.Loads s i k ∧ ¬ m.Loads s (i % 1 <<< 31) k) ∧
    m.ResolvesOnly s (i % 1 <<< 31) m' ∧
    ∀ c g, ∃ g', (m.withPools c g).uncommonTrap t (.unloaded i) = .ok (l, m'.withPools c g') := by
  have hq := Request.classIndex?_unloaded i
  have hlow := resolvesOnly_uncommonTrap hs hq h
  refine ⟨⟨fun hi => ?_, ?_⟩, hlow, fun c g => ⟨_, uncommonTrap_withPools_of_ok hs hq h c g⟩⟩
  · rw [or_iff_not_imp_left, Nat.not_lt]
    intro hle k
    have hne : i % 1 <<< 31 ≠ i :=
      Nat.ne_of_lt (Nat.lt_of_lt_of_le (Nat.mod_lt _ (by decide)) hle)
    exact ⟨not_loads_of_resolvesOnly hlow hi hne k, not_loads_of_resolvesOnly hi hlow hne.symm k⟩
  · rintro (hlt | hnone)
    · rwa [Nat.mod_eq_of_lt hlt] at hlow
    · have hsame : ∀ M j, m'.entry M j = m.entry M j := by
        intro M j
        by_cases hMj : M = s.trapped ∧ j = i % 1 <<< 31
        · rw [hMj.1, hMj.2]
          exact hlow.failed fun k => (hnone k).2
        · exact hlow.others M j (not_and_or.1 hMj)
      refine ⟨fun M j _ => hsame M j, fun k => ?_, fun _ => hsame _ _⟩
      rw [hsame, or_iff_left (hnone k).1]

namespace Lacking

/-- A class that was not loaded when the code was compiled. -/
def klass : Klass := .base "K" [] none

/-- A pool that names a class that can be found, one that cannot, and the first one once more. -/
def pool : Pool := ⟨[.unresolved "K", .unresolved "L", .unresolved "K"]⟩

/-- A thread that runs in code of the method. -/
def thread : Thread where
  id := 1
  name := "main"
  stack := [
    ⟨2, Thread.stackBase - 8, 4, 0x1008, .compiled { region := Worn.region 0, slots := #[] }⟩,
    ⟨1, Thread.stackBase - 4, 4, 0x40, .entry⟩]
  lastFrameId := 2

/-- The class can be found by now. -/
def machine : Machine where
  config := {}
  program := {
    methods := #[{ method := Worn.method, pool }]
    code := { regions := #[(Worn.region 0, {})] } }
  classes := ⟨[("K", klass)]⟩
  roster := { threads := #[thread] }

def site : Site where
  region := Worn.region 0
  scope := { method := Worn.method, bci := 2 }
  methods := [Worn.method]

end Lacking

open Lacking

/-- A trap on the last entry loads that one, and one on the entry whose class cannot be found is
handled as well. -/
theorem resolvesOnly_lacking : Site.find (machine.thread 0) = .ok site ∧
    (∃ l m', machine.uncommonTrap 0 (.unloaded 2) = .ok (l, m') ∧ machine.ResolvesOnly site 2 m' ∧
      m'.entry 0 2 = some (.resolved klass) ∧ m'.entry 0 0 = some (.unresolved "K")) ∧
    ∃ l m', machine.uncommonTrap 0 (.unloaded 1) = .ok (l, m') ∧
      machine.ResolvesOnly site 1 m' ∧ m'.entry 0 1 = some (.unresolved "L") := by
  obtain ⟨l, m', h, hlast, hfirst⟩ : ∃ l m', machine.uncommonTrap 0 (.unloaded 2) = .ok (l, m') ∧
      m'.entry 0 2 = some (.resolved klass) ∧ m'.entry 0 0 = some (.unresolved "K") :=
    ⟨_, _, rfl, rfl, rfl⟩
  obtain ⟨l₁, m₁, h₁, hmiddle⟩ : ∃ l m', machine.uncommonTrap 0 (.unloaded 1) = .ok (l, m') ∧
      m'.entry 0 1 = some (.unresolved "L") := ⟨_, _, rfl, rfl⟩
  have hs : Site.find (machine.thread 0) = .ok site := rfl
  exact ⟨hs, ⟨l, m', h, (resolvesOnly_iff 2 hs h).1.2 (.inl (by decide)), hlast, hfirst⟩,
    l₁, m₁, h₁, (resolvesOnly_iff 1 hs h₁).1.2 (.inl (by decide)), hmiddle⟩

/-- A trap on the index 2147483648, at which there is no entry, loads the first entry. -/
theorem resolves_other_entry : ∃ l m', Site.find (machine.thread 0) = .ok site ∧
    machine.uncommonTrap 0 (.unloaded 0x80000000) = .ok (l, m') ∧
    machine.entry 0 0 = some (.unresolved "K") ∧ m'.entry 0 0 = some (.resolved klass) ∧
    machine.entry 0 0x80000000 = none ∧ ¬ machine.ResolvesOnly site 0x80000000 m' := by
  obtain ⟨l, m', h, hfirst⟩ : ∃ l m',
      machine.uncommonTrap 0 (.unloaded 0x80000000) = .ok (l, m') ∧
      m'.entry 0 0 = some (.resolved klass) := ⟨_, _, rfl, rfl⟩
  refine ⟨l, m', rfl, h, rfl, hfirst, by decide, fun hi => ?_⟩
  have hsame := hi.others 0 0 (.inr (by decide))
  rw [hfirst] at hsame
  cases hsame

end Machine
end Bailout
