import Bailout.Proofs.Unwind.Exhausted

/-!
# Balance of monitors

A plan that is given up leaves the monitors that were entered for it and those that compiled code
held. Entering eliminated monitors can be switched off, but leaving them is not: without what was
entered, a monitor is left that is not held, or that is held for another reason.
-/

namespace Bailout.Unwind

variable {s : Restore.Supply} {m m' : Memory} {t u : Thread} {mode : Mode} {frame caller : Frame}
  {f : CompiledFrame} {r : DebugRecord} {o : Restore.Outcome} {got : Recovery} {l : Layout}

/-! ### Monitors before a plan is given up -/

/-- The objects whose monitors are entered for a frame: none if that is switched off. -/
def entered (s : Restore.Supply) (f : CompiledFrame) (table : Restored) (r : DebugRecord) :
    List Ref :=
  if s.config.eliminateLocks then f.owners table r else []

/-- What recovery leaves when objects were refused. -/
structure RecoversRefused (s : Restore.Supply) (m : Memory) (t : Thread) (f : CompiledFrame)
    (r : DebugRecord) (o : Restore.Outcome) (got : Recovery) : Prop where
  table : got.table = o.table
  failed : got.failed = true
  thread : got.thread = { t.enterHandler with pending := some .outOfMemory }
  holdCount : ∀ q, (got.memory.store.monitor q).holdCount t.id =
    (m.store.monitor q).holdCount t.id + (entered s f o.table r).count q

/-- Refused objects do not keep recovery from entering the monitors that it can, if it is to. -/
lemma exists_recover_of_refused (hmode : mode ≠ .inspect) (hr : ∀ x ∈ r.scopes, x.Readable f)
    (hk : Restore.Known s f r m.store) (ht : t.restored.get? frame.id = none)
    (ho : Restore.objectsIfEnabled s m t.pending mode f r.objects = .ok o) (hf : o.failed = true)
    (hadmits : Restore.Admits t.id m.store (f.owners o.table r)) :
    ∃ got, recover s m t.enterHandler mode frame.id f r = .ok got ∧
      RecoversRefused s m t f r o got := by
  have hrestoring := Restore.restoring_of_objectsIfEnabled ho
  have hpending : Restore.pendingAfter mode o.failed t.pending = some .outOfMemory := by
    rw [hf, Restore.pendingAfter, if_pos rfl, if_neg hmode]
  cases hl : s.config.eliminateLocks with
  | true =>
    obtain ⟨got, hgot, hrecovers⟩ := exists_recover_of_objects (t := t.enterHandler)
      hl hmode hr hk ht ho (fun h => by rw [hf] at h; cases h) hadmits
    refine ⟨got, hgot, hrecovers.table, hrecovers.failed.trans hf, ?_, fun q => ?_⟩
    · rw [hrecovers.thread, ← hpending]
      rfl
    · rw [entered, if_pos hl]
      exact hrecovers.holdCount q
  | false =>
    refine ⟨⟨o.memory, { t.enterHandler with pending := o.pending }, o.table, o.failed⟩, ?_, rfl,
      hf, ?_, fun q => ?_⟩
    · have ht' : t.enterHandler.restored.get? frame.id = none := ht
      have ho' : Restore.objectsIfEnabled s m t.enterHandler.pending mode f r.objects = .ok o := ho
      simp only [recover, ht', ho', ok_bind, hl]
      rfl
    · rw [hrestoring.pending, hpending]
    · rw [entered, if_neg (by simp [hl]), hrestoring.grows.monitor, List.count_nil, Nat.add_zero]

/-! ### Giving a plan up -/

/-- A plan is given up if all owners are held. -/
lemma exists_fetch_of_held {thrown : Option Thrown} (hp : Placed t frame caller f r)
    (hgot : recover s m t.enterHandler mode frame.id f r = .ok got)
    (hrecovers : RecoversRefused s m t f r o got)
    (hthrown : rethrown f o.table r (r.scopes.headD default) = .ok thrown)
    (hheld : ∀ q, (f.owners o.table r).count q + (f.kept o.table r).count q ≤
      (got.memory.store.monitor q).holdCount t.id) :
    ∃ x, fetch s m t mode = .ok x := by
  rw [← hrecovers.table] at hthrown
  obtain ⟨ps, hpacked, hpacks⟩ := Packed.exists_ofScopes hp.readable got.table
  obtain ⟨store, hstore⟩ := exists_foldlM_leave_iff.2 fun q => by
    rw [CompiledFrame.count_heldBy hpacks, hrecovers.table]
    exact hheld q
  obtain ⟨l, u, p, hfetch, -⟩ := fetch_of_refused hp hgot hrecovers.failed hrecovers.thread hthrown
    hpacked ((release_eq t.id got.memory.store ps).trans hstore)
  exact ⟨_, hfetch⟩

/-- Whatever planning comes to, the owners that were not entered are left too. -/
lemma released_of_fetch (hp : Placed t frame caller f r)
    (hgot : recover s m t.enterHandler mode frame.id f r = .ok got)
    (hrecovers : RecoversRefused s m t f r o got) (h : fetch s m t mode = .ok (l, m', u)) :
    (∃ thrown, rethrown f o.table r (r.scopes.headD default) = .ok thrown) ∧
      ∀ q, (m'.store.monitor q).holdCount t.id +
          ((f.owners o.table r).count q + (f.kept o.table r).count q) =
        (m.store.monitor q).holdCount t.id + (entered s f o.table r).count q := by
  obtain ⟨got', thrown, v, w, hfetched⟩ := fetch_spec_of_target hp.target hp.record h
  obtain rfl : got = got' := by
    simpa using hgot.symm.trans hfetched.recover
  have hid : got.thread.id = t.id := by
    rw [hrecovers.thread]
    rfl
  rw [← hrecovers.table]
  refine ⟨⟨thrown, hfetched.rethrown⟩, fun q => ?_⟩
  have hleft := hfetched.released hrecovers.failed q
  rwa [hid, hrecovers.holdCount q, ← hrecovers.table] at hleft

/-- Objects were refused to a thread that holds the monitors which compiled code holds. The plan is
given up with these monitors left, each as often as it is listed, and all others as they were,
exactly if eliminated monitors are entered or there are none to be entered. -/
theorem fetch_balanced_iff (hmode : mode ≠ .inspect) (hp : Placed t frame caller f r)
    (hk : Restore.Known s f r m.store) (ht : t.restored.get? frame.id = none)
    (ho : Restore.objectsIfEnabled s m t.pending mode f r.objects = .ok o) (hf : o.failed = true)
    (hadmits : Restore.Admits t.id m.store (f.owners o.table r))
    (hheld : ∀ q, (f.kept o.table r).count q ≤ (m.store.monitor q).holdCount t.id) :
    (∃ l m' u, fetch s m t mode = .ok (l, m', u) ∧ ∀ q,
      (m'.store.monitor q).holdCount t.id + (f.kept o.table r).count q =
        (m.store.monitor q).holdCount t.id) ↔
    (∃ thrown, rethrown f o.table r (r.scopes.headD default) = .ok thrown) ∧
      (s.config.eliminateLocks = true ∨ f.owners o.table r = []) := by
  obtain ⟨got, hgot, hrecovers⟩ := exists_recover_of_refused hmode hp.readable hk ht ho hf hadmits
  constructor
  · rintro ⟨l, m', u, hfetch, hbalance⟩
    obtain ⟨hthrown, hleft⟩ := released_of_fetch hp hgot hrecovers hfetch
    refine ⟨hthrown, ?_⟩
    by_contra hswitch
    obtain ⟨hl, howners⟩ := not_or.1 hswitch
    obtain ⟨q, hq⟩ := List.exists_mem_of_ne_nil _ howners
    have hcount := List.count_pos_iff.2 hq
    have hafter := hleft q
    rw [entered, if_neg hl, List.count_nil] at hafter
    have := hbalance q
    omega
  · rintro ⟨⟨thrown, hthrown⟩, hswitch⟩
    have hentered : entered s f o.table r = f.owners o.table r := by
      rw [entered]
      rcases hswitch with hl | hnone
      · rw [if_pos hl]
      · rw [hnone, ite_self]
    obtain ⟨⟨l, m', u⟩, hfetch⟩ := exists_fetch_of_held hp hgot hrecovers hthrown fun q => by
      have := hheld q
      rw [hrecovers.holdCount, hentered]
      omega
    refine ⟨l, m', u, hfetch, fun q => ?_⟩
    have hleft := (released_of_fetch hp hgot hrecovers hfetch).2 q
    rw [hentered] at hleft
    omega

/-! ### Entering switched off -/

namespace Unswitched

/-- Eliminated monitors are not entered, and there are no box caches. -/
def supply : Restore.Supply := ⟨{ eliminateLocks := false }, {}⟩

/-- The monitors of an eliminated object and of null were eliminated, that of another object was
not. -/
def scope : Scope where
  method := Inlined.outer
  bci := 0
  monitors := [⟨.located ⟨.stack 0, .reference⟩, false⟩, ⟨.eliminated 7, true⟩,
    ⟨.reference none, true⟩]

def record : DebugRecord := { Refused.record with scopes := [scope] }

def compiled : CompiledFrame :=
  { Refused.compiled with region := { Inlined.region with debug := ⟨[record]⟩ } }

def top : Frame := { Refused.top with kind := .compiled compiled }

def thread : Thread := { Refused.thread with stack := [top, Refused.entry] }

lemma placed : Placed thread top Refused.entry compiled record where
  target := rfl
  record := rfl
  scopes := List.cons_ne_nil _ _
  readable := by
    have hobject : compiled.Supplies (.located ⟨.stack 0, .reference⟩) := .inr ⟨_, rfl, trivial⟩
    have hnull : compiled.Supplies (.reference none) := trivial
    have heliminated : compiled.Supplies (.eliminated 7) := trivial
    simp only [record, List.forall_mem_singleton]
    refine ⟨?_, ?_, ?_⟩ <;> simp [scope, hobject, hnull, heliminated]
  plan := rfl
  room := by decide

lemma known : Restore.Known supply compiled record Refused.memory.store where
  boxes := nofun
  owners := by
    show ∀ q ∈ ([] : List Ref), Refused.memory.store.Has q
    simp

lemma held (q : Ref) :
    [(⟨0⟩ : Ref)].count q ≤ (Refused.memory.store.monitor q).holdCount 1 :=
  Nat.le_trans (List.Sublist.count_le q (List.sublist_cons_self ..)) (Refused.held q)

end Unswitched

/-- Neither of the eliminated monitors is there to be entered. The other one is left once, and the
thread still holds it once. -/
theorem fetch_balanced_iff_unswitched :
    Placed Unswitched.thread Unswitched.top Refused.entry Unswitched.compiled Unswitched.record ∧
    Restore.Known Unswitched.supply Unswitched.compiled Unswitched.record Refused.memory.store ∧
    ∃ o, Restore.objectsIfEnabled Unswitched.supply Refused.memory none .plain Unswitched.compiled
        Unswitched.record.objects = .ok o ∧ o.failed = true ∧
      ∃ l m' u, fetch Unswitched.supply Refused.memory Unswitched.thread .plain = .ok (l, m', u) ∧
        (m'.store.monitor ⟨0⟩).holdCount 1 = 1 := by
  obtain ⟨o, ho, hfailed, howners, hkept⟩ : ∃ o,
      Restore.objectsIfEnabled Unswitched.supply Refused.memory none .plain Unswitched.compiled
          Unswitched.record.objects = .ok o ∧ o.failed = true ∧
        Unswitched.compiled.owners o.table Unswitched.record = [] ∧
        Unswitched.compiled.kept o.table Unswitched.record = [⟨0⟩] := ⟨_, rfl, rfl, rfl, rfl⟩
  have hiff := fetch_balanced_iff (t := Unswitched.thread) (show Mode.plain ≠ .inspect by decide)
    Unswitched.placed Unswitched.known rfl ho hfailed (by rw [howners]; exact nofun)
    (by rw [hkept]; exact Unswitched.held)
  obtain ⟨l, m', u, hfetch, hbalance⟩ := hiff.2 ⟨⟨none, rfl⟩, .inr howners⟩
  refine ⟨Unswitched.placed, Unswitched.known, o, ho, hfailed, l, m', u, hfetch, ?_⟩
  have hcount := hbalance ⟨0⟩
  rw [hkept] at hcount
  exact Nat.add_right_cancel (m := 1) hcount

/-- The thread holds a monitor as often as compiled code holds it. It is listed once more because
entering it was left out, and is left once more than it is held. -/
theorem fetch_unbalanced_refused :
    Placed Refused.thread Refused.top Refused.entry Refused.compiled Refused.record ∧
    Restore.Known Unswitched.supply Refused.compiled Refused.record Refused.memory.store ∧
    ∃ o, Restore.objectsIfEnabled Unswitched.supply Refused.memory none .plain Refused.compiled
        Refused.record.objects = .ok o ∧ o.failed = true ∧
      Restore.Admits 1 Refused.memory.store (Refused.compiled.owners o.table Refused.record) ∧
      (∀ q, (Refused.compiled.kept o.table Refused.record).count q ≤
        (Refused.memory.store.monitor q).holdCount 1) ∧
      ∃ text, fetch Unswitched.supply Refused.memory Refused.thread .plain =
        .error (.assertion (.monitorNotHeld text 1)) := by
  obtain ⟨o, ho, hfailed, howners, hkept⟩ : ∃ o,
      Restore.objectsIfEnabled Unswitched.supply Refused.memory none .plain Refused.compiled
          Refused.record.objects = .ok o ∧ o.failed = true ∧
        Refused.compiled.owners o.table Refused.record = [⟨0⟩] ∧
        Refused.compiled.kept o.table Refused.record = [⟨0⟩, ⟨0⟩] := ⟨_, rfl, rfl, rfl, rfl⟩
  refine ⟨Refused.placed, ⟨Refused.known.boxes, Refused.known.owners⟩, o, ho, hfailed, ?_, ?_,
    _, rfl⟩
  · rw [howners]
    simp only [Restore.Admits, List.forall_mem_singleton]
    decide
  · rw [hkept]
    exact Refused.held

end Bailout.Unwind
