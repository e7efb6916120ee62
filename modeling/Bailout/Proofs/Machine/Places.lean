import Bailout.Proofs.Machine.Kept
import Bailout.Proofs.Machine.Limits
import Bailout.Proofs.Trap.Log

/-!
# Traps that escalate early

A bytecode is to have its code invalidated once it trapped for one reason more often than its limit
allows. But records do not count. What is compared with the limit is the count of the whole method,
and the record of the bytecode says only that it trapped before, or that it may have. So whether a
trap closes its region can be told from the log of the method's traps; and it does so early where
traps at other bytecodes make up for those that are missing.
-/

namespace Bailout

/-- A trap at a bytecode that counts, for a reason. -/
def Entry.hits (bci : Nat) (r : Reason) : Entry → Bool
  | .counted _ b q => b = bci && q = r
  | _ => false

/-- What is told to the history of a method when something happens: that a trap in the method is
recorded, and that it closed its region. -/
def Happening.entries (M : Nat) : Happening → List Entry
  | .trap s q closes =>
    if s.trapped = M ∧ MethodState.records q.reason q.action = true then
      .counted 0 s.scope.bci q.reason :: if closes then [.recompiled s.scope.bci] else []
    else []
  | _ => []

/-- The log of the traps in a method over a run. -/
def trapLog (M : Nat) (es : List Happening) : List Entry := es.flatMap (Happening.entries M)

/-! ### Profiles -/

/-- A history is told that a trap closed its region, if it was told of the trap. -/
lemma History.Reflects.noteInvalidation {h : History} {log : List Entry} (hl : h.Reflects log)
    (bci : Nat) (r : Reason) (a : Action) :
    (h.noteInvalidation bci r a).Reflects
      (log ++ if MethodState.records r a then [.recompiled bci] else []) := by
  have hnoted : (if MethodState.records r a then (h.update? bci fun rec =>
      { rec with state := rec.state.setRecompiled true }).getD h else h).Reflects
        (log ++ if MethodState.records r a then [.recompiled bci] else []) := by
    split_ifs
    · exact hl.recompiled bci
    · rwa [List.append_nil]
  simp only [History.noteInvalidation]
  by_cases ht : r = .tenured
  · rw [if_pos ht]
    exact hnoted.congr rfl rfl rfl
  · rwa [if_neg ht]

lemma History.capacity_noteInvalidation (h : History) (bci : Nat) (r : Reason) (a : Action) :
    (h.noteInvalidation bci r a).capacity = h.capacity := by
  have hnoted : (if MethodState.records r a then (h.update? bci fun rec =>
      { rec with state := rec.state.setRecompiled true }).getD h else h).capacity = h.capacity := by
    split_ifs
    · exact capacity_update
    · rfl
  simp only [History.noteInvalidation]
  by_cases ht : r = .tenured
  · rw [if_pos ht]
    exact hnoted
  · rwa [if_neg ht]

/-- The history in a profile, or the one that a profile would start with. -/
def Config.historyOf (c : Config) (o : Option Profile) : History :=
  (o.map Profile.history).getD (.empty c.extraDataSlots)

lemma history_profileWith (s : MethodState) (c : Config) :
    (s.profileWith c.extraDataSlots).history = c.historyOf s.profile := by
  rw [MethodState.profileWith, Config.historyOf]
  cases s.profile with
  | none => rfl
  | some p => rfl

/-- A profile that traps are recorded in, whose history reflects a log and can have `k` records.
The profile may be yet to come. -/
structure Digests (c : Config) (k : Nat) (log : List Entry) (o : Option Profile) : Prop where
  traced : o.isSome = true ∨ c.profileTraps = true
  reflects : (c.historyOf o).Reflects log
  capacity : (c.historyOf o).capacity = k

namespace Digests

variable {c : Config} {k : Nat} {log : List Entry} {e : Entry} {o : Option Profile}
  {f : History → History}

/-- The profile still digests the log after changes of its history that the log does not see. -/
lemma mapHistory (hd : Digests c k log o)
    (hf : ∀ h : History, (f h).counts = h.counts ∧ (f h).records = h.records ∧
      (f h).capacity = h.capacity) : Digests c k log (o.map (·.mapHistory f)) := by
  cases o with
  | none => exact hd
  | some x =>
    obtain ⟨hcounts, hrecords, hcapacity⟩ := hf x.history
    exact ⟨.inl rfl, hd.reflects.congr hcounts hrecords hcapacity, hcapacity.trans hd.capacity⟩

/-- The profile digests another log after a change of its history that is told to the log. -/
lemma tell {log' : List Entry} (hd : Digests c k log o) (ho : o.isSome = true)
    (hf : ∀ h : History, h.Reflects log → (f h).Reflects log' ∧ (f h).capacity = h.capacity) :
    Digests c k log' (o.map (·.mapHistory f)) := by
  obtain ⟨x, rfl⟩ := Option.isSome_iff_exists.1 ho
  obtain ⟨hl, hcapacity⟩ := hf x.history hd.reflects
  exact ⟨.inl rfl, hl, hcapacity.trans hd.capacity⟩

lemma charged {x : Profile} (hd : Digests c k log (some x)) : Digests c k log (some x.charged) :=
  ⟨hd.traced, hd.reflects, hd.capacity⟩

end Digests

namespace Machine

variable {start m m' m₂ : Machine} {s : Site} {q : Request} {v : Verdict} {M k t : Nat}
  {log : List Entry} {e : Happening} {es : List Happening}

/-! ### One trap -/

/-- A trap is looked up in the profile, which is there by then. -/
lemma exists_profileFor (hd : Digests m.config k log (m.program.method s.trapped).profile) :
    ∃ x, m.profileFor s = some x ∧
      x.history = m.config.historyOf (m.program.method s.trapped).profile := by
  rw [profileFor]
  split_ifs with hc
  · exact ⟨_, rfl, history_profileWith _ _⟩
  · obtain ⟨x, hx⟩ := Option.isSome_iff_exists.1 (hd.traced.resolve_right hc)
    exact ⟨x, hx, by rw [hx]; rfl⟩

lemma digests_judge (hlt : s.trapped < m.program.methods.size)
    (hd : Digests m.config k log (m.program.method s.trapped).profile) :
    Digests m.config k
        (log ++ if MethodState.records q.reason q.action then
          [.counted 0 s.scope.bci q.reason] else [])
        ((m.judge s q).2.program.method s.trapped).profile ∧
      ((m.judge s q).2.program.method s.trapped).profile.isSome = true := by
  obtain ⟨x, hx, hhistory⟩ := exists_profileFor hd
  have hl : x.history.Reflects log := hhistory ▸ hd.reflects
  have hk : x.history.capacity = k := hhistory ▸ hd.capacity
  rw [profile_judge hlt, hx]
  split_ifs
  · exact ⟨⟨.inl rfl, hl.counted _ _ _ _, History.capacity_query.trans hk⟩, rfl⟩
  · rw [List.append_nil]
    exact ⟨⟨.inl rfl, hl, hk⟩, rfl⟩

/-- What follows from a verdict does not concern the log. -/
lemma digests_settle {c : Config}
    (h : (m.countRecompile s v).2.carryOut s (m.countRecompile s v).1 = .ok m₂)
    (hd : Digests c k log (m.program.method M).profile) :
    Digests c k log ((m₂.noteHandler s).program.method M).profile := by
  have hsettle := profile_settle h M
  by_cases hM : M = s.trapped
  · rw [hsettle, if_pos hM]
    refine (hd.mapHistory fun h => ?_).mapHistory fun h => ?_
    · split_ifs
      · exact ⟨rfl, rfl, rfl⟩
      · exact ⟨rfl, rfl, rfl⟩
    · rw [History.enterHandler?]
      split_ifs
      · exact ⟨rfl, rfl, rfl⟩
      · exact ⟨rfl, rfl, rfl⟩
  · rwa [hsettle, if_neg hM]

lemma entries_trap (s : Site) (q : Request) (closes : Bool) :
    (Happening.trap s q closes).entries s.trapped =
      (if MethodState.records q.reason q.action then [.counted 0 s.scope.bci q.reason] else []) ++
        if closes ∧ MethodState.records q.reason q.action then [.recompiled s.scope.bci] else [] := by
  rw [Happening.entries]
  cases closes <;> by_cases hr : MethodState.records q.reason q.action = true <;> simp [hr]

/-- A trap is told to the history of the method that it fired in, and that it closed its region. -/
lemma digests_trap {closes : Bool} (hs : Site.find (m.thread t) = .ok s) (hin : s.In m)
    (h : m.handleTrap t q = .ok m')
    (hcloses : closes = ((m.program.code.state s.region.ref).inUse &&
      !(m'.program.code.state s.region.ref).inUse))
    (hd : Digests m.config k log (m.program.method s.trapped).profile) :
    Digests m.config k (log ++ (Happening.trap s q closes).entries s.trapped)
      (m'.program.method s.trapped).profile := by
  have hstate := (handleTrap_spec hs h).state hin.ref_lt
  have hcode := (m.learns_judge s q).code
  obtain ⟨hjudged, hsome⟩ := digests_judge (q := q) hin.trapped_lt hd
  rw [handleTrap_eq_ok hs] at h
  rw [entries_trap, ← List.append_assoc]
  generalize log ++ (if MethodState.records q.reason q.action then
    [Entry.counted 0 s.scope.bci q.reason] else []) = log' at hjudged ⊢
  rw [hstate] at hcloses
  rcases execute_cases h with
    ⟨m₂, hv, hcarry, hp, -⟩ | ⟨hv, hu, hp, -⟩ | ⟨p, m₁, m₂, hv, hi, rfl, hcarry, hp, -⟩
  · obtain rfl : closes = false := by simpa [hv] using hcloses
    rw [hp]
    refine digests_settle hcarry ?_
    simpa using hjudged
  · obtain rfl : closes = false := by simpa [hcode ▸ hu] using hcloses
    rw [hp]
    simpa using hjudged
  · have hnews := (Program.invalidate_news hi).1
    rw [hcode] at hnews
    obtain rfl : closes = true := by simpa [hv, ← hnews] using hcloses
    rw [hp]
    refine digests_settle hcarry ?_
    rw [profile_noteInvalidation, if_pos rfl]
    -- The charge comes before the note, and leaves the history as it is.
    obtain ⟨hcharged, hsome⟩ := Program.kept_invalidate
      (P := fun o => Digests m.config k log' o ∧ o.isSome = true)
      (fun x hx => ⟨hx.1.charged, rfl⟩) hi ⟨hjudged, hsome⟩
    refine hcharged.tell hsome fun h hl => ⟨?_, h.capacity_noteInvalidation _ _ _⟩
    simpa using hl.noteInvalidation s.scope.bci q.reason q.action

/-- The history of a method is told nothing of traps in other methods. -/
lemma digests_trap_of_ne (hs : Site.find (m.thread t) = .ok s) (h : m.handleTrap t q = .ok m')
    (hM : M ≠ s.trapped) (hd : Digests m.config k log (m.program.method M).profile) :
    Digests m.config k log (m'.program.method M).profile := by
  rw [handleTrap_eq_ok hs] at h
  have hjudged : Digests m.config k log ((m.judge s q).2.program.method M).profile := by
    rwa [profile_judge_of_ne hM]
  rcases execute_cases h with
    ⟨m₂, -, hcarry, hp, -⟩ | ⟨-, -, hp, -⟩ | ⟨p, m₁, m₂, -, hi, rfl, hcarry, hp, -⟩
  · rw [hp]
    exact digests_settle hcarry hjudged
  · rwa [hp]
  · rw [hp]
    refine digests_settle hcarry ?_
    rw [profile_noteInvalidation, if_neg hM]
    exact Program.kept_invalidate (fun x => Digests.charged) hi hjudged

/-- A trap in a method is told to its history, and that it closed its region. -/
lemma Happens.digests (h : Happens m e m') (hquiet : ∀ bci r, e ≠ .interpreted M bci r)
    (hd : Digests m.config k log (m.program.method M).profile) :
    Digests m.config k (log ++ e.entries M) (m'.program.method M).profile := by
  cases h with
  | @trap t s q _ hs hin h =>
    by_cases hM : M = s.trapped
    · subst hM
      exact digests_trap hs hin h rfl hd
    · show Digests _ _ (log ++ if s.trapped = M ∧ _ then _ else _) _
      rw [if_neg fun h => hM h.1.symm, List.append_nil]
      exact digests_trap_of_ne hs h hM hd
  | interpreted M' bci r =>
    have hM : M ≠ M' := by
      rintro rfl
      exact hquiet bci r rfl
    show Digests _ _ (log ++ []) _
    rw [List.append_nil, recordInterpreted, modifyMethod, Program.method_modifyMethod_of_ne _ _ hM]
    exact hd
  | installed x =>
    show Digests _ _ (log ++ []) _
    rwa [List.append_nil]
  | marked h =>
    show Digests _ _ (log ++ []) _
    rwa [List.append_nil]
  | committed h =>
    show Digests _ _ (log ++ []) _
    rw [List.append_nil]
    rcases (program_commit h).2 with hp | ⟨n, target, hp⟩
    · rwa [hp]
    · exact Program.kept_retireMarked (fun x => Digests.charged) hp hd
  | elsewhere _ _ hprofile _ =>
    show Digests _ _ (log ++ []) _
    rwa [List.append_nil, hprofile]

/-! ### Runs -/

/-- Over a run the history of a method reflects the log of its traps. -/
theorem Unfolds.digests (h : Unfolds start es m) (hquiet : ∀ bci r, .interpreted M bci r ∉ es)
    (hd : Digests start.config k [] (start.program.method M).profile) :
    Digests start.config k (trapLog M es) (m.program.method M).profile := by
  induction h with
  | nil => exact hd
  | @snoc es e m' m'' h he ih =>
    simp only [List.mem_append, List.mem_singleton, not_or] at hquiet
    rw [trapLog, List.flatMap_append, List.flatMap_cons, List.flatMap_nil, List.append_nil]
    have hd := ih fun bci r => (hquiet bci r).1
    rw [← h.config] at hd ⊢
    exact he.digests (fun bci r => Ne.symm (hquiet bci r).2) hd

/-! ### Verdicts -/

/-- A trap that asks for nothing by itself is judged by the history alone. -/
lemma Verdict.invalidate_maybeRecompile {r x : Reason} {c : Config} {snapshot : Snapshot}
    (hr : r.standIn? = some x) :
    (Verdict.decide r .maybeRecompile (some snapshot) c).invalidate = true ↔
      (snapshot.maybePriorTrap = true ∧ c.perBytecodeTrapLimit < snapshot.count) ∨
        c.methodLimit r < snapshot.count := by
  simp [Verdict.decide, Verdict.locally, Verdict.ofAction, hr]

/-- A trap whose place has room for a record is judged by the log. -/
lemma invalidate_judge_iff {x : Reason} (hlt : s.trapped < m.program.methods.size)
    (hd : Digests m.config k log (m.program.method s.trapped).profile)
    (ha : q.action = .maybeRecompile) (hr : q.reason.standIn? = some x)
    (hroom : (places (log ++ [.counted 0 s.scope.bci q.reason])).length ≤ k)
    (hlimit : log.countP (Entry.counts q.reason) + 1 ≤ m.config.methodLimit q.reason)
    (htop : m.config.methodLimit q.reason < 2 ^ 32) :
    (m.judge s q).1.invalidate = true ↔
      m.config.perBytecodeTrapLimit < log.countP (Entry.counts q.reason) + 1 ∧
      0 < log.countP (Entry.counts q.reason) ∧
      (x ∈ reasonsAt s.scope.bci log ∨ 1 < (reasonsAt s.scope.bci log).eraseDups.length) := by
  obtain ⟨p, hp, hhistory⟩ := exists_profileFor hd
  have hl : p.history.Reflects log := hhistory ▸ hd.reflects
  have hk : p.history.capacity = k := hhistory ▸ hd.capacity
  have hrecords : MethodState.records q.reason q.action = true :=
    MethodState.records_of_standIn? hr (by rw [ha]; decide)
  have hfree : p.history.hasRoom s.scope.bci = true :=
    hl.hasRoom (e := .counted 0 s.scope.bci q.reason) (by simp [Entry.place?, hr]) (hk ▸ hroom)
  have htop' : counterLimit = 2 ^ 32 := rfl
  -- The counter of the method is not at its top.
  have hcount : p.history.count q.reason = log.countP (Entry.counts q.reason) := by
    rw [hl.count]
    omega
  have hnext : saturatingNext (log.countP (Entry.counts q.reason)) =
      log.countP (Entry.counts q.reason) + 1 := by
    rw [saturatingNext]
    omega
  rw [judge_of_records hlt hp hrecords, ha, Verdict.invalidate_maybeRecompile hr,
    History.snd_query_of_recorded hr hfree]
  generalize hsnapshot : History.Snapshot.sharpen _ (p.history.record s.scope.bci) x = snapshot
  have hprior : snapshot.maybePriorTrap = true ↔ 0 < log.countP (Entry.counts q.reason) ∧
      (x ∈ reasonsAt s.scope.bci log ∨ 1 < (reasonsAt s.scope.bci log).eraseDups.length) := by
    rw [← hsnapshot, History.Snapshot.sharpen, hl.state_record hfree, Bool.and_eq_true, has_stateAt,
      History.estimate, hcount, decide_eq_true_iff, Nat.pos_iff_ne_zero]
  have hsnapcount : snapshot.count = log.countP (Entry.counts q.reason) + 1 := by
    rw [← hsnapshot, ← hnext, ← hcount]
    rfl
  rw [hprior, hsnapcount]
  constructor
  · rintro (⟨h, hlt⟩ | hlt)
    · exact ⟨hlt, h⟩
    · omega
  · rintro ⟨hlt, h⟩
    exact .inl ⟨h, hlt⟩

/-! ### A method with two bytecodes that trap -/

namespace Twin

/-- The code of a method with debug records for two of its bytecodes. -/
def region : Region where
  ref := 0
  compileId := 1
  method := Worn.method
  start := 0x1000
  size := 64
  handlerOffset := 48
  debug := ⟨[{ offset := 8, scopes := [{ method := Worn.method, bci := 0 }] },
    { offset := 16, scopes := [{ method := Worn.method, bci := 1 }] }]⟩

/-- A thread that runs in the region. -/
def thread (id pc : Nat) : Thread where
  id := id
  name := "main"
  stack := [⟨1, Thread.stackBase - 4, 4, pc, .compiled { region := region, slots := #[] }⟩]

/-- Two traps are tolerated at each bytecode. One thread runs at each of the two. -/
def machine : Machine where
  config := .small
  program := { methods := #[{ method := Worn.method }], code := { regions := #[(region, {})] } }
  roster := { threads := #[thread 0 0x1008, thread 1 0x1010] }

end Twin

/-! ### The limit -/

/-- When a trap that only may invalidate its code does: the method trapped for the reason before,
more often than the limit of a bytecode with this trap; and at the bytecode of the trap the stand-in
of the reason was recorded, or several reasons were. If all traps of the method for the reason were
at this bytecode, its limit is kept. -/
theorem closes_iff {x : Reason} (h : Unfolds start es m)
    (htraced : (start.program.method s.trapped).profile.isSome = true ∨
      start.config.profileTraps = true)
    (hfresh : ((start.program.method s.trapped).profileWith start.config.extraDataSlots).history =
      .empty k)
    (hquiet : ∀ bci r, .interpreted s.trapped bci r ∉ es)
    (hs : Site.find (m.thread t) = .ok s) (hin : s.In m)
    (hopen : (m.program.code.state s.region.ref).inUse = true)
    (hcharge : (m.program.method s.compiled).decompiles + 1 < 2 ^ 32)
    (ha : q.action = .maybeRecompile) (hr : q.reason.standIn? = some x)
    (hroom : (places (trapLog s.trapped es ++ [.counted 0 s.scope.bci q.reason])).length ≤ k)
    (hlimit : (trapLog s.trapped es).countP (Entry.counts q.reason) + 1 ≤
      start.config.methodLimit q.reason)
    (htop : start.config.methodLimit q.reason < 2 ^ 32) :
    ∃ m', m.handleTrap t q = .ok m' ∧
      ((m'.program.code.state s.region.ref).inUse = false ↔
        start.config.perBytecodeTrapLimit <
          (trapLog s.trapped es).countP (Entry.counts q.reason) + 1 ∧
        0 < (trapLog s.trapped es).countP (Entry.counts q.reason) ∧
        (x ∈ reasonsAt s.scope.bci (trapLog s.trapped es) ∨
          1 < (reasonsAt s.scope.bci (trapLog s.trapped es)).eraseDups.length)) ∧
      ((trapLog s.trapped es).countP (Entry.hits s.scope.bci q.reason) =
          (trapLog s.trapped es).countP (Entry.counts q.reason) →
        (m'.program.code.state s.region.ref).inUse = false →
        start.config.perBytecodeTrapLimit <
          (trapLog s.trapped es).countP (Entry.hits s.scope.bci q.reason) + 1) := by
  rw [history_profileWith] at hfresh
  have hd := h.digests hquiet
    ⟨htraced, by rw [hfresh]; exact .empty k, by rw [hfresh]⟩
  have hconfig := h.config
  rw [← hconfig] at hd hlimit htop ⊢
  obtain ⟨m', hm'⟩ := exists_handleTrap hs hin q hcharge
  have hclosed : (m'.program.code.state s.region.ref).inUse = false ↔
      (m.judge s q).1.invalidate = true := by
    rw [(handleTrap_spec hs hm').state hin.ref_lt]
    simp [hopen]
  have hiff := hclosed.trans (invalidate_judge_iff hin.trapped_lt hd ha hr hroom hlimit htop)
  exact ⟨m', hm', hiff, fun hall hclose => hall ▸ (hiff.1 hclose).1⟩

/-- A null check fails at one bytecode and twice at the other. -/
theorem closes_iff_twin : ∃ es m m' s, Unfolds Twin.machine es m ∧
    Site.find (m.thread 1) = .ok s ∧ s.In m ∧ (m.program.code.state 0).inUse = true ∧
    m.handleTrap 1 (Worn.nullCheck .maybeRecompile) = .ok m' ∧
    (m'.program.code.state 0).inUse = false := by
  have h : Unfolds Twin.machine [] _ := .nil
  have h := h.snoc (@Happens.trap _ 0 _ (Worn.nullCheck .maybeRecompile) _ rfl
    ⟨rfl, by decide, by decide⟩ rfl)
  have h := h.snoc (@Happens.trap _ 1 _ (Worn.nullCheck .maybeRecompile) _ rfl
    ⟨rfl, by decide, by decide⟩ rfl)
  obtain ⟨m', hm', hiff, -⟩ := closes_iff (k := 8) (t := 1) (q := Worn.nullCheck .maybeRecompile) h
    (.inr rfl) rfl (by simp) rfl ⟨rfl, by decide, by decide⟩ (by decide) (by decide) rfl rfl
    (by decide) (by decide) (by decide)
  exact ⟨_, _, m', _, h, rfl, ⟨rfl, by decide, by decide⟩, by decide, hm',
    hiff.2 ⟨by decide, by decide, by decide⟩⟩

/-- The limit of a bytecode is kept by counting the traps of its method. A null check fails at
one bytecode and twice at the other, all with traps that only may invalidate the code, in a method
with a new profile, with room for records and below its own limit; the code is invalidated by the
second trap at a bytecode that is allowed two. -/
theorem closed_early : ∃ es m m' s, Unfolds Twin.machine es m ∧
    (Twin.machine.program.method 0).profileWith Twin.machine.config.extraDataSlots = .empty 1 8 ∧
    (∀ e ∈ es, ∃ s q b, e = .trap s q b ∧ s.trapped = 0 ∧ q.action = .maybeRecompile) ∧
    Site.find (m.thread 1) = .ok s ∧ s.In m ∧ s.trapped = 0 ∧ s.region.ref = 0 ∧
    (places (trapLog 0 es ++ [.counted 0 s.scope.bci .nullCheck])).length ≤ 8 ∧
    (trapLog 0 es).countP (Entry.counts .nullCheck) + 1 ≤ m.config.methodLimit .nullCheck ∧
    (m.program.code.state 0).inUse = true ∧
    m.handleTrap 1 (Worn.nullCheck .maybeRecompile) = .ok m' ∧
    (m'.program.code.state 0).inUse = false ∧
    ¬ m.config.perBytecodeTrapLimit <
      (trapLog 0 es).countP (Entry.hits s.scope.bci .nullCheck) + 1 := by
  have h : Unfolds Twin.machine [] _ := .nil
  have h := h.snoc (@Happens.trap _ 0 _ (Worn.nullCheck .maybeRecompile) _ rfl
    ⟨rfl, by decide, by decide⟩ rfl)
  have h := h.snoc (@Happens.trap _ 1 _ (Worn.nullCheck .maybeRecompile) _ rfl
    ⟨rfl, by decide, by decide⟩ rfl)
  refine ⟨_, _, _, _, h, rfl, ?_, rfl, ⟨rfl, by decide, by decide⟩, rfl, rfl, by decide, by decide,
    by decide, rfl, by decide, by decide⟩
  intro e he
  simp only [List.nil_append, List.cons_append, List.mem_cons, List.not_mem_nil, or_false] at he
  rcases he with rfl | rfl
  · exact ⟨_, _, _, rfl, rfl, by decide⟩
  · exact ⟨_, _, _, rfl, rfl, by decide⟩

end Machine
end Bailout
