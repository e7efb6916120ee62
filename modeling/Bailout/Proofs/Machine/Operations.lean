import Bailout.Machine.Inspect
import Bailout.Machine.Unwind
import Bailout.Proofs.Unwind.Outcome

/-!
# Operations on one frame

What it does to the machine that a compiled frame is inspected, patched, planned for or unpacked, as
far as the frame and its eliminated objects and monitors are concerned.
-/

namespace Bailout

/-! ### One frame -/

/-- Activations in compiled code that differ at most in being patched. -/
def CompiledFrame.Alike (c c' : CompiledFrame) : Prop := c' = { c with heldPc := c'.heldPc }

namespace Restore

variable {s : Supply} {n : Nat} {c c' : CompiledFrame} {r : DebugRecord} {table : Restored}
  {m m' : Memory} {store : Store}

lemma restores_congr (h : c.Alike c') :
    Restores s n c' r table m m' ↔ Restores s n c r table m m' := by
  rw [h]
  exact ⟨fun ⟨h₁, h₂, h₃, h₄⟩ => ⟨h₁, h₂, h₃, h₄⟩, fun ⟨h₁, h₂, h₃, h₄⟩ => ⟨h₁, h₂, h₃, h₄⟩⟩

lemma known_congr (h : c.Alike c') : Known s c' r store ↔ Known s c r store := by
  rw [h]
  exact ⟨fun ⟨h₁, h₂⟩ => ⟨h₁, h₂⟩, fun ⟨h₁, h₂⟩ => ⟨h₁, h₂⟩⟩

end Restore

namespace Frame

variable {f g : Frame} {c : CompiledFrame} {r : DebugRecord} {h h' : Histogram} {b : Bool}
  {reason : Reason}

lemma record_eq_ok : f.record = .ok (c, r) ↔ f.kind = .compiled c ∧
    c.region.contains f.logicalPc = .ok true ∧ c.region.recordAt f.logicalPc = .ok r := by
  unfold record
  cases hk : f.kind with
  | compiled c' =>
    simp only [bind_eq_ok, guarantee_eq_ok, pure_eq_ok, Prod.mk.injEq, FrameKind.compiled.injEq]
    constructor
    · rintro ⟨_, hcontains, _, rfl, _, hrecord, rfl, rfl⟩
      exact ⟨rfl, hcontains, hrecord⟩
    · rintro ⟨rfl, hcontains, hrecord⟩
      exact ⟨true, hcontains, (), rfl, r, hrecord, rfl, rfl⟩
  | _ => simp

lemma deoptimize_spec (hr : f.record = .ok (c, r)) (hd : f.deoptimize h reason = .ok (b, h', g)) :
    f.Keeps g ∧ ∃ c', g.record = .ok (c', r) ∧ c.Alike c' := by
  obtain ⟨hk, hcontains, hrecord⟩ := record_eq_ok.1 hr
  simp only [deoptimize, hk, FrameKind.compiled?] at hd
  split_ifs at hd with hheld
  · cases hd
    exact ⟨.refl f, c, hr, rfl⟩
  · simp only [bind_eq_ok, pure_eq_ok] at hd
    obtain ⟨⟨b', g'⟩, hpatch, hd⟩ := hd
    cases hd
    refine ⟨keeps_patch hpatch, ?_⟩
    have hpc := logicalPc_patch hpatch
    rcases patch_cases hpatch with ⟨rfl, -⟩ | ⟨c', handler, hk', -, -, rfl⟩
    · exact ⟨c, hr, rfl⟩
    · rw [hk, FrameKind.compiled.injEq] at hk'
      subst hk'
      refine ⟨{ c with heldPc := some f.pc }, record_eq_ok.2 ⟨rfl, ?_, ?_⟩, rfl⟩
      · rw [hpc]
        exact hcontains
      · rw [hpc]
        exact hrecord

end Frame

namespace Thread

variable {t u : Thread} {id : Nat} {f g : Frame} {c : CompiledFrame} {r : DebugRecord}

lemma id_of_frame? (hf : t.frame? id = some f) : f.id = id := by
  simpa using List.find?_some hf

lemma frame?_setFrame (hf : t.frame? id = some f) (hg : g.id = id) :
    (t.setFrame g).frame? id = some g := by
  have hp : (fun e : Frame => decide (e.id = id)) ∘ (fun e => if e.id = g.id then g else e) =
      fun e => decide (e.id = id) := by
    funext e
    simp only [Function.comp_apply]
    split_ifs with he
    · rw [hg, he, hg]
    · rfl
  rw [frame?, setFrame, List.find?_map, hp, show t.stack.find? _ = some f from hf, Option.map_some,
    if_pos ((id_of_frame? hf).trans hg.symm)]

lemma frame?_of_mem (ht : t.Numbered) (hf : f ∈ t.stack) : t.frame? f.id = some f := by
  cases hg : t.frame? f.id with
  | none =>
    have hne := List.find?_eq_none.1 hg f hf
    simp at hne
  | some g =>
    rw [List.inj_on_of_nodup_map ht.nodup (List.mem_of_find?_eq_some hg) hf (id_of_frame? hg)]

lemma mem_of_target {caller : Frame} (h : Unwind.target t = .ok (f, caller)) : f ∈ t.stack := by
  unfold Unwind.target at h
  split at h
  · cases h
  · cases h
  next g d fs hstack =>
    cases h
    apply (List.dropWhile_sublist (·.kind.isStub)).subset
    rw [show t.stack.dropWhile _ = _ from hstack]
    exact List.mem_cons_self

/-- A compiled frame stands on the stack of a thread that waits for nothing. -/
structure Stands (t : Thread) (id : Nat) (c : CompiledFrame) (r : DebugRecord) : Prop where
  numbered : t.Numbered
  waiting : t.waitingOn = none
  frame : ∃ f c', t.frame? id = some f ∧ f.record = .ok (c', r) ∧ c.Alike c'

lemma Stands.congr (ht : t.Stands id c r) (hstack : u.stack = t.stack)
    (hlast : u.lastFrameId = t.lastFrameId) (hwait : u.waitingOn = t.waitingOn) :
    u.Stands id c r where
  numbered := ht.numbered.sublist hlast (hstack ▸ .refl _)
  waiting := hwait.trans ht.waiting
  frame := by
    obtain ⟨f, c', hf, h⟩ := ht.frame
    refine ⟨f, c', ?_, h⟩
    rw [frame?, hstack]
    exact hf

/-- Patching the frame leaves it where it stands. -/
lemma Stands.setFrame {h h' : Histogram} {reason : Reason} {b : Bool} (ht : t.Stands id c r)
    (hf : t.frame? id = some f) (hd : f.deoptimize h reason = .ok (b, h', g)) :
    (t.setFrame g).Stands id c r ∧ g.id = id := by
  obtain ⟨f', c', hf', hrecord, halike⟩ := ht.frame
  obtain rfl : f = f' := Option.some.inj (hf.symm.trans hf')
  obtain ⟨hkeeps, c₁, hrecord₁, halike₁⟩ := Frame.deoptimize_spec hrecord hd
  have hid : f.id = id := id_of_frame? hf
  refine ⟨⟨?_, ht.waiting, g, c₁, frame?_setFrame hf (hkeeps.id.trans hid), hrecord₁, ?_⟩,
    hkeeps.id.trans hid⟩
  · exact ht.numbered.of_keeps rfl (keeps_setFrame ht.numbered (hid ▸ hf) hkeeps)
  · rw [CompiledFrame.Alike] at *
    rw [halike₁, halike]

end Thread

/-! ### The machine -/

/-- Nothing was eliminated where a record was made. -/
def DebugRecord.Bare (r : DebugRecord) : Prop :=
  r.objects = [] ∧ r.hasEliminatedMonitor = false

namespace Machine

variable {m m' : Machine} {t n id : Nat} {c : CompiledFrame} {r : DebugRecord} {u : Thread}
  {table : Restored}

/-- A machine that restores what was eliminated, on which a compiled frame stands on the stack of a
thread of id `n`. -/
structure Follows (m : Machine) (t n id : Nat) (c : CompiledFrame) (r : DebugRecord) : Prop where
  stands : (m.thread t).Stands id c r
  id : (m.thread t).id = n
  faithful : m.unpacker = .faithful
  objects : m.supply.restoresObjects = true
  locks : m.supply.config.eliminateLocks = true
  known : Restore.Known m.supply c r m.store

/-- A thread that has a frame is there. -/
lemma lt_size_of_frame? {f : Frame} (hf : (m.thread t).frame? id = some f) :
    t < m.roster.threads.size := by
  by_contra ht
  have hempty : (m.thread t).stack = [] := by
    simp [thread, Roster.thread, Nat.le_of_not_lt ht]
    rfl
  rw [Thread.frame?, hempty] at hf
  cases hf

lemma Follows.lt_size (hm : Follows m t n id c r) : t < m.roster.threads.size := by
  obtain ⟨f, c', hf, -⟩ := hm.stands.frame
  exact lt_size_of_frame? hf

lemma thread_setThread (m : Machine) (u : Thread) (ht : t < m.roster.threads.size) :
    (m.setThread t u).thread t = u :=
  Roster.thread_set_self _ _ ht

lemma Follows.setThread (hm : Follows m t n id c r) (hu : u.Stands id c r) (hid : u.id = n) :
    Follows (m.setThread t u) t n id c r where
  stands := by rwa [thread_setThread m u hm.lt_size]
  id := by rwa [thread_setThread m u hm.lt_size]
  faithful := hm.faithful
  objects := hm.objects
  locks := hm.locks
  known := hm.known

lemma Follows.withMemory (hm : Follows m t n id c r) {memory : Memory}
    (hle : m.store.objects.size ≤ memory.store.objects.size) :
    Follows { m with memory } t n id c r where
  stands := hm.stands
  id := hm.id
  faithful := hm.faithful
  objects := hm.objects
  locks := hm.locks
  known := hm.known.mono hle

lemma Follows.withHistogram (hm : Follows m t n id c r) (histogram : Histogram) :
    Follows { m with histogram } t n id c r :=
  ⟨hm.stands, hm.id, hm.faithful, hm.objects, hm.locks, hm.known⟩

lemma Follows.report (hm : Follows m t n id c r) (e : Event) : Follows (m.report e) t n id c r :=
  ⟨hm.stands, hm.id, hm.faithful, hm.objects, hm.locks, hm.known⟩

/-- What an operation leaves if it restores nothing. -/
structure Leaves (m : Machine) (t n id : Nat) (c : CompiledFrame) (r : DebugRecord)
    (m' : Machine) : Prop where
  follows : Follows m' t n id c r
  supply : m'.supply = m.supply
  memory : m'.memory = m.memory
  plan : (m'.thread t).plan = (m.thread t).plan

/-- A frame that is remembered is patched, and its objects are noted. -/
lemma remember_spec {f : Frame} {c' : CompiledFrame} {x : Scope} (hm : Follows m t n id c r)
    (hf : (m.thread t).frame? id = some f) (h : m.remember t f c' x table = .ok m') :
    Leaves m t n id c r m' ∧ (m'.thread t).restored.get? id = some table := by
  simp only [remember, bind_eq_ok, pure_eq_ok] at h
  obtain ⟨⟨b, histogram, g⟩, hd, rfl⟩ := h
  obtain ⟨hstands, hid⟩ := hm.stands.setFrame hf hd
  set v : Thread := { (m.thread t).setFrame g with
    restored := ((m.thread t).setFrame g).restored.set g.id table } with hv
  have hfollows := (hm.withHistogram histogram).setThread (u := v) (hstands.congr rfl rfl rfl) hm.id
  have hthread := thread_setThread { m with histogram } v hm.lt_size
  have hplan : v.plan = (m.thread t).plan := rfl
  have hrestored : v.restored.get? id = some table := by
    simp only [hv, hid, Table.get?_set_self]
  exact ⟨⟨hfollows.report _, rfl, rfl, (congrArg Thread.plan hthread).trans hplan⟩,
    (congrArg (fun v : Thread => v.restored.get? id) hthread).trans hrestored⟩

lemma inspected_eq_ok {t : Thread} {f : Frame} (hf : t.frame? id = some f)
    (hk : f.kind = .compiled c) : inspected t id = .ok (f, c) := by
  rw [inspected, hf]
  simp only [hk, FrameKind.compiled?]
  rfl

lemma frame?_of_inspected {v : Thread} {f : Frame} (h : inspected v id = .ok (f, c)) :
    v.frame? id = some f := by
  unfold inspected at h
  cases hf : v.frame? id with
  | none => simp [hf] at h
  | some g =>
    simp only [hf] at h
    cases hk : g.kind.compiled? with
    | none => simp [hk] at h
    | some d =>
      simp only [hk, pure_eq_ok, Prod.mk.injEq] at h
      rw [h.1]

/-- An inspection, taken apart into the steps that it took. -/
inductive Inspecting (m : Machine) (t id : Nat) : Inspection → Machine → Prop where
  /-- Something is noted for the frame already. -/
  | again (h : (m.thread t).isRestored id = true) : Inspecting m t id .restored m
  | nothing {f : Frame} {c : CompiledFrame} {r : DebugRecord}
      (hf : (m.thread t).frame? id = some f) (hrecord : f.record = .ok (c, r)) (hbare : r.Bare) :
      Inspecting m t id .nothingEliminated m
  | refused {f : Frame} {c : CompiledFrame} {r : DebugRecord} {o : Restore.Outcome} {u : Thread}
      (hunnoted : (m.thread t).isRestored id = false) (hf : (m.thread t).frame? id = some f)
      (hrecord : f.record = .ok (c, r)) (hscopes : r.scopes ≠ []) (hbare : ¬ r.Bare)
      (ho : Restore.inspect m.supply m.memory (m.thread t) none c r.scopes r.objects = .ok (o, u))
      (hfailed : o.failed = true) :
      Inspecting m t id .refused ({ m with memory := o.memory }.setThread t u)
  | restored {f : Frame} {c : CompiledFrame} {r : DebugRecord} {o : Restore.Outcome} {u : Thread}
      {m' : Machine} (hunnoted : (m.thread t).isRestored id = false)
      (hf : (m.thread t).frame? id = some f) (hrecord : f.record = .ok (c, r)) (hbare : ¬ r.Bare)
      (ho : Restore.inspect m.supply m.memory (m.thread t) none c r.scopes r.objects = .ok (o, u))
      (hfailed : o.failed = false)
      (hremember : ({ m with memory := o.memory }.setThread t u).remember t f c
        (r.scopes.headD default) o.table = .ok m') : Inspecting m t id .restored m'

theorem inspecting_of_deoptimizeObjects {i : Inspection}
    (h : m.deoptimizeObjects t id = .ok (i, m')) : Inspecting m t id i m' := by
  simp only [deoptimizeObjects] at h
  split_ifs at h with hrestored
  · cases h
    exact .again hrestored
  rw [Bool.not_eq_true] at hrestored
  simp only [bind_eq_ok, CompiledFrame.scopes, guarantee_eq_ok, pure_eq_ok] at h
  obtain ⟨⟨f, _⟩, hinspected, ⟨c, r⟩, hrecord, _, ⟨_, hscopes, rfl⟩, h⟩ := h
  have hf := frame?_of_inspected hinspected
  split_ifs at h with hbare
  · cases h
    exact .nothing hf hrecord (by simpa [DebugRecord.Bare] using hbare)
  have hbare : ¬ r.Bare := by simpa [DebugRecord.Bare] using hbare
  obtain ⟨⟨o, u⟩, ho, h⟩ := bind_eq_ok.1 h
  split_ifs at h with hfailed
  · cases h
    exact .refused hrestored hf hrecord (by simpa using hscopes) hbare ho hfailed
  · simp only [bind_eq_ok, pure_eq_ok] at h
    obtain ⟨m₁, hremember, h⟩ := h
    cases h
    exact .restored hrestored hf hrecord hbare ho (by simpa using hfailed) hremember

/-- What inspecting a frame comes to if no object is refused. -/
inductive Inspects (m : Machine) (t n id : Nat) (c : CompiledFrame) (r : DebugRecord)
    (m' : Machine) : Prop where
  /-- The frame was restored before, and is remembered. -/
  | again {table : Restored} (h : (m.thread t).restored.get? id = some table) (hm : m' = m)
  | nothing (hr : r.Bare) (hm : m' = m)
  | first {table : Restored} (h : (m.thread t).restored.get? id = none) (hr : ¬ r.Bare)
      (hrestores : Restore.Restores m.supply n c r table m.memory m'.memory)
      (hfollows : Follows m' t n id c r) (hsupply : m'.supply = m.supply)
      (hrestored : (m'.thread t).restored.get? id = some table)
      (hplan : (m'.thread t).plan = (m.thread t).plan)

theorem deoptimizeObjects_spec {i : Inspection} (hm : Follows m t n id c r)
    (h : m.deoptimizeObjects t id = .ok (i, m')) (hi : i ≠ .refused) :
    Inspects m t n id c r m' := by
  obtain ⟨f, c', hf, hrecord, halike⟩ := hm.stands.frame
  have hsame : ∀ {f₁ c₁ r₁}, (m.thread t).frame? id = some f₁ → f₁.record = .ok (c₁, r₁) →
      f = f₁ ∧ c' = c₁ ∧ r = r₁ := by
    intro f₁ c₁ r₁ hf₁ hrecord₁
    obtain rfl := Option.some.inj (hf.symm.trans hf₁)
    exact ⟨rfl, by simpa using hrecord.symm.trans hrecord₁⟩
  cases inspecting_of_deoptimizeObjects h with
  | again hrestored =>
    obtain ⟨table, htable⟩ := Option.isSome_iff_exists.1 hrestored
    exact .again htable rfl
  | nothing hf₁ hrecord₁ hbare =>
    obtain ⟨rfl, rfl, rfl⟩ := hsame hf₁ hrecord₁
    exact .nothing hbare rfl
  | refused => exact absurd rfl hi
  | @restored _ _ _ o u _ hunnoted hf₁ hrecord₁ hbare ho hfailed hremember =>
    obtain ⟨rfl, rfl, rfl⟩ := hsame hf₁ hrecord₁
    have hnone : (m.thread t).restored.get? id = none := by
      simpa [Thread.isRestored, Table.contains] using hunnoted
    have hknown := (Restore.known_congr halike).2 hm.known
    obtain ⟨rfl, hrestores⟩ := Restore.restores_of_inspect hm.objects hm.locks hknown
      hm.stands.waiting ho hfailed
    rw [Restore.restores_congr halike, hm.id] at hrestores
    have hthread := thread_setThread { m with memory := o.memory } (m.thread t) hm.lt_size
    obtain ⟨hleaves, hrestored'⟩ := remember_spec
      ((hm.withMemory hrestores.size_le).setThread hm.stands hm.id)
      ((congrArg (fun v : Thread => v.frame? id) hthread).trans hf) hremember
    refine .first hnone hbare (hleaves.memory ▸ hrestores) hleaves.follows hleaves.supply
      hrestored' ?_
    rw [hleaves.plan, hthread]

theorem deoptimizeFrame_spec {reason : Reason} {b : Bool} (hm : Follows m t n id c r)
    (h : m.deoptimizeFrame t id reason = .ok (b, m')) :
    Leaves m t n id c r m' ∧ (m'.thread t).restored = (m.thread t).restored := by
  obtain ⟨f, -, hf, -⟩ := hm.stands.frame
  simp only [deoptimizeFrame, hf, bind_eq_ok] at h
  obtain ⟨⟨changed, histogram, g⟩, hd, h⟩ := h
  obtain ⟨hstands, hid⟩ := hm.stands.setFrame hf hd
  have hfollows := (hm.withHistogram histogram).setThread hstands hm.id
  have hthread := thread_setThread { m with histogram } ((m.thread t).setFrame g) hm.lt_size
  have hplan : ((m.thread t).setFrame g).plan = (m.thread t).plan := rfl
  have hrestored : ((m.thread t).setFrame g).restored = (m.thread t).restored := rfl
  split_ifs at h
  · cases h
    exact ⟨⟨hfollows.report _, rfl, rfl, (congrArg Thread.plan hthread).trans hplan⟩,
      (congrArg Thread.restored hthread).trans hrestored⟩
  · cases h
    exact ⟨⟨hfollows, rfl, rfl, (congrArg Thread.plan hthread).trans hplan⟩,
      (congrArg Thread.restored hthread).trans hrestored⟩

/-- What planning for a frame comes to if no object is refused: what was restored for an inspector
is used, and else everything is restored now. -/
structure Plans (m : Machine) (t n id : Nat) (c : CompiledFrame) (r : DebugRecord)
    (m' : Machine) : Prop where
  before : (m.thread t).plan = none
  follows : Follows m' t n id c r
  supply : m'.supply = m.supply
  plan : ∃ p, (m'.thread t).plan = some p ∧ p.deoptee = id
  restored : (m'.thread t).restored.get? id = none
  memory : ((m.thread t).restored.get? id).isSome = true ∧ m'.memory = m.memory ∨
    (m.thread t).restored.get? id = none ∧
      ∃ table, Restore.Restores m.supply n c r table m.memory m'.memory

/-- What restoring comes to when a frame is planned for and no object is refused. -/
lemma recover_spec {mode : Mode} {c' : CompiledFrame} {got : Unwind.Recovery}
    (hm : Follows m t n id c r) (halike : c.Alike c')
    (h : Unwind.recover m.supply m.memory (m.thread t).enterHandler mode id c' r = .ok got)
    (hf : got.failed = false) :
    got.thread = { (m.thread t).enterHandler with restored := got.thread.restored } ∧
      got.thread.restored.get? id = none ∧
      (((m.thread t).restored.get? id).isSome = true ∧ got.memory = m.memory ∨
        (m.thread t).restored.get? id = none ∧
          ∃ table, Restore.Restores m.supply n c r table m.memory got.memory) := by
  cases hr : (m.thread t).restored.get? id with
  | some table =>
    obtain rfl := Except.ok.inj (h.symm.trans (Unwind.recover_of_restored hr))
    refine ⟨rfl, ?_, .inl ⟨rfl, rfl⟩⟩
    simp [Table.get?_erase]
  | none =>
    have hknown := (Restore.known_congr halike).2 hm.known
    obtain ⟨hthread, hrestores⟩ := Unwind.restores_of_recover
      (t := (m.thread t).enterHandler) hm.objects hm.locks hknown hm.stands.waiting hr h hf
    rw [Restore.restores_congr halike] at hrestores
    refine ⟨by rw [hthread], by rw [hthread]; exact hr, .inr ⟨rfl, got.table, ?_⟩⟩
    rw [← hm.id]
    exact hrestores

theorem fetch_spec {mode : Mode} {l : Layout} {frame caller : Frame} (hm : Follows m t n id c r)
    (htarget : Unwind.target (m.thread t) = .ok (frame, caller)) (hid : frame.id = id)
    (h : m.fetch t mode = .ok (l, m'))
    (hf : ∀ p, (m'.thread t).plan = some p → p.failed = false) : Plans m t n id c r m' := by
  obtain ⟨f, c', hframe, hrecord, halike⟩ := hm.stands.frame
  simp only [fetch, bind_eq_ok, pure_eq_ok] at h
  obtain ⟨⟨l, memory, u⟩, h, hm'⟩ := h
  cases hm'
  have hthread : Machine.thread _ t = u := thread_setThread { m with memory } u hm.lt_size
  obtain rfl : frame = f := by
    have hmem := Thread.frame?_of_mem hm.stands.numbered (Thread.mem_of_target htarget)
    rw [hid, hframe] at hmem
    exact (Option.some.inj hmem).symm
  obtain ⟨got, thrown, v, w, hfetched⟩ := Unwind.fetch_spec_of_target htarget hrecord h
  obtain ⟨p, hp, hfailed, hdeoptee⟩ := hfetched.thread
  have hplan : u.plan = some p := by rw [hp]
  have hgot : got.failed = false :=
    hfailed.symm.trans (hf p ((congrArg Thread.plan hthread).trans hplan))
  obtain ⟨rfl, rfl, hu⟩ := hfetched.thread_eq hgot
  have hrecover := hfetched.recover
  rw [hid] at hrecover
  obtain ⟨hv, hrestored, hmemory⟩ := recover_spec hm halike hrecover hgot
  have hbefore := hfetched.plan
  rw [hv] at hu hbefore
  have hle : m.store.objects.size ≤ got.memory.store.objects.size := by
    rcases hmemory with ⟨-, hmemory⟩ | ⟨-, table, hrestores⟩
    · rw [hmemory]
      exact Nat.le_refl _
    · exact hrestores.size_le
  have hstands : u.Stands id c r := hm.stands.congr (by rw [hu]; rfl) (by rw [hu]; rfl)
    (by rw [hu]; rfl)
  have hn : u.id = n := by
    rw [hu]
    exact hm.id
  refine ⟨hbefore, ((hm.withMemory hle).setThread hstands hn).report _, rfl,
    ⟨p, (congrArg Thread.plan hthread).trans hplan, hdeoptee.trans hid⟩, ?_, hmemory⟩
  refine (congrArg (fun v : Thread => v.restored.get? id) hthread).trans ?_
  rw [hu]
  exact hrestored

theorem unpack_spec {mode : Mode} {ty : BasicType} {p : Plan} (hm : Follows m t n id c r)
    (hp : (m.thread t).plan = some p) (hid : p.deoptee = id) (h : m.unpack t mode = .ok (ty, m')) :
    m'.unpacker = .faithful ∧ m'.supply = m.supply ∧ m'.memory = m.memory ∧
      (m'.thread t).frame? id = none := by
  simp only [unpack, hm.faithful, bind_eq_ok, pure_eq_ok] at h
  obtain ⟨⟨ty', u⟩, hunpack, h⟩ := h
  cases h
  obtain ⟨p', v, hp', hv, rfl⟩ := Unwind.unpack_spec hunpack
  obtain rfl : p = p' := Option.some.inj (hp.symm.trans hp')
  have hthread := thread_setThread m (Unwind.retired v) hm.lt_size
  refine ⟨hm.faithful, rfl, rfl, (congrArg (fun u : Thread => u.frame? id) hthread).trans ?_⟩
  rw [Thread.frame?, List.find?_eq_none]
  intro f hf
  have hne := Unwind.ne_of_mem_replace hm.stands.numbered hv f hf
  rw [hid] at hne
  simpa using hne

/-! ### A frame that is gone -/

lemma deoptimizeObjects_of_gone {i : Inspection} (hf : (m.thread t).frame? id = none)
    (h : m.deoptimizeObjects t id = .ok (i, m')) : m' = m := by
  simp only [deoptimizeObjects] at h
  split_ifs at h
  · cases h
    rfl
  · simp [inspected, hf] at h

lemma deoptimizeFrame_of_gone {reason : Reason} {b : Bool} (hf : (m.thread t).frame? id = none)
    (h : m.deoptimizeFrame t id reason = .ok (b, m')) : m' = m := by
  simp only [deoptimizeFrame, hf] at h
  cases h
  rfl

lemma target_ne_of_gone {frame caller : Frame} (hf : (m.thread t).frame? id = none)
    (h : Unwind.target (m.thread t) = .ok (frame, caller)) : frame.id ≠ id := by
  have hne := List.find?_eq_none.1 hf frame (Thread.mem_of_target h)
  simpa using hne

lemma deoptee_ne_of_gone {mode : Mode} {ty : BasicType} {p : Plan} (hu : m.unpacker = .faithful)
    (hf : (m.thread t).frame? id = none) (hp : (m.thread t).plan = some p)
    (h : m.unpack t mode = .ok (ty, m')) : p.deoptee ≠ id := by
  simp only [unpack, hu, bind_eq_ok] at h
  obtain ⟨⟨ty', u⟩, hunpack, -⟩ := h
  obtain ⟨p', v, hp', hv, -⟩ := Unwind.unpack_spec hunpack
  obtain rfl : p = p' := Option.some.inj (hp.symm.trans hp')
  simp only [Unwind.Unpacker.run, Unwind.replace, bind_eq_ok] at hv
  obtain ⟨w, hw, -⟩ := hv
  obtain ⟨stubs, f, hstack, hid, -⟩ := Unwind.dropDeoptee_spec hw
  have hne := List.find?_eq_none.1 hf f (by simp [hstack])
  rw [← hid]
  simpa using hne

end Machine
end Bailout
