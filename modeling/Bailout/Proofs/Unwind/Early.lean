import Bailout.Proofs.Machine.Operations
import Bailout.Proofs.Restore.Reads

/-!
# Planning for a frame that is ready

A frame may be patched, and its objects may be restored, before it is planned for. Planning reads
nothing of a frame that patching changes, and of the stack nothing but the frame and its caller; and
what an inspector has had restored is what planning restores itself, in whichever mode, as long as
no object is refused and no relock is put off.
-/

namespace Bailout

/-! ### Patched frames -/

namespace Restore

variable {s : Supply} {m : Memory} {pending : Option Thrown} {mode : Mode} {failed : Bool}
  {c c' : CompiledFrame} {pc : Option Nat} {table : Restored} {d : Description}

lemma filledBody_held (b : Body) :
    filledBody { c with heldPc := pc } table d b = filledBody c table d b := by
  have hresolve : ∀ x, ({ c with heldPc := pc } : CompiledFrame).resolve table x =
      c.resolve table x := fun _ => rfl
  unfold filledBody
  cases d.klass with
  | primitiveArray ty box => simp only [primitiveElements_congr fun x => congrArg _ (hresolve x)]
  | referenceArray name box => rfl
  | base | derived => simp only [assignments_congr hresolve]

/-- Restoring the objects of a frame does not depend on whether the frame is patched. -/
theorem objectsIfEnabled_alike (h : c.Alike c') (ds : List Description) :
    objectsIfEnabled s m pending mode c' ds = objectsIfEnabled s m pending mode c ds := by
  rw [h]
  have hfill : ∀ table store, fill { c with heldPc := c'.heldPc } table store ds =
      fill c table store ds := by
    intro table store
    have hone : fillOne { c with heldPc := c'.heldPc } table = fillOne c table := by
      funext store d
      simp only [fillOne, filledBody_held]
    rw [fill, hone, fill]
  unfold objectsIfEnabled objects
  simp only [hfill]
  rfl

theorem relockAll_alike (h : c.Alike c') (ss : List Scope) (st : Store × Thread) :
    relockAll c' table mode failed st ss = relockAll c table mode failed st ss := by
  rw [h]
  induction ss generalizing st with
  | nil => rfl
  | cons s ss ih =>
    simp only [relockAll, ih]
    rfl

end Restore

/-! ### Other stacks -/

/-- The thread with another stack. -/
def Thread.withStack (t : Thread) (stack : List Frame) : Thread := { t with stack }

namespace Restore

variable {c : CompiledFrame} {table : Restored} {mode : Mode} {failed : Bool}

/-- What relocking is about does not include the stack of the thread. -/
lemma relockOne_withStack (stack : List Frame) (st : Store × Thread) (g : Guard) :
    relockOne mode failed (st.1, st.2.withStack stack) g =
      (fun x => (x.1, x.2.withStack stack)) <$> relockOne mode failed st g := by
  unfold relockOne
  split_ifs
  · cases failed <;> rfl
  · cases g.owner with
    | none => rfl
    | some r =>
      simp only [enterFor]
      split_ifs with hput hput'
      · rfl
      · exact absurd hput hput'
      · next hput' => exact absurd hput' hput
      · rw [map_bind]
        rfl
  · rfl

lemma relockAll_withStack (stack : List Frame) (ss : List Scope) (st : Store × Thread) :
    relockAll c table mode failed (st.1, st.2.withStack stack) ss =
      (fun x => (x.1, x.2.1, x.2.2.withStack stack)) <$>
        relockAll c table mode failed st ss := by
  induction ss generalizing st with
  | nil => rfl
  | cons s ss ih =>
    simp only [relockAll, relock, map_bind, bind_assoc, pure_bind]
    refine congrArg _ (funext fun gs => ?_)
    rw [foldlM_map_state (fun st : Store × Thread => (st.1, st.2.withStack stack))
      (relockOne_withStack stack) gs st, bind_map_left]
    refine congrArg _ (funext fun st₁ => ?_)
    rw [ih, bind_map_left]
    rfl

end Restore

namespace Unwind

variable {s : Restore.Supply} {m : Memory} {t : Thread} {mode : Mode} {id : Nat}
  {c c' : CompiledFrame} {r : DebugRecord} {failed : Bool}

theorem recover_alike (h : c.Alike c') :
    recover s m t mode id c' r = recover s m t mode id c r := by
  unfold recover
  simp only [Restore.objectsIfEnabled_alike h, Restore.relockAll_alike h]

/-- The recovery of a thread with another stack. -/
def Recovery.withStack (got : Recovery) (stack : List Frame) : Recovery :=
  { got with thread := got.thread.withStack stack }

theorem recover_withStack (stack : List Frame) :
    recover s m (t.withStack stack) mode id c r =
      (Recovery.withStack · stack) <$> recover s m t mode id c r := by
  unfold recover
  cases ht : t.restored.get? id with
  | some table =>
    simp only [Thread.withStack, ht]
    rfl
  | none =>
    simp only [Thread.withStack, ht, map_bind]
    refine congrArg _ (funext fun o => ?_)
    split_ifs
    · rw [map_bind]
      have hrelock : Restore.relockAll c o.table mode o.failed
          (o.memory.store, { t with stack, pending := o.pending }) r.scopes.reverse = _ :=
        Restore.relockAll_withStack stack r.scopes.reverse
          (o.memory.store, { t with pending := o.pending })
      rw [hrelock, bind_map_left]
      rfl
    · rfl

/-! ### Restored early -/

/-- What objects are restored to does not depend on the mode. -/
lemma objectsIfEnabled_mode {pending : Option Thrown} {ds : List Description}
    {o : Restore.Outcome} (h : Restore.objectsIfEnabled s m pending mode c ds = .ok o)
    (pending' : Option Thrown) (mode' : Mode) :
    ∃ o', Restore.objectsIfEnabled s m pending' mode' c ds = .ok o' ∧ o'.memory = o.memory ∧
      o'.table = o.table ∧ o'.failed = o.failed ∧ (o.failed = false → o'.pending = pending') := by
  unfold Restore.objectsIfEnabled Restore.objects at *
  split_ifs at h ⊢
  · cases h
    exact ⟨_, rfl, rfl, rfl, rfl, fun _ => rfl⟩
  · simp only [bind_eq_ok, pure_eq_ok] at h
    obtain ⟨p, hp, store, hstore, rfl⟩ := h
    rw [hp, ok_bind, hstore, ok_bind]
    refine ⟨_, rfl, rfl, rfl, rfl, fun hf => ?_⟩
    have hf : p.failed = false := hf
    rw [hf]
    rfl
  · cases h
    exact ⟨_, rfl, rfl, rfl, rfl, fun _ => rfl⟩

/-- Nothing stands in the way of restoring a frame at once: no object is refused, and the thread
waits in no monitor that is entered for the frame. -/
def Unhindered (s : Restore.Supply) (m : Memory) (t : Thread) (c : CompiledFrame)
    (r : DebugRecord) : Prop :=
  ∀ o, Restore.objectsIfEnabled s m none .inspect c r.objects = .ok o →
    o.failed = false ∧ ∀ q ∈ c.owners o.table r, t.isWaitingOn q = false

/-- What an inspector has had restored is what planning would have restored. -/
theorem recover_of_inspect {w u : Thread} {o : Restore.Outcome} (hfree : Unhindered s m t c r)
    (hid : w.id = t.id) (hwait : w.waitingOn = t.waitingOn) (hr : w.restored.get? id = none)
    (h : Restore.inspect s m t none c r.scopes r.objects = .ok (o, u)) :
    o.failed = false ∧ u = t ∧
      ∀ mode, recover s m w mode id c r = .ok ⟨o.memory, w, o.table, false⟩ := by
  simp only [Restore.inspect, bind_eq_ok] at h
  obtain ⟨o₁, ho₁, h⟩ := h
  obtain ⟨hf, howners⟩ := hfree o₁ ho₁
  have hobjects := objectsIfEnabled_mode ho₁ w.pending
  have hwaiting : ∀ q, w.isWaitingOn q = t.isWaitingOn q := by
    intro q
    rw [Thread.isWaitingOn, hwait, Thread.isWaitingOn]
  simp only [hf, Bool.not_false, Bool.and_true] at h
  split_ifs at h with hl
  · obtain ⟨⟨b, store, v⟩, hrelock, h⟩ := bind_eq_ok.1 h
    cases h
    have hcongr : ∀ mode, v = t ∧ Restore.relockAll c o₁.table mode false
        (o₁.memory.store, w) r.scopes.reverse = .ok (b, store, w) := by
      intro mode
      refine Restore.relockAll_congr hid ?_ hrelock
      intro rs hrs
      obtain rfl := CompiledFrame.owners_of_eliminatedOwners hrs
      exact ⟨fun _ => howners, fun _ q hq => (hwaiting q).trans (howners q hq)⟩
    refine ⟨rfl, (hcongr .plain).1, fun mode => ?_⟩
    obtain ⟨o', ho', hmemory, htable, hf', hpending⟩ := hobjects mode
    simp only [recover, hr, ho', ok_bind, hl, if_true, hmemory, htable, hf', hf, hpending hf,
      (hcongr mode).2]
    rfl
  · cases h
    refine ⟨hf, rfl, fun mode => ?_⟩
    obtain ⟨o', ho', hmemory, htable, hf', hpending⟩ := hobjects mode
    simp only [recover, hr, ho', ok_bind, hl, hmemory, htable, hf', hf, hpending hf]
    rfl

/-- What planning restores can be restored for an inspector. -/
theorem exists_inspect_of_recover {w : Thread} {got : Recovery} (hfree : Unhindered s m t c r)
    (hid : w.id = t.id) (hwait : w.waitingOn = t.waitingOn) (hr : w.restored.get? id = none)
    (h : recover s m w mode id c r = .ok got) :
    ∃ x, Restore.inspect s m t none c r.scopes r.objects = .ok x := by
  simp only [recover, hr, bind_eq_ok] at h
  obtain ⟨o, ho, h⟩ := h
  obtain ⟨o₁, ho₁, hmemory, htable, -⟩ := objectsIfEnabled_mode ho none .inspect
  obtain ⟨o₂, ho₂, -, -, hf₂, hpending⟩ := objectsIfEnabled_mode ho₁ w.pending mode
  obtain rfl := Except.ok.inj (ho.symm.trans ho₂)
  obtain ⟨hf, howners⟩ := hfree o₁ ho₁
  simp only [Restore.inspect, ho₁, ok_bind, hf, Bool.not_false, Bool.and_true]
  split_ifs at h ⊢
  · obtain ⟨x, hrelock, -⟩ := bind_eq_ok.1 h
    rw [hpending hf, hf₂, hf, ← hmemory, ← htable] at hrelock
    obtain ⟨-, hinspect⟩ : x.2.2 = w ∧ Restore.relockAll c o₁.table .inspect false
        (o₁.memory.store, t) r.scopes.reverse = .ok (x.1, x.2.1, t) := by
      refine Restore.relockAll_congr hid.symm ?_ hrelock
      intro rs hrs
      obtain rfl := CompiledFrame.owners_of_eliminatedOwners hrs
      refine ⟨fun _ q hq => ?_, fun _ => howners⟩
      rw [Thread.isWaitingOn, hwait]
      exact howners q hq
    rw [hinspect]
    exact ⟨_, rfl⟩
  · exact ⟨_, rfl⟩

/-! ### After recovery -/

variable {frame caller g : Frame}

/-- What planning makes of a frame once it is restored. -/
def settle (frame caller : Frame) (c : CompiledFrame) (r : DebugRecord) (saved : Option Ref)
    (mode : Mode) (got : Recovery) : Checked (Layout × Memory × Thread) := do
  let thrown ← rethrown c got.table r (r.scopes.headD default)
  let packed ← r.scopes.mapM (Packed.ofScope c got.table)
  let (store, t, packed) ← abandon got.failed got.memory.store got.thread packed
  guarantee t.plan.isNone (.planPending t.name)
  let sizes ← Packed.sizes (extraWords t) packed
  let (t, mode) ← raise t mode thrown
  let l ← layout caller frame c saved mode (packed.headD default)
    (packed.getLastD default).method sizes
  let plan : Plan :=
    { owner := t.id, deoptee := frame.id, pc := frame.logicalPc, sp := frame.sp
      callerSp := frame.callerSp, frames := packed, failed := got.failed, layout := l }
  return (l, { got.memory with store }, { t with plan := some plan })

/-- Planning finds a frame, restores it, and settles the rest. -/
lemma fetch_eq_settle (htarget : target t = .ok (frame, caller))
    (hrecord : frame.record = .ok (c, r)) :
    fetch s m t mode = c.scopes r >>= fun _ =>
      recover s m t.enterHandler mode frame.id c r >>=
        settle frame caller c r (savedResult t mode c r) mode := by
  have htarget' : target t.enterHandler = .ok (frame, caller) := htarget
  simp only [fetch, htarget', hrecord, ok_bind, CompiledFrame.scopes, bind_assoc, pure_bind]
  rfl

lemma abandon_withStack (failed : Bool) (store : Store) (stack : List Frame)
    (ps : List Packed) : abandon failed store (t.withStack stack) ps =
      (fun x => (x.1, x.2.1.withStack stack, x.2.2)) <$> abandon failed store t ps := by
  cases failed with
  | false => rfl
  | true =>
    simp only [abandon, if_true, map_bind]
    rfl

lemma raise_withStack (stack : List Frame) (thrown : Option Thrown) :
    raise (t.withStack stack) mode thrown =
      (fun x => (x.1.withStack stack, x.2)) <$> raise t mode thrown := by
  unfold raise
  cases thrown <;> simp only [Thread.withStack] <;> split_ifs <;> simp

/-- A frame that stands where another one does, in the same code, patched or not. -/
structure Resembles (frame : Frame) (c : CompiledFrame) (r : DebugRecord) (g : Frame)
    (c' : CompiledFrame) : Prop where
  id : g.id = frame.id
  sp : g.sp = frame.sp
  words : g.words = frame.words
  logicalPc : g.logicalPc = frame.logicalPc
  record : g.record = .ok (c', r)
  alike : c.Alike c'

/-- What planning settles depends neither on whether the frame is patched nor on the rest of the
stack. -/
theorem settle_withStack (hg : Resembles frame c r g c') (saved : Option Ref) (got : Recovery)
    (stack : List Frame) :
    settle g caller c' r saved mode (got.withStack stack) =
      (fun x => (x.1, x.2.1, x.2.2.withStack stack)) <$>
        settle frame caller c r saved mode got := by
  have hthrown : ∀ x, rethrown c' got.table r x = rethrown c got.table r x := by
    intro x
    rw [hg.alike]
    rfl
  have hpacked : Packed.ofScope c' got.table = Packed.ofScope c got.table := by
    rw [hg.alike]
    rfl
  have hlayout : ∀ mode p n sizes,
      layout caller g c' saved mode p n sizes = layout caller frame c saved mode p n sizes := by
    intro mode p n sizes
    rw [layout, hg.words, hg.alike]
    rfl
  have hcallerSp : g.callerSp = frame.callerSp := by
    rw [Frame.callerSp, hg.sp, hg.words]
    rfl
  simp only [settle, Recovery.withStack, hthrown, hpacked, hlayout, hcallerSp, hg.id, hg.sp,
    hg.logicalPc, abandon_withStack, raise_withStack, map_bind, bind_map_left]
  rfl

end Unwind
end Bailout
