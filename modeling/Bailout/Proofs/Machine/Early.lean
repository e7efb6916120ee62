import Mathlib.Data.List.TakeWhile
import Bailout.Proofs.Machine.Once
import Bailout.Proofs.Unwind.Early

/-!
# Preparing a frame

A frame that is going to be planned for can be inspected and patched before that, in any order and
any number of times. Unless an object is refused, or the thread waits in a monitor that is to be
entered, that changes nothing: the plan, the memory with its monitors, the exceptions of the thread
and the mode are what they would have been if the frame had been planned for at once.
-/

namespace Bailout

/-! ### Finding the frame -/

namespace Unwind

variable {t : Thread} {frame caller : Frame}

lemma target_eq_ok : target t = .ok (frame, caller) ↔
    ∃ stubs below, t.stack = stubs ++ frame :: caller :: below ∧
      (∀ f ∈ stubs, f.kind.isStub = true) ∧ frame.kind.isStub = false := by
  simp only [target, Thread.dropStubs]
  constructor
  · intro h
    have hsplit : t.stack.takeWhile (·.kind.isStub) ++ t.stack.dropWhile (·.kind.isStub) =
        t.stack := List.takeWhile_append_dropWhile
    cases hd : t.stack.dropWhile (·.kind.isStub) with
    | nil =>
      rw [hd] at h
      cases h
    | cons f fs =>
      cases fs with
      | nil =>
        rw [hd] at h
        cases h
      | cons d ds =>
        rw [hd] at h hsplit
        cases h
        refine ⟨_, ds, hsplit.symm, fun f hf => by simpa using List.mem_takeWhile_imp hf, ?_⟩
        have hhead := List.head_dropWhile_not (fun f : Frame => f.kind.isStub)
          (l := t.stack) (by simp [hd])
        simpa [hd] using hhead
  · rintro ⟨stubs, below, hstack, hstubs, hframe⟩
    rw [hstack, List.dropWhile_append_of_pos hstubs, List.dropWhile_cons_of_neg (by simp [hframe])]
    rfl

end Unwind

namespace Thread

variable {t : Thread} {f g : Frame} {stubs below : List Frame}

/-- Putting a frame in the place of the one with the same id concerns no other frame. -/
lemma stack_setFrame (ht : t.Numbered) (hstack : t.stack = stubs ++ f :: below)
    (hg : g.id = f.id) : (t.setFrame g).stack = stubs ++ g :: below := by
  have hids := ht.ids
  rw [hstack, List.map_append, List.map_cons, List.pairwise_append, List.pairwise_cons] at hids
  obtain ⟨-, ⟨hbelow, -⟩, hstubs⟩ := hids
  have hmap : ∀ fs : List Frame, (∀ e ∈ fs, e.id ≠ g.id) →
      fs.map (fun e => if e.id = g.id then g else e) = fs := by
    intro fs hfs
    exact (List.map_congr_left fun e he => if_neg (hfs e he)).trans (List.map_id' fs)
  rw [setFrame, hstack, List.map_append, List.map_cons, if_pos hg.symm, hmap stubs, hmap below]
  · intro e he
    rw [hg]
    exact Nat.ne_of_lt (hbelow e.id (List.mem_map_of_mem he))
  · intro e he
    rw [hg]
    exact Nat.ne_of_gt (hstubs e.id (List.mem_map_of_mem he) f.id List.mem_cons_self)

end Thread

/-! ### Patching the frame -/

namespace Frame

variable {frame g g' : Frame} {c c' : CompiledFrame} {r : DebugRecord} {h h' : Histogram}
  {reason : Reason} {b : Bool}

/-- A frame that resembles another one still does when it is patched. -/
lemma resembles_deoptimize (hg : Unwind.Resembles frame c r g c')
    (h : g.deoptimize h reason = .ok (b, h', g')) :
    g'.id = g.id ∧ ∃ c'', Unwind.Resembles frame c r g' c'' := by
  obtain ⟨hkeeps, c'', hrecord, halike⟩ := deoptimize_spec hg.record h
  have hplace : g'.sp = g.sp ∧ g'.words = g.words := by
    simp only [deoptimize, (record_eq_ok.1 hg.record).1, FrameKind.compiled?] at h
    split_ifs at h
    · cases h
      exact ⟨rfl, rfl⟩
    · simp only [bind_eq_ok, pure_eq_ok] at h
      obtain ⟨⟨b', g₁⟩, hpatch, h⟩ := h
      cases h
      rcases patch_cases hpatch with ⟨rfl, -⟩ | ⟨c₁, handler, -, -, -, rfl⟩ <;> exact ⟨rfl, rfl⟩
  refine ⟨hkeeps.id, c'', hkeeps.id.trans hg.id, hplace.1.trans hg.sp, hplace.2.trans hg.words,
    hkeeps.logicalPc.trans hg.logicalPc, hrecord, ?_⟩
  have := hg.alike
  rw [CompiledFrame.Alike] at *
  rw [halike, this]

/-- The handler of code that has one lies where an address can point to. -/
lemma exists_deoptimize (hg : g.record = .ok (c, r))
    (hhandler : c.region.handlerOffset ≤ c.region.size) (h : Histogram) (reason : Reason) :
    ∃ x, g.deoptimize h reason = .ok x := by
  obtain ⟨hkind, hcontains, -⟩ := record_eq_ok.1 hg
  obtain ⟨handler, hpc⟩ : ∃ handler, c.region.handler = .ok handler := by
    unfold Region.contains at hcontains
    split_ifs at hcontains
    · simp only [bind_eq_ok, checkedAdd_eq_ok] at hcontains
      obtain ⟨stop, ⟨hlimit, -⟩, -⟩ := hcontains
      exact ⟨_, checkedAdd_eq_ok.2 ⟨by omega, rfl⟩⟩
    · cases hcontains
  simp only [deoptimize, hkind, FrameKind.compiled?]
  split_ifs with hheld
  · exact ⟨_, rfl⟩
  · have hnone : c.heldPc = none := by simpa using hheld
    simp only [patch, hkind, hnone, hpc, ok_bind]
    exact ⟨_, rfl⟩

end Frame

/-! ### Preparing the frame -/

namespace Machine

/-- What can be done to a frame before it is planned for. -/
inductive Preparation where
  | inspect
  | patch (reason : Reason)
  deriving DecidableEq, Repr

/-- Inspect or patch a frame of a thread. -/
def prepareOne (t id : Nat) (m : Machine) : Preparation → Checked Machine
  | .inspect => do return (← m.deoptimizeObjects t id).2
  | .patch reason => do return (← m.deoptimizeFrame t id reason).2

def prepare (m : Machine) (t id : Nat) (ps : List Preparation) : Checked Machine :=
  ps.foldlM (prepareOne t id) m

/-- The frame of a thread that is to be planned for, below stubs and above its caller. -/
structure Readies (m : Machine) (t : Nat) (stubs : List Frame) (frame : Frame)
    (below : List Frame) (c : CompiledFrame) (r : DebugRecord) : Prop where
  numbered : (m.thread t).Numbered
  stack : (m.thread t).stack = stubs ++ frame :: below
  record : frame.record = .ok (c, r)
  handler : c.region.handlerOffset ≤ c.region.size
  free : Unwind.Unhindered m.supply m.memory (m.thread t) c r

/-- What preparing a frame has come to so far: the frame may be patched, and what planning would
restore may be restored and noted. -/
structure Prepared (m : Machine) (t : Nat) (stubs : List Frame) (frame : Frame)
    (below : List Frame) (c : CompiledFrame) (r : DebugRecord) (m₁ : Machine) : Prop where
  supply : m₁.supply = m.supply
  others : ∀ i, i ≠ t → m₁.thread i = m.thread i
  stack : ∃ g c', Unwind.Resembles frame c r g c' ∧ (m₁.thread t).stack = stubs ++ g :: below
  thread : m₁.thread t =
    { m.thread t with stack := (m₁.thread t).stack, restored := (m₁.thread t).restored }
  restored : (m₁.thread t).restored = (m.thread t).restored ∧ m₁.memory = m.memory ∨
    ∃ table, (m.thread t).restored.get? frame.id = none ∧
      (m₁.thread t).restored = (m.thread t).restored.set frame.id table ∧
      ∀ mode, Unwind.recover m.supply m.memory (m.thread t).enterHandler mode frame.id c r =
        .ok ⟨m₁.memory, (m.thread t).enterHandler, table, false⟩

variable {m m₁ m₂ : Machine} {t : Nat} {stubs below : List Frame} {frame : Frame}
  {c : CompiledFrame} {r : DebugRecord}

/-- Remembering what was restored for a frame concerns its thread and no memory. -/
lemma exists_deoptimize_of_remember {g : Frame} {x : Scope} {table : Restored}
    (ht : t < m₁.roster.threads.size) (h : m₁.remember t g c x table = .ok m₂) :
    ∃ b histogram g', g.deoptimize m₁.histogram .constraint = .ok (b, histogram, g') ∧
      m₂.supply = m₁.supply ∧ m₂.memory = m₁.memory ∧
      (∀ i, i ≠ t → m₂.thread i = m₁.thread i) ∧
      m₂.thread t = { (m₁.thread t).setFrame g' with
        restored := (m₁.thread t).restored.set g'.id table } := by
  simp only [remember, bind_eq_ok, pure_eq_ok] at h
  obtain ⟨⟨b, histogram, g'⟩, hd, rfl⟩ := h
  exact ⟨b, histogram, g', hd, rfl, rfl, fun i hi => Roster.thread_set_of_ne _ _ hi,
    thread_setThread { m₁ with histogram } _ ht⟩

namespace Prepared

lemma start (hm : m.Readies t stubs frame below c r) :
    Prepared m t stubs frame below c r m where
  supply := rfl
  others _ _ := rfl
  stack := ⟨frame, c, ⟨rfl, rfl, rfl, rfl, hm.record, rfl⟩, hm.stack⟩
  thread := rfl
  restored := .inl ⟨rfl, rfl⟩

lemma numbered (hm : m.Readies t stubs frame below c r)
    (hp : Prepared m t stubs frame below c r m₁) : (m₁.thread t).Numbered := by
  obtain ⟨g, c', hg, hstack⟩ := hp.stack
  have hids : (m₁.thread t).stack.map Frame.id = (m.thread t).stack.map Frame.id := by
    rw [hstack, hm.stack]
    simp [hg.id]
  constructor
  · rw [hids]
    exact hm.numbered.ids
  · intro f hf
    obtain ⟨e, he, hid⟩ := List.mem_map.1 (hids ▸ List.mem_map_of_mem hf)
    rw [← hid, hp.thread]
    exact hm.numbered.last e he

/-- The frame is still on the stack, patched or not. -/
lemma exists_frame (hm : m.Readies t stubs frame below c r)
    (hp : Prepared m t stubs frame below c r m₁) :
    ∃ g c', Unwind.Resembles frame c r g c' ∧ (m₁.thread t).stack = stubs ++ g :: below ∧
      (m₁.thread t).frame? frame.id = some g := by
  obtain ⟨g, c', hg, hstack⟩ := hp.stack
  refine ⟨g, c', hg, hstack, ?_⟩
  rw [← hg.id]
  exact Thread.frame?_of_mem (hp.numbered hm) (by simp [hstack])

lemma lt_size (hp : Prepared m t stubs frame below c r m₁) : t < m₁.roster.threads.size := by
  obtain ⟨g, c', -, hstack⟩ := hp.stack
  by_contra ht
  have hempty : (m₁.thread t).stack = [] := by
    simp [Machine.thread, Roster.thread, Nat.le_of_not_lt ht]
    rfl
  simp [hempty] at hstack

/-- Patching the frame, and noting what was restored for it. -/
lemma setFrame (hm : m.Readies t stubs frame below c r)
    (hp : Prepared m t stubs frame below c r m₁) {g g' : Frame} {h h' : Histogram}
    {reason : Reason} {b : Bool} (hg : (m₁.thread t).frame? frame.id = some g)
    (hd : g.deoptimize h reason = .ok (b, h', g')) (hsupply : m₂.supply = m₁.supply)
    (hothers : ∀ i, i ≠ t → m₂.thread i = m₁.thread i)
    (hthread : m₂.thread t =
      { (m₁.thread t).setFrame g' with restored := (m₂.thread t).restored })
    (hrestored : (m₂.thread t).restored = (m.thread t).restored ∧ m₂.memory = m.memory ∨
      ∃ table, (m.thread t).restored.get? frame.id = none ∧
        (m₂.thread t).restored = (m.thread t).restored.set frame.id table ∧
        ∀ mode, Unwind.recover m.supply m.memory (m.thread t).enterHandler mode frame.id c r =
          .ok ⟨m₂.memory, (m.thread t).enterHandler, table, false⟩) :
    Prepared m t stubs frame below c r m₂ := by
  obtain ⟨g₁, c', hresembles, hstack, hg₁⟩ := hp.exists_frame hm
  obtain rfl : g = g₁ := Option.some.inj (hg.symm.trans hg₁)
  obtain ⟨hid, c'', hresembles'⟩ := Frame.resembles_deoptimize hresembles hd
  have hstack' : (m₂.thread t).stack = stubs ++ g' :: below := by
    rw [hthread]
    exact Thread.stack_setFrame (hp.numbered hm) hstack hid
  refine ⟨hsupply.trans hp.supply, fun i hi => (hothers i hi).trans (hp.others i hi),
    ⟨g', c'', hresembles', hstack'⟩, ?_, hrestored⟩
  conv_lhs => rw [hthread, hp.thread]
  conv_rhs => rw [hthread]
  rfl

/-- A prepared frame that is patched is prepared. -/
lemma patch (hm : m.Readies t stubs frame below c r)
    (hp : Prepared m t stubs frame below c r m₁) {reason : Reason} {b : Bool}
    (h : m₁.deoptimizeFrame t frame.id reason = .ok (b, m₂)) :
    Prepared m t stubs frame below c r m₂ := by
  obtain ⟨g, c', -, -, hg⟩ := hp.exists_frame hm
  simp only [deoptimizeFrame, hg, bind_eq_ok] at h
  obtain ⟨⟨changed, histogram, g'⟩, hd, h⟩ := h
  have hthread := thread_setThread { m₁ with histogram } ((m₁.thread t).setFrame g') hp.lt_size
  have hstep : m₂.supply = m₁.supply ∧ (∀ i, i ≠ t → m₂.thread i = m₁.thread i) ∧
      m₂.thread t = (m₁.thread t).setFrame g' ∧ m₂.memory = m₁.memory := by
    split_ifs at h <;>
      · cases h
        exact ⟨rfl, fun i hi => Roster.thread_set_of_ne _ _ hi, hthread, rfl⟩
  obtain ⟨hsupply, hothers, hthread, hmemory⟩ := hstep
  have hsame : (m₂.thread t).restored = (m₁.thread t).restored := by
    rw [hthread]
    rfl
  refine hp.setFrame hm hg hd hsupply hothers ?_ ?_
  · rw [hthread]
  · rw [hsame, hmemory]
    exact hp.restored

lemma exists_patch (hm : m.Readies t stubs frame below c r)
    (hp : Prepared m t stubs frame below c r m₁) (reason : Reason) :
    ∃ x, m₁.deoptimizeFrame t frame.id reason = .ok x := by
  obtain ⟨g, c', hresembles, -, hg⟩ := hp.exists_frame hm
  obtain ⟨⟨changed, histogram, g'⟩, hd⟩ := Frame.exists_deoptimize hresembles.record
    (by rw [hresembles.alike]; exact hm.handler) m₁.histogram reason
  simp only [deoptimizeFrame, hg, hd, ok_bind]
  split_ifs <;> exact ⟨_, rfl⟩

/-- Nothing stands in the way of restoring a frame that is not restored yet. -/
lemma unhindered (hm : m.Readies t stubs frame below c r)
    (hp : Prepared m t stubs frame below c r m₁) {c' : CompiledFrame} (hc : c.Alike c')
    (hmemory : m₁.memory = m.memory) :
    Unwind.Unhindered m₁.supply m₁.memory (m₁.thread t) c' r := by
  intro o ho
  rw [hp.supply, hmemory, Restore.objectsIfEnabled_alike hc] at ho
  obtain ⟨hf, howners⟩ := hm.free o ho
  refine ⟨hf, fun q hq => ?_⟩
  rw [hp.thread]
  rw [hc] at hq
  exact howners q hq

/-- What was not noted was not restored. -/
lemma restored_of_not_isRestored (hp : Prepared m t stubs frame below c r m₁)
    (h : ¬ (m₁.thread t).isRestored frame.id = true) :
    (m.thread t).restored.get? frame.id = none ∧
      (m₁.thread t).restored = (m.thread t).restored ∧ m₁.memory = m.memory := by
  have hnone : (m₁.thread t).restored.get? frame.id = none := by
    simpa [Thread.isRestored, Table.contains] using h
  rcases hp.restored with ⟨hrestored, hmemory⟩ | ⟨table, -, hrestored, -⟩
  · exact ⟨hrestored ▸ hnone, hrestored, hmemory⟩
  · rw [hrestored, Table.get?_set_self] at hnone
    cases hnone

/-- A prepared frame that is inspected is prepared. -/
lemma inspect (hm : m.Readies t stubs frame below c r)
    (hp : Prepared m t stubs frame below c r m₁) {i : Inspection}
    (h : m₁.deoptimizeObjects t frame.id = .ok (i, m₂)) :
    i ≠ .refused ∧ Prepared m t stubs frame below c r m₂ := by
  obtain ⟨g, c', hresembles, -, hg⟩ := hp.exists_frame hm
  have hid : (m₁.thread t).id = (m.thread t).id := by rw [hp.thread]
  have hwait : (m₁.thread t).waitingOn = (m.thread t).waitingOn := by rw [hp.thread]
  -- Nothing stands in the way of restoring what was not noted.
  have hinspect : ∀ {g₁ c₁ r₁ o u}, (m₁.thread t).isRestored frame.id = false →
      (m₁.thread t).frame? frame.id = some g₁ → g₁.record = .ok (c₁, r₁) →
      Restore.inspect m₁.supply m₁.memory (m₁.thread t) none c₁ r₁.scopes r₁.objects =
        .ok (o, u) → g = g₁ ∧ o.failed = false ∧ u = m₁.thread t ∧ ∀ mode,
        Unwind.recover m₁.supply m₁.memory (m.thread t).enterHandler mode frame.id c' r =
          .ok ⟨o.memory, (m.thread t).enterHandler, o.table, false⟩ := by
    intro g₁ c₁ r₁ o u hunnoted hg₁ hrecord ho
    obtain rfl := Option.some.inj (hg.symm.trans hg₁)
    obtain ⟨rfl, rfl⟩ : c' = c₁ ∧ r = r₁ := by simpa using hresembles.record.symm.trans hrecord
    obtain ⟨hnone, -, hmemory⟩ := hp.restored_of_not_isRestored (by simp [hunnoted])
    exact ⟨rfl, Unwind.recover_of_inspect (hp.unhindered hm hresembles.alike hmemory) hid.symm
      hwait.symm hnone ho⟩
  cases inspecting_of_deoptimizeObjects h with
  | again => exact ⟨by simp, hp⟩
  | nothing => exact ⟨by simp, hp⟩
  | refused hunnoted hg₁ hrecord _ _ ho hfailed =>
    obtain ⟨-, hf, -⟩ := hinspect hunnoted hg₁ hrecord ho
    rw [hf] at hfailed
    cases hfailed
  | @restored _ _ _ o _ _ hunnoted hg₁ hrecord _ ho _ hremember =>
    obtain ⟨rfl, -, rfl, hrecover⟩ := hinspect hunnoted hg₁ hrecord ho
    obtain ⟨hnone, hsame, hmemory⟩ := hp.restored_of_not_isRestored (by simp [hunnoted])
    set m₀ := { m₁ with memory := o.memory }.setThread t (m₁.thread t) with hm₀
    have hback : m₀.thread t = m₁.thread t :=
      thread_setThread { m₁ with memory := o.memory } _ hp.lt_size
    have hsize : t < m₀.roster.threads.size := by
      simpa [hm₀, Machine.setThread, Roster.set] using hp.lt_size
    obtain ⟨b, histogram, g', hd, hsupply, hkept, hothers, hthread⟩ :=
      exists_deoptimize_of_remember hsize hremember
    have hid' : g'.id = frame.id :=
      (Frame.resembles_deoptimize hresembles hd).1.trans hresembles.id
    rw [hback] at hthread
    refine ⟨by simp,
      hp.setFrame hm hg hd hsupply (fun i hi => ?_) ?_ (.inr ⟨o.table, hnone, ?_, ?_⟩)⟩
    · rw [hothers i hi]
      exact Roster.thread_set_of_ne _ _ hi
    · rw [hthread]
    · rw [hthread, hid', hsame]
    · intro mode
      rw [← hp.supply, ← hmemory, ← Unwind.recover_alike hresembles.alike, hrecover mode, hkept]
      rfl

lemma exists_inspect (hm : m.Readies t stubs frame below c r)
    (hp : Prepared m t stubs frame below c r m₁) (hscopes : r.scopes.isEmpty = false) {mode : Mode}
    {got : Unwind.Recovery} (hgot : Unwind.recover m.supply m.memory (m.thread t).enterHandler mode
      frame.id c r = .ok got) :
    ∃ x, m₁.deoptimizeObjects t frame.id = .ok x := by
  obtain ⟨g, c', hresembles, -, hg⟩ := hp.exists_frame hm
  have hinspected := inspected_eq_ok hg (Frame.record_eq_ok.1 hresembles.record).1
  have hscopes' : c'.scopes r = .ok r.scopes := by
    rw [CompiledFrame.scopes, hscopes]
    rfl
  simp only [deoptimizeObjects, hinspected, hresembles.record, hscopes', ok_bind]
  split_ifs with hrestored
  · exact ⟨_, rfl⟩
  · exact ⟨_, rfl⟩
  obtain ⟨hnone, -, hmemory⟩ := hp.restored_of_not_isRestored hrestored
  have hid : (m₁.thread t).id = (m.thread t).id := by rw [hp.thread]
  have hwait : (m₁.thread t).waitingOn = (m.thread t).waitingOn := by rw [hp.thread]
  obtain ⟨⟨o, u⟩, ho⟩ := Unwind.exists_inspect_of_recover (t := m₁.thread t) (s := m₁.supply)
    (m := m₁.memory) (c := c') (w := (m.thread t).enterHandler)
    (hp.unhindered hm hresembles.alike hmemory) hid.symm hwait.symm hnone
    (by rw [hp.supply, hmemory, Unwind.recover_alike hresembles.alike]; exact hgot)
  simp only [ho, ok_bind]
  split_ifs
  · exact ⟨_, rfl⟩
  · obtain ⟨⟨b, histogram, g'⟩, hd⟩ := Frame.exists_deoptimize hresembles.record
      (by rw [hresembles.alike]; exact hm.handler) m₁.histogram .constraint
    have hd' : g.deoptimize ({ m₁ with memory := o.memory }.setThread t u).histogram .constraint =
        .ok (b, histogram, g') := hd
    simp only [remember, hd', ok_bind]
    exact ⟨_, rfl⟩

end Prepared

/-- However often a frame is inspected and patched, all that comes of it is that it is prepared. -/
theorem prepared_of_prepare (hm : m.Readies t stubs frame below c r) {ps : List Preparation}
    (h : m.prepare t frame.id ps = .ok m₁) : Prepared m t stubs frame below c r m₁ := by
  refine foldlM_induction (fun _ => Prepared m t stubs frame below c r) (.start hm) ?_ h
  intro _ p m₁ m₂ hp hstep
  cases p with
  | inspect =>
    simp only [prepareOne, bind_eq_ok, pure_eq_ok] at hstep
    obtain ⟨⟨i, m₃⟩, hinspect, rfl⟩ := hstep
    exact (hp.inspect hm hinspect).2
  | patch reason =>
    simp only [prepareOne, bind_eq_ok, pure_eq_ok] at hstep
    obtain ⟨⟨b, m₃⟩, hpatch, rfl⟩ := hstep
    exact hp.patch hm hpatch

theorem exists_prepare (hm : m.Readies t stubs frame below c r) (hscopes : r.scopes.isEmpty = false)
    {mode : Mode} {got : Unwind.Recovery} (hgot : Unwind.recover m.supply m.memory
      (m.thread t).enterHandler mode frame.id c r = .ok got) (ps : List Preparation) :
    ∃ m₁, m.prepare t frame.id ps = .ok m₁ := by
  refine exists_foldlM fun pre p post m₁ _ hpre => ?_
  have hp := prepared_of_prepare hm hpre
  cases p with
  | inspect =>
    obtain ⟨x, hx⟩ := hp.exists_inspect hm hscopes hgot
    exact ⟨x.2, by rw [prepareOne, hx]; rfl⟩
  | patch reason =>
    obtain ⟨x, hx⟩ := hp.exists_patch hm reason
    exact ⟨x.2, by rw [prepareOne, hx]; rfl⟩

/-! ### Planning for a prepared frame -/

/-- Planning for a prepared frame is planning for the frame as it was, but for the stack. -/
theorem Prepared.fetch_eq {caller : Frame} (hm : m.Readies t stubs frame (caller :: below) c r)
    (hstubs : ∀ f ∈ stubs, f.kind.isStub = true)
    (hp : Prepared m t stubs frame (caller :: below) c r m₁) (mode : Mode) :
    Unwind.fetch m₁.supply m₁.memory (m₁.thread t) mode =
      (fun x => (x.1, x.2.1, x.2.2.withStack (m₁.thread t).stack)) <$>
        Unwind.fetch m.supply m.memory (m.thread t) mode := by
  obtain ⟨g, c', hresembles, hstack⟩ := hp.stack
  have htarget : Unwind.target (m.thread t) = .ok (frame, caller) :=
    Unwind.target_eq_ok.2 ⟨stubs, below, hm.stack, hstubs,
      by rw [(Frame.record_eq_ok.1 hm.record).1]; rfl⟩
  have htarget₁ : Unwind.target (m₁.thread t) = .ok (g, caller) :=
    Unwind.target_eq_ok.2 ⟨stubs, below, hstack, hstubs,
      by rw [(Frame.record_eq_ok.1 hresembles.record).1]; rfl⟩
  have hsaved : Unwind.savedResult (m₁.thread t) mode c' r =
      Unwind.savedResult (m.thread t) mode c r := by
    rw [hp.thread, hresembles.alike]
    rfl
  have hrecover : Unwind.recover m₁.supply m₁.memory (m₁.thread t).enterHandler mode g.id c' r =
      (Unwind.Recovery.withStack · (m₁.thread t).stack) <$>
        Unwind.recover m.supply m.memory (m.thread t).enterHandler mode frame.id c r := by
    rw [hp.supply, hresembles.id, Unwind.recover_alike hresembles.alike]
    rcases hp.restored with ⟨hrestored, hmemory⟩ | ⟨table, hnone, hrestored, hrecover⟩
    · have hthread : (m₁.thread t).enterHandler =
          (m.thread t).enterHandler.withStack (m₁.thread t).stack := by
        conv_lhs => rw [hp.thread, hrestored]
        rfl
      rw [hmemory, hthread, Unwind.recover_withStack]
    · have hsome : (m₁.thread t).enterHandler.restored.get? frame.id = some table := by
        change (m₁.thread t).restored.get? frame.id = some table
        rw [hrestored, Table.get?_set_self]
      have herase : (m₁.thread t).enterHandler.restored.erase frame.id =
          (m.thread t).restored := by
        change (m₁.thread t).restored.erase frame.id = _
        rw [hrestored, Table.erase_set _ _ hnone]
      rw [hrecover mode, Unwind.recover_of_restored hsome, herase]
      conv_lhs => rw [hp.thread]
      rfl
  rw [Unwind.fetch_eq_settle htarget hm.record, Unwind.fetch_eq_settle htarget₁ hresembles.record,
    hsaved, hrecover, hresembles.alike, map_bind]
  refine congrArg _ (funext fun _ => ?_)
  rw [map_bind, bind_map_left, ← hresembles.alike]
  exact congrArg _ (funext fun got => Unwind.settle_withStack hresembles _ got _)

/-- Outcomes of planning that agree: planning stops for the same reason, or comes to the same layout
and the same memory, and leaves the same plan, the same exceptions and all else of every thread the
same, but for frames of the thread that may be patched. -/
inductive SamePlan (t : Nat) : Checked (Layout × Machine) → Checked (Layout × Machine) → Prop where
  | stopped (v : Fault) : SamePlan t (.error v) (.error v)
  | planned {l : Layout} {m m₁ : Machine} (memory : m₁.memory = m.memory)
      (thread : m₁.thread t = (m.thread t).withStack (m₁.thread t).stack)
      (others : ∀ i, i ≠ t → m₁.thread i = m.thread i) : SamePlan t (.ok (l, m)) (.ok (l, m₁))

/-- A frame that is inspected and patched, however often and in whatever order, and then planned for
comes to the same plan as a frame that is planned for at once: to the same layout, activations,
exceptions and mode, and to the same objects and hold counts. Whenever the frame can be planned for
at once it can be inspected and patched before that. -/
theorem fetch_prepare {caller : Frame} (hnumbered : (m.thread t).Numbered)
    (htarget : Unwind.target (m.thread t) = .ok (frame, caller))
    (hrecord : frame.record = .ok (c, r)) (hhandler : c.region.handlerOffset ≤ c.region.size)
    (hfree : Unwind.Unhindered m.supply m.memory (m.thread t) c r) (mode : Mode)
    (ps : List Preparation) :
    ((∃ x, m.fetch t mode = .ok x) → ∃ m₁, m.prepare t frame.id ps = .ok m₁) ∧
      ∀ m₁, m.prepare t frame.id ps = .ok m₁ →
        SamePlan t (m.fetch t mode) (m₁.fetch t mode) := by
  obtain ⟨stubs, below, hstack, hstubs, -⟩ := Unwind.target_eq_ok.1 htarget
  have hm : m.Readies t stubs frame (caller :: below) c r :=
    ⟨hnumbered, hstack, hrecord, hhandler, hfree⟩
  constructor
  · rintro ⟨x, hfetch⟩
    obtain ⟨⟨l, memory, u⟩, hfetch, -⟩ := bind_eq_ok.1 hfetch
    obtain ⟨got, thrown, v, w, hfetched⟩ := Unwind.fetch_spec_of_target htarget hrecord hfetch
    exact exists_prepare hm (by simpa using hfetched.scopes) hfetched.recover ps
  · intro m₁ hprepare
    have hp := prepared_of_prepare hm hprepare
    have hsize := (Prepared.start hm).lt_size
    simp only [fetch, hp.fetch_eq hm hstubs mode]
    cases Unwind.fetch m.supply m.memory (m.thread t) mode with
    | error v => exact .stopped v
    | ok x =>
      have hthread : ∀ e, (({ m with memory := x.2.1 }.setThread t x.2.2).report e).thread t =
          x.2.2 := fun _ => thread_setThread { m with memory := x.2.1 } _ hsize
      have hthread₁ : ∀ e, (({ m₁ with memory := x.2.1 }.setThread t
          (x.2.2.withStack (m₁.thread t).stack)).report e).thread t =
          x.2.2.withStack (m₁.thread t).stack :=
        fun _ => thread_setThread { m₁ with memory := x.2.1 } _ hp.lt_size
      refine .planned rfl ?_ fun i hi => ?_
      · rw [hthread, hthread₁]
        rfl
      · exact (Roster.thread_set_of_ne m₁.roster _ hi).trans
          ((hp.others i hi).trans (Roster.thread_set_of_ne m.roster _ hi).symm)

/-- Nothing is refused on the machine with the inlined activation, and its thread does not wait. -/
lemma Sample.unhindered : Unwind.Unhindered Sample.machine.supply Sample.machine.memory
    (Sample.machine.thread 0) Unwind.Inlined.compiled Unwind.Inlined.record := by
  intro o ho
  cases ho
  exact ⟨rfl, fun q _ => rfl⟩

/-- A frame with an inlined activation that is inspected twice and patched is planned for as if
nothing of that had happened. -/
theorem fetch_prepare_inlined : ∃ x m₁,
    (Sample.machine.thread 0).Numbered ∧
    Unwind.target (Sample.machine.thread 0) = .ok (Unwind.Inlined.frame, Unwind.Inlined.caller) ∧
    Unwind.Inlined.frame.record = .ok (Unwind.Inlined.compiled, Unwind.Inlined.record) ∧
    Unwind.Inlined.region.handlerOffset ≤ Unwind.Inlined.region.size ∧
    Unwind.Unhindered Sample.machine.supply Sample.machine.memory (Sample.machine.thread 0)
      Unwind.Inlined.compiled Unwind.Inlined.record ∧
    Sample.machine.fetch 0 .plain = .ok x ∧
    Sample.machine.prepare 0 3 [.inspect, .inspect, .patch .constraint] = .ok m₁ ∧
    SamePlan 0 (Sample.machine.fetch 0 .plain) (m₁.fetch 0 .plain) := by
  obtain ⟨x, hx⟩ : ∃ x, Sample.machine.fetch 0 .plain = .ok x := ⟨_, rfl⟩
  have hnumbered := Sample.follows.stands.numbered
  have hsame := fetch_prepare (m := Sample.machine) (t := 0) hnumbered rfl rfl (by decide)
    Sample.unhindered .plain [.inspect, .inspect, .patch .constraint]
  obtain ⟨m₁, hm₁⟩ := hsame.1 ⟨x, hx⟩
  exact ⟨x, m₁, hnumbered, rfl, rfl, by decide, Sample.unhindered, hx, hm₁, hsame.2 m₁ hm₁⟩

end Machine
end Bailout
