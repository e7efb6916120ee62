import Bailout.Proofs.Machine.Noted
import Bailout.Proofs.Unwind.Shifts

/-!
# Stacks without gaps

However frames are pushed, popped, patched, planned for and unpacked, and whatever rounds do to
them, the stack of a thread is made of frames that lie one above the other and that have ids of
their own. A frame is known by its id for good, and stays where it lies and where its code stands;
it is patched once at most.
-/

namespace Bailout

namespace Machine

variable {start m m' : Machine} {t id : Nat} {u : Thread} {f g : Frame}

/-! ### What happens to stacks -/

lemma shifts_setThread (hu : Thread.Shifts (m.thread t) u) (s : Nat) :
    Thread.Shifts (m.thread s) ((m.setThread t u).thread s) :=
  related_setThread (fun _ => .refl) hu s

/-- The frame with an id is patched, or left as it is. -/
lemma shifts_setFrame (hn : (m.thread t).Numbered) (hf : (m.thread t).frame? id = some f)
    (h : f.MayPatch g) (s : Nat) :
    Thread.Shifts (m.thread s) ((m.setThread t ((m.thread t).setFrame g)).thread s) := by
  have hid : f.id = id := Thread.id_of_frame? hf
  exact shifts_setThread (.single (Thread.shift_setFrame hn (hid ▸ hf) h)) s

/-- Relocks may have been put off, and then the frame was patched. -/
lemma Remembers.shifts {table : Restored} (h : Remembers m t id f g u table m')
    (hp : f.MayPatch g) (hn : (m.thread t).Numbered) (s : Nat) :
    Thread.Shifts (m.thread s) (m'.thread s) := by
  by_cases hs : s = t
  · subst hs
    have hfid : f.id = id := Thread.id_of_frame? h.frame
    have hu := Thread.shift_of_sameButDeferred h.deferred
    have hstack : u.stack = (m.thread s).stack := by rw [h.deferred]
    have hlast : u.lastFrameId = (m.thread s).lastFrameId := by rw [h.deferred]
    have hset := Thread.shift_setFrame (hn.sublist hlast (hstack ▸ .refl _))
      (hfid.symm ▸ h.frame?_deferred) hp
    rw [h.thread]
    exact ((Relation.ReflTransGen.single hu).tail hset).tail (.aside rfl rfl)
  · rw [Machine.thread, Machine.thread, h.roster, Roster.thread_set_of_ne _ _ hs]

/-- Something happens to frames, which whoever carries out a plan replaces as planned. -/
def Moves.Faithful (m m' : Machine) : Prop := m.unpacker = .faithful ∧ Moves m m'

/-- Whatever happens shifts the frames of each thread. -/
theorem Moves.shifts (h : Moves m m') (hm : m.unpacker = .faithful)
    (hn : ∀ s, (m.thread s).Numbered) (s : Nat) :
    Thread.Shifts (m.thread s) (m'.thread s) := by
  cases h with
  | push h hk => exact shifts_setThread (.single (.push h hk)) s
  | pop t =>
    have hpop : Thread.Shift (m.thread t) (m.thread t).pop.2 := .drop rfl (List.tail_suffix _)
    exact shifts_setThread (.single hpop) s
  | inspect h =>
    cases inspecting_of_deoptimizeObjects h with
    | again | nothing => exact .refl
    | @refused _ _ _ o _ _ _ _ _ _ ho =>
      have hu := Thread.shift_of_sameButDeferred (sameButDeferred_inspect ho)
      exact shifts_setThread (m := { m with memory := o.memory }) (.single hu) s
    | restored _ hf hrecord _ ho _ hremember =>
      obtain ⟨b, histogram, g, hd, hg⟩ :=
        remembers_of_remember hf hrecord (sameButDeferred_inspect ho) hremember
      exact hg.shifts (Frame.mayPatch_of_deoptimize hd) (hn _) s
  | deoptimizeFrame h =>
    obtain rfl | ⟨f, g, histogram, b, hf, hd, hroster⟩ := deoptimizeFrame_cases h
    · exact .refl
    · have hset := shifts_setFrame (hn _) hf (Frame.mayPatch_of_deoptimize hd) s
      rwa [Machine.thread, Machine.thread, hroster]
  | patchFrame h =>
    obtain ⟨rfl, -⟩ | ⟨f, g, b, hf, hp, -, rfl⟩ := patchFrame_cases h
    · exact .refl
    · exact shifts_setFrame (hn _) hf (.inr ⟨b, hp⟩) s
  | plan h =>
    simp only [fetch, bind_eq_ok, pure_eq_ok] at h
    obtain ⟨⟨l, memory, u⟩, hu, h⟩ := h
    cases h
    obtain ⟨hstack, hlast⟩ := Unwind.frames_of_fetch hu
    exact shifts_setThread (m := { m with memory }) (.single (.aside hstack hlast)) s
  | unpack h =>
    simp only [Machine.unpack, bind_eq_ok, pure_eq_ok] at h
    obtain ⟨⟨ty, u⟩, hu, h⟩ := h
    cases h
    rw [hm] at hu
    exact shifts_setThread (Unwind.shifts_unpack hu) s
  | commit h =>
    simp only [Machine.commit, bind_eq_ok, pure_eq_ok] at h
    obtain ⟨r, hr, rfl⟩ := h
    exact Rounds.related_of_commit (fun _ => .refl) .trans
      (fun hv => .single (Thread.shift_visit hv)) hr s
  | deoptimizeMarked h =>
    simp only [Machine.deoptimizeMarked, bind_eq_ok, pure_eq_ok] at h
    obtain ⟨r, hr, rfl⟩ := h
    exact Rounds.related_of_deoptimizeMarked (fun _ => .refl) .trans
      (fun hv => .single (Thread.shift_visit hv)) hr s
  | register id name =>
    obtain ⟨hstack, hlast, -⟩ := Machine.thread_register m id name s
    exact .single (.aside hstack hlast)
  | elsewhere hstack hlast _ => exact .single (.aside (hstack s) (hlast s))

/-! ### Runs -/

lemma Moves.Faithful.shifts (h : Moves.Faithful m m') (hm : ∀ s, (m.thread s).Sound) (s : Nat) :
    Thread.Shifts (m.thread s) (m'.thread s) :=
  Moves.shifts h.2 h.1 (fun s => (hm s).toNumbered) s

/-- Stacks are sound at any time, and all that happens shifts them. -/
theorem sound_of_faithful (hm : ∀ s, (m.thread s).Sound)
    (h : Relation.ReflTransGen Moves.Faithful m m') :
    (∀ s, (m'.thread s).Sound) ∧ ∀ s, Thread.Shifts (m.thread s) (m'.thread s) := by
  induction h with
  | refl => exact ⟨hm, fun _ => .refl⟩
  | tail _ hstep ih =>
    obtain ⟨hsound, hshifts⟩ := ih
    have hlast := hstep.shifts hsound
    exact ⟨fun s => Thread.sound_of_shifts (hlast s) (hsound s),
      fun s => (hshifts s).trans (hlast s)⟩

/-- Where there is nothing to be patched, a request changes nothing. -/
lemma patchFrame_of_not_goesOnIn (hn : (m.thread t).Numbered) (hf : (m.thread t).frame? id = some f)
    (h : ∀ ref, ¬ f.GoesOnIn ref) :
    m.patchFrame t id = .ok (some false, m) ∧ ∀ r, m.deoptimizeFrame t id r = .ok (false, m) := by
  have hset : m.setThread t ((m.thread t).setFrame f) = m := by
    rw [Thread.setFrame_self hn hf, setThread_thread]
  constructor
  · rw [patchFrame, hf]
    simp only [Frame.patch_of_not_goesOnIn h, ok_bind, hset]
    rfl
  · intro r
    rw [deoptimizeFrame, hf]
    simp only [Frame.deoptimize_of_not_goesOnIn h, ok_bind, hset]
    rfl

/-- What is patched is not patched again. -/
lemma patchFrame_again {b : Bool} (hm : (m.thread t).Sound)
    (h : m.patchFrame t id = .ok (some b, m')) :
    m'.patchFrame t id = .ok (some false, m') ∧
      ∀ r, m'.deoptimizeFrame t id r = .ok (false, m') := by
  obtain ⟨-, hb⟩ | ⟨f, g, b', hf, hp, -, rfl⟩ := patchFrame_cases h
  · cases hb
  · have hgid : g.id = id := (Frame.keeps_patch hp).id.trans (Thread.id_of_frame? hf)
    have hsound := Thread.sound_of_shifts (shifts_setFrame hm.toNumbered hf (.inr ⟨b', hp⟩) t) hm
    refine patchFrame_of_not_goesOnIn hsound.toNumbered ?_ (Frame.not_goesOnIn_patch hp)
    rw [thread_setThread _ _ (lt_size_of_frame? hf)]
    exact Thread.frame?_setFrame hf hgid

/-- The frames of a thread at one time, and at a later one. -/
structure Tiles (m m' : Machine) (t : Nat) : Prop where
  /-- The oldest frame ends where the stack does, each other one where the one below begins. -/
  tiled : Frame.Tiled (m.thread t).stack
  ids : ((m.thread t).stack.map Frame.id).Nodup
  /-- A frame that has an id from before was there before. -/
  known : ∀ g ∈ (m'.thread t).stack, g.id ≤ (m.thread t).lastFrameId →
    ∃ f ∈ (m.thread t).stack, f.id = g.id
  le_last : ∀ f ∈ (m.thread t).stack, f.id ≤ (m.thread t).lastFrameId
  stays : ∀ f ∈ (m.thread t).stack, ∀ g ∈ (m'.thread t).stack, g.id = f.id → f.Stays g
  handler : ∀ f ∈ (m.thread t).stack, ∀ c, f.kind = .compiled c → c.heldPc.isSome = true →
    c.region.handler = .ok f.pc
  /-- The first request to patch a frame settles the next ones. -/
  again : ∀ id b m₁, m.patchFrame t id = .ok (some b, m₁) →
    m₁.patchFrame t id = .ok (some false, m₁) ∧ ∀ r, m₁.deoptimizeFrame t id r = .ok (false, m₁)
  /-- So does whatever else patched the frame. -/
  patched : ∀ f ∈ (m.thread t).stack, (∀ ref, ¬ f.GoesOnIn ref) →
    m.patchFrame t f.id = .ok (some false, m) ∧ ∀ r, m.deoptimizeFrame t f.id r = .ok (false, m)

/-- Whatever happens to the frames of threads that had none, they tile their stacks. -/
theorem tiles_of_faithful (hstart : ∀ s, (start.thread s).stack = [])
    (h : Relation.ReflTransGen Moves.Faithful start m)
    (h' : Relation.ReflTransGen Moves.Faithful m m') (t : Nat) : Tiles m m' t := by
  have hsound := (sound_of_faithful (fun s => Thread.sound_of_stack_eq_nil (hstart s)) h).1
  have hpersists := Thread.persists_of_shifts ((sound_of_faithful hsound h').2 t)
  exact {
    tiled := (hsound t).tiled
    ids := (hsound t).nodup
    known := fun g hg hle => by
      obtain ⟨f, hf, hfg⟩ | hlt := hpersists.frame g hg
      · exact ⟨f, hf, hfg.id.symm⟩
      · omega
    le_last := (hsound t).last
    stays := fun f hf g hg hid => hpersists.stays (hsound t) hf hg hid
    handler := (hsound t).handlerSet
    again := fun id b m₁ hp => patchFrame_again (hsound t) hp
    patched := fun f hf hpatched => patchFrame_of_not_goesOnIn (hsound t).toNumbered
      (Thread.frame?_of_mem (hsound t).toNumbered hf) hpatched }

/-! ### An inlined call that is taken apart -/

namespace Inlined

def machine : Machine where
  config := {}
  memory := Unwind.Inlined.memory
  roster := { threads := #[{ id := 1, name := "main" }] }

/-- No thread has a frame. -/
lemma stack_machine (s : Nat) : (machine.thread s).stack = [] := by
  cases s with
  | zero => rfl
  | succ s => simp [Machine.thread, Roster.thread, machine, default, instInhabitedThread.default]

/-- The machine when the thread stands in the code. -/
def stacked : Machine := machine.setThread 0 Unwind.Inlined.thread

lemma faithful_stacked : Relation.ReflTransGen Moves.Faithful machine stacked := by
  have h : Relation.ReflTransGen Moves.Faithful machine _ :=
    .single ⟨rfl, @Moves.push _ 0 4 0x40 .entry _ rfl (by rintro c ⟨⟩)⟩
  replace h := h.tail ⟨rfl, @Moves.push _ 0 12 0x44
    (.interpreted (.start Unwind.Inlined.outer 0 [] false)) _ rfl (by rintro c ⟨⟩)⟩
  refine h.tail ⟨rfl, @Moves.push _ 0 6 0x1008 (.compiled Unwind.Inlined.compiled) _ rfl ?_⟩
  rintro c ⟨⟩
  rfl

end Inlined

/-- The compiled frame is patched, and then two activations with new ids are put in its place. -/
theorem tiles_of_inlined : (∀ s, (Inlined.machine.thread s).stack = []) ∧
    Relation.ReflTransGen Moves.Faithful Inlined.machine Inlined.stacked ∧
    ∃ m l m₁ ty m', Inlined.stacked.patchFrame 0 3 = .ok (some true, m) ∧
      m.fetch 0 .plain = .ok (l, m₁) ∧ m₁.unpack 0 .plain = .ok (ty, m') ∧ Tiles m m' 0 ∧
      (m.thread 0).stack.map (fun f => (f.id, f.sp, f.words, f.pc, f.logicalPc)) =
        [(3, 0xfffea, 6, 0x1030, 0x1008), (2, 0xffff0, 12, 0x44, 0x44),
          (1, 0xffffc, 4, 0x40, 0x40)] ∧
      (m'.thread 0).stack.map (fun f => (f.id, f.sp, f.words)) =
        [(5, 0xfffcf, 18), (4, 0xfffe1, 15), (2, 0xffff0, 12), (1, 0xffffc, 4)] := by
  obtain ⟨m, l, m₁, ty, m', hpatch, hfetch, hunpack, hm, hm₁, hbefore, hafter⟩ : ∃ m l m₁ ty m',
      Inlined.stacked.patchFrame 0 3 = .ok (some true, m) ∧ m.fetch 0 .plain = .ok (l, m₁) ∧
        m₁.unpack 0 .plain = .ok (ty, m') ∧ m.unpacker = .faithful ∧ m₁.unpacker = .faithful ∧
        (m.thread 0).stack.map (fun f => (f.id, f.sp, f.words, f.pc, f.logicalPc)) =
          [(3, 0xfffea, 6, 0x1030, 0x1008), (2, 0xffff0, 12, 0x44, 0x44),
            (1, 0xffffc, 4, 0x40, 0x40)] ∧
        (m'.thread 0).stack.map (fun f => (f.id, f.sp, f.words)) =
          [(5, 0xfffcf, 18), (4, 0xfffe1, 15), (2, 0xffff0, 12), (1, 0xffffc, 4)] :=
    ⟨_, _, _, _, _, rfl, rfl, rfl, rfl, rfl, rfl, rfl⟩
  have hpatched := Inlined.faithful_stacked.tail ⟨rfl, .patchFrame hpatch⟩
  have hplanned : Relation.ReflTransGen Moves.Faithful m m₁ := .single ⟨hm, .plan hfetch⟩
  have hunpacked := hplanned.tail ⟨hm₁, .unpack hunpack⟩
  exact ⟨Inlined.stack_machine, Inlined.faithful_stacked, m, l, m₁, ty, m', hpatch, hfetch, hunpack,
    tiles_of_faithful Inlined.stack_machine hpatched hunpacked 0, hbefore, hafter⟩

end Machine
end Bailout
