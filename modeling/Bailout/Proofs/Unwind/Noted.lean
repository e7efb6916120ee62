import Bailout.Proofs.Machine.Operations
import Bailout.Proofs.Unwind.Sizes

/-!
# Frames that objects are noted for

The objects that were restored early are noted by the id of their frame. No frame gets the id of
another one, a frame that is patched stays patched, and the note is forgotten when the frame is
planned for. So whatever happens to a thread, the frames that something is noted for are patched.
-/

namespace Bailout

/-! ### What becomes of a frame -/

namespace Frame

variable {f g e : Frame}

/-- What later becomes of a frame: it has its id, and does not come to go on anywhere. -/
structure Becomes (f g : Frame) : Prop where
  id : g.id = f.id
  handlerSet : f.HandlerSet → g.HandlerSet
  goesOnIn : ∀ ref, g.GoesOnIn ref → f.GoesOnIn ref

lemma Becomes.refl (f : Frame) : f.Becomes f := ⟨rfl, fun h => h, fun _ h => h⟩

lemma Becomes.trans (h : e.Becomes f) (h' : f.Becomes g) : e.Becomes g where
  id := h'.id.trans h.id
  handlerSet he := h'.handlerSet (h.handlerSet he)
  goesOnIn ref hg := h.goesOnIn ref (h'.goesOnIn ref hg)

lemma Keeps.becomes (h : f.Keeps g) : f.Becomes g := ⟨h.id, h.handlerSet, h.goesOnIn⟩

/-- A frame that leaves compiled code goes on in none. -/
lemma becomes_of_compiled?_eq_none {k : FrameKind} (hk : k.compiled? = none) :
    f.Becomes { f with kind := k } := by
  have hne : ∀ c, k ≠ .compiled c := by
    rintro c rfl
    cases hk
  exact ⟨rfl, fun _ c hc => absurd hc (hne c), fun _ ⟨c, hc, _⟩ => absurd hc (hne c)⟩

lemma handlerSet_of_kind {k : FrameKind} (hf : f.kind = k)
    (hk : ∀ c, k = .compiled c → c.heldPc = none) : f.HandlerSet := by
  rintro c hc hheld
  rw [hk c (hf.symm.trans hc)] at hheld
  cases hheld

/-- A compiled frame that goes on nowhere is patched. -/
lemma isSome_heldPc {c : CompiledFrame} (hf : f.kind = .compiled c)
    (hn : ∀ ref, ¬ f.GoesOnIn ref) : c.heldPc.isSome = true := by
  by_contra hheld
  exact hn c.region.ref ⟨c, hf, rfl, by simpa using hheld⟩

end Frame

/-! ### What becomes of a thread -/

namespace Thread

variable {t u v : Thread} {f g : Frame} {words pc id : Nat} {kind : FrameKind}

/-- What becomes of a thread while nothing is noted anew: each of its frames is what became of an
older one, or has an id that no frame had. -/
structure Evolves (t u : Thread) : Prop where
  last : t.lastFrameId ≤ u.lastFrameId
  frame : ∀ g ∈ u.stack, (∃ f ∈ t.stack, f.Becomes g) ∨
    t.lastFrameId < g.id ∧ g.id ≤ u.lastFrameId ∧ g.HandlerSet
  restored : ∀ id, u.isRestored id = true → t.isRestored id = true

lemma Evolves.trans (h : t.Evolves u) (h' : u.Evolves v) : t.Evolves v where
  last := Nat.le_trans h.last h'.last
  frame g hg := by
    rcases h'.frame g hg with ⟨f, hf, hfg⟩ | ⟨hlt, hle, hset⟩
    · rcases h.frame f hf with ⟨e, he, hef⟩ | ⟨hlt, hle, hset⟩
      · exact .inl ⟨e, he, hef.trans hfg⟩
      · rw [← hfg.id] at hlt hle
        exact .inr ⟨hlt, Nat.le_trans hle h'.last, hfg.handlerSet hset⟩
    · exact .inr ⟨Nat.lt_of_le_of_lt h.last hlt, hle, hset⟩
  restored id hid := h.restored id (h'.restored id hid)

/-- No frame is new. -/
lemma evolves_of_becomes (hlast : u.lastFrameId = t.lastFrameId)
    (hframe : ∀ g ∈ u.stack, ∃ f ∈ t.stack, f.Becomes g)
    (hrestored : ∀ id, u.isRestored id = true → t.isRestored id = true) : t.Evolves u :=
  ⟨Nat.le_of_eq hlast.symm, fun g hg => .inl (hframe g hg), hrestored⟩

lemma evolves_of_subset (hlast : u.lastFrameId = t.lastFrameId) (hstack : u.stack ⊆ t.stack)
    (hrestored : ∀ id, u.isRestored id = true → t.isRestored id = true) : t.Evolves u :=
  evolves_of_becomes hlast (fun g hg => ⟨g, hstack hg, .refl g⟩) hrestored

lemma Evolves.refl (t : Thread) : t.Evolves t :=
  evolves_of_subset rfl (List.Subset.refl _) fun _ h => h

/-- Relocks that are put off concern neither frames nor notes. -/
lemma evolves_of_sameButDeferred (h : Restore.SameButDeferred t u) : t.Evolves u := by
  rw [Restore.SameButDeferred] at h
  rw [h]
  exact evolves_of_subset rfl (List.Subset.refl _) fun _ h => h

lemma evolves_push (h : t.push words pc kind = .ok u)
    (hk : ∀ c, kind = .compiled c → c.heldPc = none) : t.Evolves u := by
  obtain ⟨hlast, sp, -, hstack⟩ := push_spec h
  simp only [push, bind_eq_ok, pure_eq_ok] at h
  obtain ⟨_, -, hu⟩ := h
  refine ⟨by omega, ?_, fun id hid => ?_⟩
  · rw [hstack, List.forall_mem_cons]
    refine ⟨.inr ⟨Nat.lt_succ_self _, Nat.le_of_eq hlast.symm, ?_⟩, fun g hg => ?_⟩
    · exact Frame.handlerSet_of_kind rfl hk
    · exact .inl ⟨g, hg, .refl g⟩
  · rw [← hu] at hid
    exact hid

lemma evolves_pop (t : Thread) : t.Evolves t.pop.2 :=
  evolves_of_subset rfl (List.tail_sublist _).subset fun _ h => h

lemma evolves_setFrame (hf : t.frame? id = some f) (h : f.Becomes g) :
    t.Evolves (t.setFrame g) := by
  refine evolves_of_becomes rfl (fun e he => ?_) fun _ h => h
  obtain ⟨e', he', rfl⟩ := List.mem_map.1 he
  split_ifs
  · exact ⟨f, List.mem_of_find?_eq_some hf, h⟩
  · exact ⟨e', he', .refl e'⟩

lemma evolves_visit {c : CodeCache} {h h' : Histogram} (hv : Rounds.visit c h t = .ok (h', u)) :
    t.Evolves u := by
  obtain ⟨hlast, hstack⟩ := Rounds.visit_spec hv
  simp only [Rounds.visit, bind_eq_ok, pure_eq_ok, Prod.mk.injEq] at hv
  obtain ⟨_, -, -, rfl⟩ := hv
  refine evolves_of_becomes hlast (fun g hg => ?_) fun _ h => h
  obtain ⟨f, hf, hpatches⟩ := exists_mem_of_forall₂ hstack hg
  exact ⟨f, hf, hpatches.1.becomes⟩

/-! ### Notes -/

/-- The frames that something is noted for are patched. Nothing is noted for frames to come. -/
structure Mindful (t : Thread) : Prop where
  last : ∀ f ∈ t.stack, f.id ≤ t.lastFrameId
  handlerSet : ∀ f ∈ t.stack, f.HandlerSet
  noted : ∀ id, t.isRestored id = true → id ≤ t.lastFrameId
  patched : ∀ f ∈ t.stack, t.isRestored f.id = true → ∀ ref, ¬ f.GoesOnIn ref

lemma mindful_of_stack_eq_nil (ht : t.stack = []) (hr : ∀ id, t.isRestored id = false) :
    t.Mindful := by
  refine ⟨?_, ?_, ?_, ?_⟩ <;> simp [ht, hr]

theorem Mindful.evolves (ht : t.Mindful) (h : t.Evolves u) : u.Mindful where
  last g hg := by
    rcases h.frame g hg with ⟨f, hf, hfg⟩ | ⟨-, hle, -⟩
    · rw [hfg.id]
      exact Nat.le_trans (ht.last f hf) h.last
    · exact hle
  handlerSet g hg := by
    rcases h.frame g hg with ⟨f, hf, hfg⟩ | ⟨-, -, hset⟩
    · exact hfg.handlerSet (ht.handlerSet f hf)
    · exact hset
  noted id hid := Nat.le_trans (ht.noted id (h.restored id hid)) h.last
  patched g hg hid ref hgo := by
    have hnoted := h.restored g.id hid
    rcases h.frame g hg with ⟨f, hf, hfg⟩ | ⟨hlt, -, -⟩
    · rw [hfg.id] at hnoted
      exact ht.patched f hf hnoted ref (hfg.goesOnIn ref hgo)
    · -- Nothing is noted for an id that is given out later.
      exact absurd (ht.noted g.id hnoted) (Nat.not_le.2 hlt)

lemma isRestored_set (t : Thread) (table : Restored) (i j : Nat) :
    { t with restored := t.restored.set i table }.isRestored j = true ↔
      j = i ∨ t.isRestored j = true := by
  simp only [isRestored, Table.contains, Table.get?_set]
  split_ifs with hij <;> simp [hij]

/-- Something may be noted for a frame that goes on nowhere. -/
theorem Mindful.note (ht : t.Mindful) (hid : id ≤ t.lastFrameId)
    (hn : ∀ f ∈ t.stack, f.id = id → ∀ ref, ¬ f.GoesOnIn ref) (table : Restored) :
    { t with restored := t.restored.set id table }.Mindful where
  last := ht.last
  handlerSet := ht.handlerSet
  noted i hi := by
    rcases (isRestored_set t table id i).1 hi with rfl | hi
    · exact hid
    · exact ht.noted i hi
  patched f hf hi := by
    rcases (isRestored_set t table id f.id).1 hi with hi | hi
    · exact hn f hf hi
    · exact ht.patched f hf hi

/-- What is known of a compiled frame that something is noted for. -/
theorem Mindful.of_isRestored {c : CompiledFrame} (ht : t.Mindful) (hf : t.frame? id = some f)
    (hc : f.kind = .compiled c) (hid : t.isRestored id = true) :
    c.heldPc.isSome = true ∧ c.region.handler = .ok f.pc := by
  have hmem : f ∈ t.stack := List.mem_of_find?_eq_some hf
  have hfid : f.id = id := id_of_frame? hf
  have hheld := Frame.isSome_heldPc hc (ht.patched f hmem (hfid ▸ hid))
  exact ⟨hheld, ht.handlerSet f hmem c hc hheld⟩

end Thread

/-! ### Planning and unpacking -/

namespace Unwind

variable {s : Restore.Supply} {m m' : Memory} {t u : Thread} {mode : Mode} {l : Layout}
  {id : Nat} {c : CompiledFrame} {r : DebugRecord} {got : Recovery}

/-- Planning notes nothing; it may forget what is noted for the frame. -/
lemma isRestored_of_recover (h : recover s m t mode id c r = .ok got) (i : Nat)
    (hi : got.thread.isRestored i = true) : t.isRestored i = true := by
  unfold recover at h
  cases hr : t.restored.get? id with
  | some table =>
    rw [hr] at h
    cases h
    simp only [Thread.isRestored, Table.contains, Table.get?_erase] at hi ⊢
    split_ifs at hi
    · cases hi
    · exact hi
  | none =>
    simp only [hr, bind_eq_ok] at h
    obtain ⟨o, -, h⟩ := h
    split_ifs at h
    · simp only [bind_eq_ok, pure_eq_ok] at h
      obtain ⟨⟨b, store, v⟩, hrelock, rfl⟩ := h
      have hrestored : v.restored = t.restored :=
        (Restore.sameButDeferred_relockAll hrelock).restored
      rwa [Thread.isRestored, hrestored] at hi
    · cases h
      exact hi

/-- Planning leaves the frames as they are. -/
lemma frames_of_fetch (h : fetch s m t mode = .ok (l, m', u)) :
    u.stack = t.stack ∧ u.lastFrameId = t.lastFrameId := by
  obtain ⟨frame, f, r, got, thrown, v, w, hfetched⟩ := fetch_spec h
  obtain ⟨ps, ps', -, habandon⟩ := hfetched.abandon
  obtain ⟨p, hu, -, -⟩ := hfetched.thread
  rw [hu, raise_spec hfetched.raise, (abandon_spec habandon).1, (recover_spec hfetched.recover).1]
  exact ⟨rfl, rfl⟩

theorem evolves_fetch (h : fetch s m t mode = .ok (l, m', u)) : t.Evolves u := by
  obtain ⟨hstack, hlast⟩ := frames_of_fetch h
  obtain ⟨frame, f, r, got, thrown, v, w, hfetched⟩ := fetch_spec h
  obtain ⟨ps, ps', -, habandon⟩ := hfetched.abandon
  obtain ⟨p, hu, -, -⟩ := hfetched.thread
  refine Thread.evolves_of_subset hlast (hstack ▸ List.Subset.refl _) fun i hi => ?_
  rw [hu, raise_spec hfetched.raise, (abandon_spec habandon).1] at hi
  exact isRestored_of_recover hfetched.recover i hi

lemma evolves_lay {xs : List (Packed × Nat × Nat)} (h : lay l mode t xs = .ok u) :
    t.Evolves u := by
  induction xs generalizing t with
  | nil =>
    cases h
    exact .refl _
  | cons x xs ih =>
    rw [lay, bind_eq_ok] at h
    obtain ⟨v, hv, h⟩ := h
    refine (Thread.evolves_push hv ?_).trans (ih h)
    rintro c ⟨⟩

lemma evolves_replace {p : Plan} (h : replace t p mode = .ok u) : t.Evolves u := by
  rw [replace, bind_eq_ok] at h
  obtain ⟨v, hv, h⟩ := h
  obtain ⟨stubs, f, hstack, -, hsame, hlast⟩ := dropDeoptee_spec hv
  rw [SameButFrames] at hsame
  refine (Thread.evolves_of_subset hlast ?_ fun i hi => ?_).trans (evolves_lay h)
  · rw [hstack]
    exact fun g hg => List.mem_append_right _ (List.mem_cons_of_mem _ hg)
  · rw [hsame] at hi
    exact hi

/-- The newest frame is as it was, or in no compiled code. -/
lemma evolves_onTop {k : FrameKind → Checked FrameKind}
    (hk : ∀ x y, k x = .ok y → y = x ∨ y.compiled? = none) (h : onTop t k = .ok u) :
    t.Evolves u := by
  unfold onTop at h
  split at h
  · cases h
    exact .refl _
  next top rest hstack =>
    simp only [bind_eq_ok, pure_eq_ok] at h
    obtain ⟨y, hy, rfl⟩ := h
    refine Thread.evolves_of_becomes rfl ?_ fun _ h => h
    rw [hstack, List.forall_mem_cons]
    refine ⟨⟨top, List.mem_cons_self, ?_⟩, fun g hg => ⟨g, List.mem_cons_of_mem _ hg, .refl g⟩⟩
    rcases hk _ _ hy with rfl | hnone
    · exact .refl top
    · exact Frame.becomes_of_compiled?_eq_none hnone

lemma skew_cases (x y : FrameKind) (h : skew x = .ok y) : y = x ∨ y.compiled? = none := by
  unfold skew at h
  split at h
  · split_ifs at h
    cases h
    exact .inr rfl
  · cases h
    exact .inl rfl

/-- Whoever carries a plan out. -/
theorem evolves_run {k : Unpacker} {p : Plan} (h : k.run t p mode = .ok u) : t.Evolves u := by
  cases k with
  | faithful => exact evolves_replace h
  | lazy =>
    cases h
    exact .refl _
  | empty =>
    simp only [Unpacker.run, bind_eq_ok, pure_eq_ok] at h
    obtain ⟨v, hv, rfl⟩ := h
    exact (evolves_replace hv).trans
      (Thread.evolves_of_subset rfl (List.nil_subset _) fun _ h => h)
  | short =>
    simp only [Unpacker.run, bind_eq_ok, pure_eq_ok] at h
    obtain ⟨v, hv, rfl⟩ := h
    exact (evolves_replace hv).trans v.evolves_pop
  | skewed =>
    simp only [Unpacker.run, bind_eq_ok] at h
    obtain ⟨v, hv, h⟩ := h
    exact (evolves_replace hv).trans (evolves_onTop skew_cases h)
  | entry =>
    simp only [Unpacker.run, bind_eq_ok] at h
    obtain ⟨v, hv, h⟩ := h
    refine (evolves_replace hv).trans (evolves_onTop ?_ h)
    rintro x y ⟨⟩
    exact .inr rfl

theorem evolves_unpack {k : Unpacker} {verify : Bool} {ty : BasicType}
    (h : unpack k verify t mode = .ok (ty, u)) : t.Evolves u := by
  obtain ⟨p, v, -, hv, rfl⟩ := unpack_spec h
  exact (evolves_run hv).trans (Thread.evolves_of_subset rfl (List.Subset.refl _) fun _ h => h)

end Unwind
end Bailout
