import Bailout.Proofs.Restore.Graph
import Bailout.Proofs.Restore.Refusals

/-!
# One attempt for each object

Allocation asks for every described object in turn. What comes of it is found in the entry of the
description, and only a request that the heap grants changes the memory that the next one finds.
Each object that the heap granted is then filled in, whatever came of the others.
-/

namespace Bailout.Restore

variable {s : Supply} {f : CompiledFrame} {d : Description} {ds : List Description}
  {m m' : Memory} {p p' : Progress} {os : List (Option Ref)} {o : Option Ref} {r : Ref}

/-- Asking for the object of a description: the memory before, the object if there is one, and the
memory after. -/
inductive Attempt (s : Supply) (f : CompiledFrame) (d : Description) :
    Memory → Option Ref → Memory → Prop
  /-- There is a shared box. -/
  | shared {m : Memory} {r : Ref} (h : lookup s f {} d = .ok (.hit r)) : Attempt s f d m (some r) m
  /-- The boxes of the type could not be made. -/
  | unavailable {m : Memory} (h : lookup s f {} d = .ok .unavailable) : Attempt s f d m none m
  /-- The heap refuses the object. -/
  | refused {m : Memory} {e : HeapExhausted} (h : lookup s f {} d = .ok .miss)
      (hnew : newObject m d = .ok (.error e)) : Attempt s f d m none m
  /-- The heap grants the object. -/
  | granted {m m' : Memory} {r : Ref} (h : lookup s f {} d = .ok .miss)
      (hnew : newObject m d = .ok (.ok (r, m'))) : Attempt s f d m (some r) m'

/-- One attempt for each of some descriptions, each with the memory that the one before it left. -/
inductive Attempts (s : Supply) (f : CompiledFrame) :
    Memory → List Description → List (Option Ref) → Memory → Prop
  | nil (m : Memory) : Attempts s f m [] [] m
  | cons {d : Description} {ds : List Description} {m m₁ m' : Memory} {o : Option Ref}
      {os : List (Option Ref)} (h : Attempt s f d m o m₁) (hs : Attempts s f m₁ ds os m') :
      Attempts s f m (d :: ds) (o :: os) m'

/-- What is lacking was not made before, or is refused by the heap as it is. -/
lemma Attempt.lacking (h : Attempt s f d m none m') :
    m' = m ∧ (lookup s f {} d = .ok .unavailable ∨
      lookup s f {} d = .ok .miss ∧ ∃ e, newObject m d = .ok (.error e)) := by
  cases h with
  | unavailable h => exact ⟨rfl, .inl h⟩
  | refused h hnew => exact ⟨rfl, .inr ⟨h, _, hnew⟩⟩

lemma Attempt.eq_of_hit (h : Attempt s f d m o m') (hr : lookup s f {} d = .ok (.hit r)) :
    o = some r := by
  cases h with
  | shared h =>
    rw [hr] at h
    cases h
    rfl
  | unavailable h | refused h _ | granted h _ =>
    rw [hr] at h
    cases h

lemma attempt_of_allocateOne (h : allocateOne s f p d = .ok p') :
    Attempt s f d p.memory (p'.table.get d.id) p'.memory := by
  rcases allocateOne_cases h with
    ⟨r, hb, rfl⟩ | ⟨hb, rfl⟩ | ⟨e, hb, hnew, rfl⟩ | ⟨r, m, hb, hnew, rfl⟩
  · simpa [Restored.get_insert] using .shared hb
  · simpa [Progress.refuse, Restored.get_insert] using .unavailable hb
  · simpa [Progress.refuse, Restored.get_insert] using .refused hb hnew
  · simpa [Restored.get_insert] using .granted hb hnew

/-- The entry of a description stays as it is while other objects are allocated. -/
lemma get_of_foldlM (h : ds.foldlM (allocateOne s f) p = .ok p') {id : Nat}
    (hid : id ∉ ds.map Description.id) : p'.table.get id = p.table.get id := by
  refine foldlM_induction (fun pre q => id ∉ pre.map Description.id →
    q.table.get id = p.table.get id) (fun _ => rfl) (fun pre d q q' hpre hd hmem => ?_) h hid
  rw [List.map_append, List.mem_append, not_or] at hmem
  rw [(allots_of_allocateOne hd).kept id (by simpa using hmem.2), hpre hmem.1]

/-- Every object is asked for, in the order of the descriptions, and what comes of it is the entry.
Allocation has failed if some object is lacking. -/
theorem attempts_of_foldlM (hids : (ds.map Description.id).Nodup)
    (h : ds.foldlM (allocateOne s f) p = .ok p') :
    Attempts s f p.memory ds (ds.map fun d => p'.table.get d.id) p'.memory ∧
      (p'.failed = true ↔ p.failed = true ∨ ∃ d ∈ ds, p'.table.get d.id = none) := by
  induction ds generalizing p with
  | nil =>
    cases h
    exact ⟨.nil _, by simp⟩
  | cons d ds ih =>
    rw [List.foldlM_cons, bind_eq_ok] at h
    obtain ⟨p₁, hd, h⟩ := h
    obtain ⟨hnew, hids⟩ := List.nodup_cons.1 hids
    obtain ⟨hattempts, hfailed⟩ := ih hids h
    have hself := get_of_foldlM h hnew
    constructor
    · rw [List.map_cons, hself]
      exact .cons (attempt_of_allocateOne hd) hattempts
    · simp only [hfailed, failed_iff hd, List.mem_cons, exists_eq_or_imp, hself, or_assoc]

/-- What comes of a description is one of the attempts. -/
lemma Attempts.exists_attempt {g : Description → Option Ref}
    (h : Attempts s f m ds (ds.map g) m') (hd : d ∈ ds) : ∃ m₁ m₂, Attempt s f d m₁ (g d) m₂ := by
  induction ds generalizing m with
  | nil => cases hd
  | cons e ds ih =>
    cases h with
    | cons h hs =>
      rcases List.mem_cons.1 hd with rfl | hd
      · exact ⟨_, _, h⟩
      · exact ih hs hd

/-! ### Restoring objects -/

variable {pending : Option Thrown} {mode : Mode} {out : Outcome}

/-- What restoring objects came to, description after description. -/
structure Attempted (s : Supply) (m : Memory) (pending : Option Thrown) (mode : Mode)
    (f : CompiledFrame) (ds : List Description) (out : Outcome) : Prop where
  ids : (ds.map Description.id).Nodup
  /-- Every object is asked for, in order. -/
  attempts : ∃ m', Attempts s f m ds (ds.map fun d => out.table.get d.id) m' ∧
    out.memory.heap = m'.heap
  contains : ∀ id, out.table.contains id = true ↔ ∃ d ∈ ds, d.id = id
  failed : out.failed = true ↔ ∃ d ∈ ds, out.table.get d.id = none
  pending : out.pending = pendingAfter mode out.failed pending
  cached : ∀ d ∈ ds, out.table.isCached d.id = true ↔ ∃ r, lookup s f {} d = .ok (.hit r)
  /-- What stands for a description is a shared box or new. -/
  origin : ∀ d ∈ ds, ∀ r, out.table.get d.id = some r → lookup s f {} d = .ok (.hit r) ∨
    lookup s f {} d = .ok .miss ∧ m.store.objects.size ≤ r.index ∧ out.memory.store.Has r
  /-- No new object stands for two descriptions. -/
  distinct : ∀ i j r, m.store.objects.size ≤ r.index → out.table.get i = some r →
    out.table.get j = some r → i = j
  /-- What is no shared box was blank and is filled in. -/
  filled : ∀ d ∈ ds, out.table.isCached d.id = false → ∀ r, out.table.get d.id = some r →
    ∃ x b, Blank d x ∧ filledBody f out.table d x.body = .ok b ∧
      out.memory.store.get r = { x with body := b }
  kept : m.store.Extends out.memory.store

theorem attempted_of_objects (hboxes : ∀ ty w q, s.boxes.lookup ty w = .hit q → m.store.Has q)
    (h : objects s m pending mode f ds = .ok out) : Attempted s m pending mode f ds out := by
  have hkept := (leftover_of_objects h).extends_store
  unfold objects at h
  split_ifs at h with hds
  · rw [List.isEmpty_iff] at hds
    subst hds
    cases h
    refine ⟨.nil, ⟨m, .nil m, rfl⟩, ?_, by simp, rfl, by simp, by simp, nofun, by simp, hkept⟩
    simp [Restored.contains, Table.contains]
  · simp only [allocate, bind_eq_ok, pure_eq_ok] at h
    obtain ⟨p, hp, store, hstore, rfl⟩ := h
    have hallotted := allotted_of_foldlM hp
    have hstocked := stocked_of_foldlM hp
    obtain ⟨hattempts, hfailed⟩ := attempts_of_foldlM hallotted.ids hp
    have hfills := fills_of_fill (hallotted.distinct hboxes) hallotted.ids hstore
    refine ⟨hallotted.ids, ⟨p.memory, hattempts, rfl⟩, hallotted.contains, by simpa using hfailed,
      rfl, fun d hd => hallotted.isCached_iff hd, ?_, hallotted.unique hboxes, ?_, hkept⟩
    · intro d hd r hr
      refine (hallotted.origin hd hr).imp_right (.imp_right (.imp_right fun hhas => ?_))
      exact hhas.mono hfills.size.ge
    · intro d hd hcached r hr
      obtain ⟨b, hb, hget⟩ := hfills.filled d hd hcached r hr (hallotted.new hcached hr).2
      have hmiss := hallotted.miss hd (by simp [hcached]) hr
      exact ⟨_, b, hstocked.blank d hd hmiss r hr, hb, hget⟩

end Bailout.Restore
