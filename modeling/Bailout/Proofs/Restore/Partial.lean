import Bailout.Proofs.Restore.Holds

/-!
# Restoring in part

A refusal strikes the object that it is for and no other. Whichever objects of a frame are refused,
all of them are asked for, and those that are there are filled in completely; where one of them
refers to a refused one, it holds null.
-/

namespace Bailout.Restore

variable {s : Supply} {f : CompiledFrame} {ds : List Description} {m m' : Memory}

/-- The objects that are there are granted just as well if the others are not even asked for. -/
lemma Attempts.filter {g : Description → Option Ref} (h : Attempts s f m ds (ds.map g) m') :
    Attempts s f m (ds.filter fun d => (g d).isSome)
      ((ds.filter fun d => (g d).isSome).map g) m' := by
  induction ds generalizing m with
  | nil => exact h
  | cons d ds ih =>
    cases h with
    | cons h hs =>
      cases hg : g d with
      | none =>
        rw [hg] at h
        obtain ⟨rfl, -⟩ := h.lacking
        rw [List.filter_cons_of_neg (by simp [hg])]
        exact ih hs
      | some r =>
        rw [List.filter_cons_of_pos (by simp [hg]), List.map_cons]
        exact .cons h (ih hs)

/-- Objects were restored, perhaps not all of them. -/
structure RestoresInPart (s : Supply) (m : Memory) (pending : Option Thrown) (mode : Mode)
    (f : CompiledFrame) (ds : List Description) (out : Outcome) : Prop where
  /-- Every object is asked for, in order, and those that are there do not depend on the others. -/
  attempts : ∃ m', Attempts s f m ds (ds.map fun d => out.table.get d.id) m' ∧
    Attempts s f m (ds.filter fun d => (out.table.get d.id).isSome)
      ((ds.filter fun d => (out.table.get d.id).isSome).map fun d => out.table.get d.id) m' ∧
    out.memory.heap = m'.heap
  contains : ∀ id, out.table.contains id = true ↔ ∃ d ∈ ds, d.id = id
  failed : out.failed = true ↔ ∃ d ∈ ds, out.table.get d.id = none
  pending_of_failed : out.failed = true → mode ≠ .inspect → out.pending = some .outOfMemory
  /-- An inspector learns of the refusal, and the thread does not. -/
  pending_of_inspect : out.failed = true → mode = .inspect → out.pending = none
  pending_of_granted : out.failed = false → out.pending = pending
  /-- What is there and is no shared box is filled in. -/
  filled : ∀ d ∈ ds, ∀ r, out.table.get d.id = some r → out.table.isCached d.id = false →
    (out.memory.store.get r).klass = d.klass ∧ Holds f out.table d (out.memory.store.body r)
  /-- Where its description names another one, there is the object of that one, or null. -/
  named : ∀ d ∈ ds, ∀ r, out.table.get d.id = some r → out.table.isCached d.id = false →
    ∀ i, ∀ e ∈ ds, Refers f d i (.eliminated e.id) →
      (out.memory.store.body r).target? i = out.table.get e.id
  cached : ∀ d ∈ ds, out.table.isCached d.id = true ↔ ∃ r, lookup s f {} d = .ok (.hit r)
  /-- What was there is untouched, the shared boxes among it. -/
  kept : m.store.Extends out.memory.store

theorem restoresInPart_of_objects (hboxes : ∀ ty w q, s.boxes.lookup ty w = .hit q → m.store.Has q)
    {pending : Option Thrown} {mode : Mode} {out : Outcome}
    (h : objects s m pending mode f ds = .ok out) :
    RestoresInPart s m pending mode f ds out := by
  have hall := attempted_of_objects hboxes h
  have hpending := hall.pending
  obtain ⟨m', hattempts, hheap⟩ := hall.attempts
  constructor
  case attempts => exact ⟨m', hattempts, hattempts.filter, hheap⟩
  case contains => exact hall.contains
  case failed => exact hall.failed
  case pending_of_failed =>
    intro hf hmode
    rw [hpending, pendingAfter, if_pos hf, if_neg hmode]
  case pending_of_inspect =>
    intro hf hmode
    rw [hpending, pendingAfter, if_pos hf, if_pos hmode]
  case pending_of_granted =>
    intro hf
    rw [hpending, pendingAfter, if_neg (by simp [hf])]
  case filled =>
    intro d hd r hr hcached
    obtain ⟨x, b, hblank, hb, hget⟩ := hall.filled d hd hcached r hr
    rw [Store.body, hget]
    exact ⟨hblank.klass, holds_of_filledBody hblank hb⟩
  case named =>
    intro d hd r hr hcached i e he hrefers
    obtain ⟨x, b, hblank, hb, hget⟩ := hall.filled d hd hcached r hr
    obtain ⟨v, hv, htarget⟩ := (hblank.depicts hb).refers i _ hrefers
    cases hv
    rw [Store.body, hget]
    exact htarget
  case cached => exact hall.cached
  case kept => exact hall.kept

/-- Whatever the heap and the box caches refuse, restoring the objects of descriptions in order
comes to something, and nothing is left out. All objects are asked for, each has an entry, and
restoring has failed if and only if one of them is lacking. Then an out-of-memory error takes the
place of what was pending, and else that stays. What is there is filled in with the values of its
sources, a lacking object being null. -/
theorem restoresInPart (hboxes : ∀ ty w q, s.boxes.lookup ty w = .hit q → m.store.Has q)
    (hds : InOrder s f ds) (pending : Option Thrown) (mode : Mode) :
    ∃ out, objects s m pending mode f ds = .ok out ∧
      RestoresInPart s m pending mode f ds out := by
  obtain ⟨out, hout⟩ := exists_objects hds m pending mode
  exact ⟨out, hout, restoresInPart_of_objects hboxes hout⟩

/-- The descriptions of the nodes in a cycle are in order. -/
lemma Cyclic.inOrder : InOrder Cyclic.supply Cyclic.compiled Cyclic.record.objects := by
  have hrun : ∃ o, objectsIfEnabled Cyclic.supply Cyclic.memory none .plain Cyclic.compiled
      Cyclic.record.objects = .ok o ∧ o.failed = false := ⟨_, rfl, rfl⟩
  obtain ⟨o, ho, hfailed⟩ := hrun
  exact inOrder_of_objects rfl ho hfailed

/-- A memory whose heap has room for one more object. -/
def Cyclic.scarce : Memory := { memory with heap := { allocations := 1, limit := 2 } }

/-- A heap with room for one object refuses the second node and the array. The first node refers to
null and to itself, and the shared box is found. -/
theorem restoresInPart_cyclic : ∃ out,
    (∀ ty w q, Cyclic.supply.boxes.lookup ty w = .hit q → Cyclic.scarce.store.Has q) ∧
    InOrder Cyclic.supply Cyclic.compiled Cyclic.record.objects ∧
    objects Cyclic.supply Cyclic.scarce none .plain Cyclic.compiled Cyclic.record.objects =
      .ok out ∧
    RestoresInPart Cyclic.supply Cyclic.scarce none .plain Cyclic.compiled Cyclic.record.objects
      out ∧
    out.pending = some .outOfMemory ∧ out.table.get 1 = some ⟨1⟩ ∧ out.table.get 2 = none ∧
    out.table.get 3 = none ∧ out.table.isCached 4 = true ∧
    (out.memory.store.body ⟨1⟩).target? 1 = none ∧
    (out.memory.store.body ⟨1⟩).target? 2 = some ⟨1⟩ := by
  obtain ⟨out, hout, hpart⟩ := restoresInPart
    (m := Cyclic.scarce) (fun _ _ _ => Cyclic.has_of_boxes_lookup) Cyclic.inOrder none .plain
  cases hout
  exact ⟨_, fun _ _ _ => Cyclic.has_of_boxes_lookup, Cyclic.inOrder, rfl, hpart, rfl, rfl, rfl, rfl,
    rfl, rfl, rfl⟩

end Bailout.Restore
