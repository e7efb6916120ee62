import Bailout.Proofs.Machine.Escalation

/-!
# Constant pools stand apart

Only the resolution of a class looks at constant pools and at the classes that can be found. With
other pools and other classes everything else that a trap does is the same, and it gives the pools
back that it was given. Each operation has an equation that says so, and what it leaves of the pools
follows from the equation.
-/

namespace Bailout

/-! ### States of methods -/

namespace MethodState

variable {s : MethodState} {x : Pool}

/-- A state with another pool. -/
def withPool (s : MethodState) (x : Pool) : MethodState := { s with pool := x }

@[simp] lemma profile_withPool (s : MethodState) (x : Pool) :
    (s.withPool x).profile = s.profile := rfl

@[simp] lemma notCompilable_withPool (s : MethodState) (x : Pool) :
    (s.withPool x).notCompilable = s.notCompilable := rfl

@[simp] lemma pool_withPool (s : MethodState) (x : Pool) : (s.withPool x).pool = x := rfl

lemma charge_withPool (s : MethodState) (x : Pool) (cutoff : Nat) :
    (s.withPool x).charge cutoff = (s.charge cutoff).map (·.withPool x) := by
  unfold charge
  rw [profile_withPool]
  cases hp : s.profile with
  | none => rfl
  | some p =>
    cases hcount : p.countDecompile with
    | error e => simp [hcount, bind, Except.bind, Except.map]
    | ok p' =>
      simp only [hcount, ok_bind]
      split_ifs <;> rfl

lemma profiled_withPool (s : MethodState) (x : Pool) (c : Config) :
    (s.withPool x).profiled c = (s.profiled c).withPool x := by
  unfold profiled
  split_ifs <;> rfl

lemma consult_withPool (s : MethodState) (x : Pool) (bci : Nat) (r : Reason) (a : Action) :
    (s.withPool x).consult bci r a = Prod.map id (·.withPool x) (s.consult bci r a) := by
  unfold consult
  rw [profile_withPool]
  cases s.profile with
  | none => rfl
  | some p =>
    simp only
    split_ifs <;> rfl

end MethodState

/-! ### Programs -/

namespace Program

variable {p p' : Program} {g : Nat → Pool} {f f' : MethodState → MethodState}
  {M ref cutoff : Nat}

/-- A program with other pools. -/
def withPools (p : Program) (g : Nat → Pool) : Program :=
  { p with methods := p.methods.mapIdx fun M s => s.withPool (g M) }

/-- The pool of a method. -/
def pool (p : Program) (M : Nat) : Pool := (p.method M).pool

@[simp] lemma code_withPools (p : Program) (g : Nat → Pool) : (p.withPools g).code = p.code := rfl

lemma withPools_pool (p : Program) : p.withPools p.pool = p := by
  have hmethods : (p.methods.mapIdx fun M s => s.withPool (p.pool M)) = p.methods := by
    refine Array.ext_getElem? fun M => ?_
    rw [Array.getElem?_mapIdx]
    cases hM : p.methods[M]? with
    | none => rfl
    | some s =>
      have hs : p.method M = s := by simp [method, hM]
      rw [Option.map_some, pool, hs]
      rfl
  rw [withPools, hmethods]

lemma method_withPools (p : Program) (g : Nat → Pool) (M : Nat) : (p.withPools g).method M =
    (p.method M).withPool (if M < p.methods.size then g M else {}) := by
  split_ifs with hM
  · simp [withPools, method, hM]
  · simp [withPools, method, hM]
    rfl

lemma pool_of_size_le (h : p.methods.size ≤ M) : p.pool M = {} := by
  rw [pool, method, Array.getD_eq_getD_getElem?, Array.getElem?_eq_none h]
  rfl

lemma pool_withPools (hM : p.methods.size ≤ M → g M = {}) : (p.withPools g).pool M = g M := by
  rw [pool, method_withPools, MethodState.pool_withPool]
  split_ifs with hlt
  · rfl
  · exact (hM (Nat.not_lt.1 hlt)).symm

lemma modifyMethod_withPools
    (hf : ref < p.methods.size → f ((p.method ref).withPool (g ref)) =
      (f' (p.method ref)).withPool (g ref)) :
    (p.withPools g).modifyMethod ref f = (p.modifyMethod ref f').withPools g := by
  have hmethods : (p.withPools g).methods.modify ref f =
      (p.methods.modify ref f').mapIdx fun M s => s.withPool (g M) := by
    refine Array.ext_getElem? fun M => ?_
    rw [Array.getElem?_modify, Array.getElem?_mapIdx, Array.getElem?_modify]
    simp only [withPools, Array.getElem?_mapIdx]
    cases hM : p.methods[M]? with
    | none => split_ifs <;> rfl
    | some s =>
      have hs : p.method M = s := by simp [method, hM]
      split_ifs with heq
      · subst heq
        obtain ⟨hlt, -⟩ := Array.getElem?_eq_some_iff.1 hM
        simpa [hs] using hf hlt
      · rfl
  rw [modifyMethod, hmethods]
  rfl

lemma charge_eq (p : Program) (ref cutoff : Nat) : p.charge ref cutoff =
    if (p.code.state ref).mark = .uncounted then .ok p
    else (fun s => p.modifyMethod (p.code.region ref).method.ref fun _ => s) <$>
      (p.method (p.code.region ref).method.ref).charge cutoff := rfl

lemma charge_withPools (p : Program) (g : Nat → Pool) (ref cutoff : Nat) :
    (p.withPools g).charge ref cutoff = (p.charge ref cutoff).map (·.withPools g) := by
  rw [charge_eq, charge_eq, code_withPools]
  split_ifs
  · rfl
  · rw [method_withPools, MethodState.charge_withPool]
    cases (p.method (p.code.region ref).method.ref).charge cutoff with
    | error e => rfl
    | ok s =>
      refine congrArg Except.ok (modifyMethod_withPools fun hlt => ?_)
      rw [if_pos hlt]

/-- A program whose code was closed at a region, which counts as an invalidation. -/
def closeAt (p : Program) (ref : Nat) : Program :=
  { p with code := { (p.code.close ref).2 with
      invalidations := (p.code.close ref).2.invalidations + 1 } }

lemma invalidate_eq (p : Program) (ref cutoff : Nat) : p.invalidate ref cutoff =
    if (p.code.state ref).inUse then Prod.mk true <$> (p.closeAt ref).charge ref cutoff
    else .ok (false, p) := by
  rw [← CodeCache.close_inUse]
  rfl

lemma invalidate_withPools (p : Program) (g : Nat → Pool) (ref cutoff : Nat) :
    (p.withPools g).invalidate ref cutoff =
      (p.invalidate ref cutoff).map (Prod.map id (·.withPools g)) := by
  rw [invalidate_eq, invalidate_eq, code_withPools]
  split_ifs
  · have hclose : (p.withPools g).closeAt ref = (p.closeAt ref).withPools g := rfl
    rw [hclose, charge_withPools]
    cases (p.closeAt ref).charge ref cutoff <;> rfl
  · rfl

lemma reprofile_withPools (p : Program) (g : Nat → Pool) (ms : List Method) :
    (p.withPools g).reprofile ms = (p.reprofile ms).withPools g := by
  induction ms generalizing p with
  | nil => rfl
  | cons m ms ih =>
    have hstep : (p.withPools g).modifyMethod m.ref MethodState.resetCounters =
        (p.modifyMethod m.ref MethodState.resetCounters).withPools g :=
      modifyMethod_withPools fun _ => rfl
    show ((p.withPools g).modifyMethod m.ref MethodState.resetCounters).reprofile ms = _
    rw [hstep, ih]
    rfl

end Program

/-! ### Traps -/

namespace Machine

variable {m m' : Machine} {c : ClassTable} {g : Nat → Pool} {s : Site} {q : Request} {v : Verdict}
  {thread t : Nat}

/-- A machine with other pools, in which other classes can be found. -/
def withPools (m : Machine) (c : ClassTable) (g : Nat → Pool) : Machine :=
  { m with classes := c, program := m.program.withPools g }

lemma modifyMethod_withPools (m : Machine) (c : ClassTable) (g : Nat → Pool) (ref : Nat)
    {f : MethodState → MethodState} (hf : ∀ st x, f (MethodState.withPool st x) =
      (f st).withPool x) :
    (m.withPools c g).modifyMethod ref f = (m.modifyMethod ref f).withPools c g := by
  show { m.withPools c g with program := (m.program.withPools g).modifyMethod ref f } = _
  rw [Program.modifyMethod_withPools fun _ => hf _ _]
  rfl

@[simp] lemma config_withPools (m : Machine) (c : ClassTable) (g : Nat → Pool) :
    (m.withPools c g).config = m.config := rfl

@[simp] lemma profile_withPools (m : Machine) (c : ClassTable) (g : Nat → Pool) (M : Nat) :
    ((m.withPools c g).program.method M).profile = (m.program.method M).profile := by
  rw [withPools, Program.method_withPools, MethodState.profile_withPool]

@[simp] lemma notCompilable_withPools (m : Machine) (c : ClassTable) (g : Nat → Pool) (M : Nat) :
    ((m.withPools c g).program.method M).notCompilable = (m.program.method M).notCompilable := by
  rw [withPools, Program.method_withPools, MethodState.notCompilable_withPool]

lemma countRecompile_withPools (m : Machine) (c : ClassTable) (g : Nat → Pool) (s : Site)
    (v : Verdict) : (m.withPools c g).countRecompile s v =
      Prod.map id (·.withPools c g) (m.countRecompile s v) := by
  have hcount : ((m.withPools c g).modifyMethod s.trapped (·.mapHistory History.countOverflow)) =
      (m.modifyMethod s.trapped (·.mapHistory History.countOverflow)).withPools c g :=
    m.modifyMethod_withPools c g s.trapped fun _ _ => rfl
  simp only [countRecompile, profile_withPools, hcount, config_withPools]
  generalize m.modifyMethod s.trapped (·.mapHistory History.countOverflow) = m₁
  have hgive : (m₁.withPools c g).modifyMethod s.trapped MethodState.giveUp =
      (m₁.modifyMethod s.trapped MethodState.giveUp).withPools c g :=
    m₁.modifyMethod_withPools c g s.trapped fun _ _ => rfl
  rw [hgive]
  split_ifs <;> rfl

lemma carryOut_withPools (m : Machine) (c : ClassTable) (g : Nat → Pool) (s : Site) (v : Verdict) :
    (m.withPools c g).carryOut s v = (m.carryOut s v).map (·.withPools c g) := by
  have hreprofile : (if v.reprofile then
        { m.withPools c g with program := (m.withPools c g).program.reprofile s.methods }
      else m.withPools c g) =
      (if v.reprofile then { m with program := m.program.reprofile s.methods }
        else m).withPools c g := by
    split_ifs
    · rw [withPools, Program.reprofile_withPools]
      rfl
    · rfl
  simp only [carryOut, hreprofile]
  generalize (if v.reprofile then { m with program := m.program.reprofile s.methods } else m)
    = m₁
  have hgive : (m₁.withPools c g).modifyMethod s.compiled MethodState.giveUp =
      (m₁.modifyMethod s.compiled MethodState.giveUp).withPools c g :=
    m₁.modifyMethod_withPools c g s.compiled fun _ _ => rfl
  rw [notCompilable_withPools, hgive]
  split_ifs
  · cases ensure v.invalidate .precondition <;> rfl
  · rfl

lemma noteHandler_withPools (m : Machine) (c : ClassTable) (g : Nat → Pool) (s : Site) :
    (m.withPools c g).noteHandler s = (m.noteHandler s).withPools c g :=
  m.modifyMethod_withPools c g s.trapped fun _ _ => rfl

lemma invalidate_withPools (m : Machine) (c : ClassTable) (g : Nat → Pool) (ref : Nat) :
    (m.withPools c g).invalidate ref =
      (m.invalidate ref).map (Prod.map id (·.withPools c g)) := by
  have hinvalidate := m.program.invalidate_withPools g ref m.cutoff
  show (m.program.withPools g).invalidate ref m.cutoff >>= _ = _
  rw [hinvalidate, invalidate]
  cases m.program.invalidate ref m.cutoff <;> rfl

/-- What follows from a verdict once it is known whether code was invalidated. -/
def settle (m : Machine) (thread : Nat) (s : Site) (q : Request) (v : Verdict) : Checked Machine :=
  (fun m' => (m'.noteHandler s).reportTrap thread s q.reason
    ((m.countRecompile s v).1.action q.action)) <$>
      (m.countRecompile s v).2.carryOut s (m.countRecompile s v).1

lemma execute_eq (m : Machine) (thread : Nat) (s : Site) (q : Request) (v : Verdict) :
    m.execute thread s q v =
      if v.invalidate then m.invalidate s.region.ref >>= fun x =>
        if x.1 then
          (x.2.modifyMethod s.trapped
            (·.noteInvalidation s.scope.bci q.reason q.action)).settle thread s q v
        else .ok (x.2.reportTrap thread s q.reason (v.action q.action))
      else m.settle thread s q v := by
  unfold execute
  split_ifs
  · cases m.invalidate s.region.ref with
    | error e => rfl
    | ok x =>
      obtain ⟨news, m₁⟩ := x
      cases news <;> rfl
  · rfl

lemma settle_withPools (m : Machine) (c : ClassTable) (g : Nat → Pool) (thread : Nat) (s : Site)
    (q : Request) (v : Verdict) :
    (m.withPools c g).settle thread s q v = (m.settle thread s q v).map (·.withPools c g) := by
  rw [settle, settle, countRecompile_withPools, Prod.map_fst, Prod.map_snd, id, carryOut_withPools]
  cases (m.countRecompile s v).2.carryOut s (m.countRecompile s v).1 with
  | error e => rfl
  | ok m' =>
    have hnote := m'.noteHandler_withPools c g s
    refine congrArg Except.ok ?_
    beta_reduce
    rw [hnote]
    rfl

/-- A verdict is carried out in the same way with other pools. -/
lemma execute_withPools (m : Machine) (c : ClassTable) (g : Nat → Pool) (thread : Nat) (s : Site)
    (q : Request) (v : Verdict) :
    (m.withPools c g).execute thread s q v =
      (m.execute thread s q v).map (·.withPools c g) := by
  rw [execute_eq, execute_eq]
  split_ifs
  · rw [invalidate_withPools]
    cases m.invalidate s.region.ref with
    | error e => rfl
    | ok x =>
      obtain ⟨news, m₁⟩ := x
      cases news with
      | false => rfl
      | true =>
        have hnote := m₁.modifyMethod_withPools c g s.trapped
          (f := (·.noteInvalidation s.scope.bci q.reason q.action)) fun _ _ => rfl
        show ((m₁.withPools c g).modifyMethod s.trapped _).settle thread s q v = _
        rw [hnote, settle_withPools]
        rfl
  · rw [settle_withPools]

/-- Judge a trap by the profile of the method that it fired in, and record it there. -/
def judgeBy (m : Machine) (s : Site) (q : Request) : Verdict × Machine :=
  let x := (m.program.method s.trapped).consult s.scope.bci q.reason q.action
  (Verdict.decide q.reason q.action x.1 m.config, m.modifyMethod s.trapped fun _ => x.2)

lemma judgeBy_withPools (m : Machine) (c : ClassTable) (g : Nat → Pool) (s : Site) (q : Request) :
    (m.withPools c g).judgeBy s q = Prod.map id (·.withPools c g) (m.judgeBy s q) := by
  have hmethod : (m.withPools c g).program.method s.trapped =
      (m.program.method s.trapped).withPool
        (if s.trapped < m.program.methods.size then g s.trapped else {}) :=
    m.program.method_withPools g s.trapped
  simp only [judgeBy, hmethod, MethodState.consult_withPool, Prod.map_fst, Prod.map_snd, id]
  refine Prod.ext rfl ?_
  simp only [Prod.map_snd, modifyMethod, withPools]
  rw [Program.modifyMethod_withPools fun hlt => ?_]
  rw [if_pos hlt]

/-- Count a trap. -/
def countTrap (m : Machine) (s : Site) (q : Request) : Machine :=
  { m with histogram := m.histogram.gather q.reason q.action s.opcode? }

/-- Count and record a trap, and judge it, once the class that it names was looked for. -/
def assess (m : Machine) (s : Site) (q : Request) : Verdict × Machine :=
  ((m.countTrap s q).modifyMethod s.trapped (·.profiled m.config)).judgeBy s q

lemma assess_withPools (m : Machine) (c : ClassTable) (g : Nat → Pool) (s : Site) (q : Request) :
    (m.withPools c g).assess s q = Prod.map id (·.withPools c g) (m.assess s q) := by
  have hcount : (m.withPools c g).countTrap s q = (m.countTrap s q).withPools c g := rfl
  rw [assess, hcount, config_withPools,
    modifyMethod_withPools _ c g _ fun st x => st.profiled_withPool x m.config, judgeBy_withPools]
  rfl

lemma judge_eq (m : Machine) (s : Site) (q : Request) : m.judge s q =
    (m.modifyMethod s.trapped (·.resolveFor m.classes q)).assess s q := rfl

lemma size_methods_assess (m : Machine) (s : Site) (q : Request) :
    (m.assess s q).2.program.methods.size = m.program.methods.size := by
  simp only [assess, judgeBy, countTrap, modifyMethod, Program.size_methods_modifyMethod]

lemma size_methods_execute (h : m.execute thread s q v = .ok m') :
    m'.program.methods.size = m.program.methods.size := by
  rcases execute_cases h with
    ⟨m₂, -, h, hp', hc⟩ | ⟨-, -, hp, -⟩ | ⟨p, m₁, m₂, -, hp, rfl, h, hp', hc⟩
  · rw [hp', (learns_settle h).size]
  · rw [hp]
  · rw [hp', (learns_settle h).size, modifyMethod, Program.size_methods_modifyMethod]
    exact (Program.grows_invalidate hp).2.1

lemma fetch_withPools (m : Machine) (c : ClassTable) (g : Nat → Pool) (t : Nat) (mode : Mode) :
    (m.withPools c g).fetch t mode = (m.fetch t mode).map (Prod.map id (·.withPools c g)) := by
  show Unwind.fetch m.supply m.memory (m.thread t) mode >>= _ = _
  rw [fetch]
  cases Unwind.fetch m.supply m.memory (m.thread t) mode <;> rfl

/-- What is left of a trap without the resolution of the class that it names. -/
def passTrap (m : Machine) (t : Nat) (s : Site) (q : Request) : Checked (Layout × Machine) :=
  (m.assess s q).2.execute (m.thread t).id s q (m.assess s q).1 >>= (·.fetch t .uncommonTrap)

lemma passTrap_withPools (m : Machine) (c : ClassTable) (g : Nat → Pool) (t : Nat) (s : Site)
    (q : Request) : (m.withPools c g).passTrap t s q =
      (m.passTrap t s q).map (Prod.map id (·.withPools c g)) := by
  rw [passTrap, passTrap, assess_withPools, Prod.map_fst, Prod.map_snd, id, execute_withPools]
  show Except.map _ ((m.assess s q).2.execute (m.thread t).id s q (m.assess s q).1) >>= _ = _
  cases (m.assess s q).2.execute (m.thread t).id s q (m.assess s q).1 with
  | error e => rfl
  | ok m' => exact m'.fetch_withPools c g t .uncommonTrap

lemma size_methods_passTrap {l : Layout} (h : m.passTrap t s q = .ok (l, m')) :
    m'.program.methods.size = m.program.methods.size := by
  simp only [passTrap, fetch, bind_eq_ok, pure_eq_ok, Prod.mk.injEq] at h
  obtain ⟨m₁, hexecute, ⟨_, _⟩, -, -, rfl⟩ := h
  exact (size_methods_execute hexecute).trans (m.size_methods_assess s q)

end Machine
end Bailout
