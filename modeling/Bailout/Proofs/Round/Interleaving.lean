import Mathlib.Data.List.Perm.Basic
import Mathlib.Logic.Relation
import Bailout.Proofs.Checked
import Bailout.Round.Commit
import Bailout.Stack.Call

/-!
# Interleaved commits

Any number of parties collect marks and commit them, each at its own pace, while threads go on
running. A commit is taken apart into the steps that nobody can interrupt: what happens while the
generations are locked, the retirement of one region, the visit of one thread. Between two steps of
one party every other party and every thread may move.

For the statements each party remembers the regions that it asked for, and the world remembers at
which address each frame was pushed.
-/

namespace Bailout

/-- What is left of marking a region once the region was seen in use: the part that runs while the
generations are locked. The region may have been closed in between. -/
def Batch.tag (b : Batch) (g : Generations) (c : CodeCache) (ref : Nat) (counts : Bool) :
    Checked (Batch × CodeCache) :=
  if (c.state ref).mark.isPending then return (b.await (c.state ref).generation, c)
  else do
    guarantee (g.committed < g.active) (.generationNotAhead g.active g.committed)
    return (⟨g.active⟩, c.modify ref fun s => s.withMark counts g.active)

/-- Marking looks whether the region is in use and then tags it. -/
lemma Batch.mark_eq (b : Batch) (g : Generations) (c : CodeCache) (ref : Nat) (counts : Bool) :
    b.mark g c ref counts = if (c.state ref).inUse then b.tag g c ref counts else .ok (b, c) := by
  cases h : (c.state ref).inUse <;> simp [mark, tag, h]

/-- How far a party has come with its batch. -/
inductive Stage where
  /-- Marks are collected. -/
  | building
  /-- A region was seen in use and is going to be tagged. -/
  | marking (ref : Nat) (counts : Bool)
  /-- The commit waits for its generation, or for a round of its own. -/
  | waiting
  /-- The commit runs a round and looks for the regions to retire. -/
  | scanning (target : Nat) (todo found : List Nat)
  /-- The round retires regions, `total` in all. -/
  | retiring (target : Nat) (todo : List Nat) (total : Nat)
  /-- The round visits threads. -/
  | visiting (target : Nat) (todo : List Nat)
  /-- The round is over and the commit checks what it came to. -/
  | checking
  | returned
  deriving DecidableEq, Repr, Inhabited

/-- The generation that the round of a party brings to an end, while it runs. -/
def Stage.target? : Stage → Option Nat
  | scanning t .. | retiring t .. | visiting t .. => some t
  | _ => none

/-- Someone who collects a batch of marks and commits it. -/
structure Party where
  batch : Batch
  /-- The regions that were tagged for it, or found pending when they were to be. -/
  asked : List Nat := []
  stage : Stage := .building
  deriving DecidableEq, Repr, Inhabited

/-- Everything that parties and threads share, and the parties. -/
structure World extends Rounds where
  parties : List Party := []
  /-- The address at which a thread, by position, pushed a frame, by id. -/
  origin : Nat → Nat → Nat := fun _ _ => 0

namespace World

abbrev code (w : World) : CodeCache := w.program.code

def put (w : World) (i : Nat) (q : Party) : World := { w with parties := w.parties.set i q }

def setCode (w : World) (code : CodeCache) : World :=
  { w with program := { w.program with code } }

def setThread (w : World) (t : Nat) (thread : Thread) : World :=
  { w with roster := w.roster.set t thread }

/-- The world at the start: the runtime is up, and nothing is installed, registered or asked for.
Methods are there already. -/
def start (methods : Array MethodState) : World :=
  { program := { methods }, roster := { initialized := true } }

/-- A step of a party; `cutoff` is the number of invalidations after which a method is given up. -/
inductive PartyStep (cutoff : Nat) (w : World) : World → Prop where
  | begin : PartyStep cutoff w
      { w with parties := w.parties ++ [{ batch := .start w.generations }] }
  /-- A region that is in use is going to be tagged. One that is not is ignored. -/
  | look {i : Nat} {q : Party} {ref : Nat} (counts : Bool) (hi : w.parties[i]? = some q)
      (hq : q.stage = .building) (hr : ref < w.code.regions.size)
      (hu : (w.code.state ref).inUse = true) :
      PartyStep cutoff w (w.put i { q with stage := .marking ref counts })
  | tag {i : Nat} {q : Party} {ref : Nat} {counts : Bool} {batch : Batch} {code : CodeCache}
      (hi : w.parties[i]? = some q) (hq : q.stage = .marking ref counts)
      (ht : q.batch.tag w.generations w.code ref counts = .ok (batch, code)) :
      PartyStep cutoff w
        ((w.setCode code).put i { batch, asked := ref :: q.asked, stage := .building })
  | dependOn {i : Nat} {q : Party} {ref : Nat} (hi : w.parties[i]? = some q)
      (hq : q.stage = .building) (hr : ref < w.code.regions.size) :
      PartyStep cutoff w (w.put i { q with batch := q.batch.dependOn w.code ref })
  | commit {i : Nat} {q : Party} (hi : w.parties[i]? = some q) (hq : q.stage = .building) :
      PartyStep cutoff w (w.put i { q with stage := .waiting })
  /-- The round of another party committed the generation. -/
  | satisfied {i : Nat} {q : Party} {g : Generations} (hi : w.parties[i]? = some q)
      (hq : q.stage = .waiting)
      (hc : w.generations.claim q.batch.required = .ok (.satisfied, g)) :
      PartyStep cutoff w (w.put i { q with stage := .returned })
  /-- A round is claimed. The installed regions are gone through in any order. -/
  | claim {i : Nat} {q : Party} {target : Nat} {g : Generations} {todo : List Nat}
      (hi : w.parties[i]? = some q) (hq : q.stage = .waiting)
      (hc : w.generations.claim q.batch.required = .ok (.claimed target, g))
      (hp : todo.Perm w.code.installed.values) :
      PartyStep cutoff w
        (put { w with generations := g } i { q with stage := .scanning target todo [] })
  | scan {i : Nat} {q : Party} {target r : Nat} {todo found : List Nat}
      (hi : w.parties[i]? = some q) (hq : q.stage = .scanning target (r :: todo) found) :
      PartyStep cutoff w (w.put i { q with
        stage := .scanning target todo
          (if w.code.isMarkedUpTo target r then found ++ [r] else found) })
  | scanned {i : Nat} {q : Party} {target : Nat} {found : List Nat}
      (hi : w.parties[i]? = some q) (hq : q.stage = .scanning target [] found) :
      PartyStep cutoff w (w.put i { q with stage := .retiring target found found.length })
  | retire {i : Nat} {q : Party} {target r total : Nat} {todo : List Nat} {p : Program}
      (hi : w.parties[i]? = some q) (hq : q.stage = .retiring target (r :: todo) total)
      (hp : w.program.retire cutoff r = .ok p) :
      PartyStep cutoff w
        (put { w with program := p } i { q with stage := .retiring target todo total })
  /-- The handshake begins with the threads that are registered by then. -/
  | handshake {i : Nat} {q : Party} {target total : Nat} (hi : w.parties[i]? = some q)
      (hq : q.stage = .retiring target [] total) :
      PartyStep cutoff w (put { w with
        program := { w.program with
          code := { w.code with deoptimizations := w.code.deoptimizations + total } }
        roster := { w.roster with handshakes := w.roster.handshakes + 1 }
        count := w.count + 1 } i { q with stage := .visiting target w.roster.registered })
  | visit {i : Nat} {q : Party} {target t : Nat} {todo : List Nat} {h : Histogram}
      {roster : Roster} (hi : w.parties[i]? = some q)
      (hq : q.stage = .visiting target (t :: todo))
      (hv : Roster.visit (Rounds.visit w.code) (w.histogram, w.roster) t = .ok (h, roster)) :
      PartyStep cutoff w
        (put { w with histogram := h, roster } i { q with stage := .visiting target todo })
  | finish {i : Nat} {q : Party} {target : Nat} {g : Generations}
      (hi : w.parties[i]? = some q) (hq : q.stage = .visiting target [])
      (hg : w.generations.finish target = .ok g) :
      PartyStep cutoff w (put { w with generations := g } i { q with stage := .checking })
  | check {i : Nat} {q : Party} (hi : w.parties[i]? = some q) (hq : q.stage = .checking)
      (hc : q.batch.required ≤ w.generations.committed) :
      PartyStep cutoff w (w.put i { q with stage := .returned })

/-- A step of a thread, or of whoever compiles and loads code. Compiled code is entered only while
it is in use. -/
inductive ThreadStep (cutoff : Nat) (w : World) : World → Prop where
  | call {t ref words pc : Nat} {contents : Thread.Contents} {thread : Thread}
      (ht : t < w.roster.threads.size) (hr : ref < w.code.regions.size)
      (hu : (w.code.state ref).inUse = true)
      (hp : (w.roster.thread t).pushCompiled (w.code.region ref) contents words pc = .ok thread) :
      ThreadStep cutoff w { w.setThread t thread with
        origin := Function.update w.origin t
          (Function.update (w.origin t) thread.lastFrameId pc) }
  | push {t words pc : Nat} {kind : FrameKind} {thread : Thread}
      (ht : t < w.roster.threads.size) (hk : kind.compiled? = none)
      (hp : (w.roster.thread t).push words pc kind = .ok thread) :
      ThreadStep cutoff w { w.setThread t thread with
        origin := Function.update w.origin t
          (Function.update (w.origin t) thread.lastFrameId pc) }
  | pop {t : Nat} (ht : t < w.roster.threads.size) :
      ThreadStep cutoff w (w.setThread t (w.roster.thread t).pop.2)
  /-- A frame is patched by itself, for whatever reason. -/
  | patch {t : Nat} {f g : Frame} {b : Bool} (ht : t < w.roster.threads.size)
      (hf : (w.roster.thread t).frame? f.id = some f) (hg : f.patch = .ok (b, g)) :
      ThreadStep cutoff w (w.setThread t ((w.roster.thread t).setFrame g))
  | register (id : Nat) (name : String) :
      ThreadStep cutoff w { w with roster := w.roster.register id name }
  | unregister (id : Nat) : ThreadStep cutoff w { w with roster := (w.roster.unregister id).2 }
  /-- A trap makes the region that it came from not entrant. -/
  | trap {ref : Nat} {b : Bool} {p : Program} (hr : ref < w.code.regions.size)
      (hp : w.program.invalidate ref cutoff = .ok (b, p)) :
      ThreadStep cutoff w { w with program := p }
  | install (r : Region) : ThreadStep cutoff w (w.setCode (w.code.install r))
  | remove (compileId : Nat) : ThreadStep cutoff w (w.setCode (w.code.remove compileId))
  /-- Profiles, counters and addresses change without regard to rounds. -/
  | profile (methods : Array MethodState) (histogram : Histogram) (nextAddress : Nat) :
      ThreadStep cutoff w { w with
        program := { methods, code := { w.code with nextAddress } }
        histogram }

def Step (cutoff : Nat) (w w' : World) : Prop := PartyStep cutoff w w' ∨ ThreadStep cutoff w w'

/-- The worlds that some interleaving leads to. -/
def Reachable (cutoff : Nat) (w : World) : Prop :=
  ∃ methods, Relation.ReflTransGen (Step cutoff) (start methods) w

end World
end Bailout
