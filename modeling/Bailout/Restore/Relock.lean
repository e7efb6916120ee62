import Bailout.Stack.Thread

/-!
# Entering eliminated monitors

The monitors that compiled code left out are entered on behalf of the thread, outermost activation
first. A thread that is being inspected and waits in one of them cannot hold it now; entering is put
off until the wait is over.
-/

namespace Bailout.Restore

/-- Enter the monitor of an object for a thread, or put that off. -/
def enterFor (s : Store) (t : Thread) (mode : Mode) (r : Ref) : Checked (Store × Thread) :=
  if mode = .inspect ∧ t.isWaitingOn r = true then
    return (s, { t with deferredRelocks := (t.deferredRelocks + 1) % counterLimit })
  else do
    let m ← (s.monitor r).enter t.id
    return (s.setMonitor r m, t)

/-- Enter one monitor if it was eliminated. An owner may only be missing if objects were refused. -/
def relockOne (mode : Mode) (failed : Bool) (st : Store × Thread) (g : Guard) :
    Checked (Store × Thread) :=
  if g.eliminated then
    if g.missing then do
      ensure failed .ownerMissing
      return st
    else match g.owner with
      | none => return st
      | some r => enterFor st.1 st.2 mode r
  else return st

/-- Enter the eliminated monitors of one activation, and say whether there are any. -/
def relock (mode : Mode) (failed : Bool) (st : Store × Thread) (gs : List Guard) :
    Checked (Bool × Store × Thread) := do
  let st ← gs.foldlM (relockOne mode failed) st
  return (gs.any Guard.eliminated, st)

/-- Enter the eliminated monitors of activations that are listed outermost first, and say whether
there are any. -/
def relockAll (f : CompiledFrame) (table : Restored) (mode : Mode) (failed : Bool)
    (st : Store × Thread) : List Scope → Checked (Bool × Store × Thread)
  | [] => return (false, st)
  | s :: ss => do
    let (here, st) ← relock mode failed st (← f.guards table s)
    let (later, st) ← relockAll f table mode failed st ss
    return (here || later, st)

end Bailout.Restore
