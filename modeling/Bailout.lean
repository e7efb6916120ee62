import Bailout.Activation.View
import Bailout.Config.Document
import Bailout.Config.Overrides
import Bailout.Machine.Cycle
import Bailout.Machine.Inspect
import Bailout.Proofs.Compiled.Search
import Bailout.Proofs.Machine.Charges
import Bailout.Proofs.Machine.Classes
import Bailout.Proofs.Machine.Early
import Bailout.Proofs.Machine.Monotone
import Bailout.Proofs.Machine.Refused
import Bailout.Proofs.Machine.Stacks
import Bailout.Proofs.Machine.Unasked
import Bailout.Proofs.Object.Holding
import Bailout.Proofs.Object.Inheritance
import Bailout.Proofs.Restore.Partial
import Bailout.Proofs.Restore.Sharing
import Bailout.Proofs.Round.Ignored
import Bailout.Proofs.Round.Ordered
import Bailout.Proofs.Round.Sequential
import Bailout.Proofs.Trap.Encoding
import Bailout.Proofs.Trap.Peek
import Bailout.Proofs.Trap.Totals
import Bailout.Proofs.Unwind.Balance
import Bailout.Proofs.Unwind.Forced
import Bailout.Proofs.Unwind.Resume
import Bailout.Stack.Roots
