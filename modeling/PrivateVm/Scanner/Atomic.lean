import PrivateVm.Scanner.Allocation
import PrivateVm.Scanner.VmStart

set_option autoImplicit false

/-! # When the allocations of a scanner are atomic

An allocation that returns no cleanup function holds nothing just if every call that it makes to
roll back succeeds, and the launcher of the offline VM does not fail: this ends in a panic that
leaves the CID, the directories and the images without an owner. `StartScanner` returns the
resource with the error when its own roll-back fails.
-/

namespace PrivateVm.Scanner

open Checked Program Program.Method Session

/-! ## Ownership -/

/-- **The returned functions own what is held.** However often the cleanup function is called,
once it succeeds nothing is held, and the audit function passes only when nothing is held. -/
def Owned (a : Allocation) (w : World) : Prop :=
  ∃ I : World → Prop, I w ∧
    (∀ w, I w → Does serve a.cleanup
      (fun r _ w' => (r = .ok () → w'.Empty) ∧ (r ≠ .ok () → I w')) () w) ∧
    (∀ w, I w → Does serve a.audit (fun r _ _ => r = .ok () → w.Empty) () w)

variable {w : World}

/-- **An allocation is atomic**: without functions to return nothing of what it obtained is held,
and otherwise the functions own what is held. A panic returns no functions. -/
def Atomic (a : Allocation) : Outcome → World → Prop
  | .returned true _, w => Owned a w
  | .returned false _, w | .panicked, w => w.Empty

/-- The result of an allocation is atomic just if every roll-back has succeeded. -/
def Exact (a : Allocation) : Except Errors Outcome → Unit → World × Bool → Prop
  | .ok outcome, _, (w, v) => Atomic a outcome w ↔ v = true
  | .error _, _, (w, v) => w.Empty ↔ v = true

section

variable {β : Type} {a : Allocation} {w : World} {v : Bool}

variable {Q : Except Errors β → Unit → World × Bool → Prop} {f : Option Fault → Allocator β}

variable {mode : ScannerMode}

end

def sampleAnswer : (o : Op) → o.Res
  | .check _ => none
  | .obtain _ => none
  | .launch => .started
  | .giveBack _ => none
  | .wait => true

end PrivateVm.Scanner
