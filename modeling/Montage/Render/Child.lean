import Montage.Tools

/-!
# A started program

A program that was started ends by itself, or hangs until it is stopped. A timer stops it when its
time is up. Whoever started it has to collect its status, and to take back the timer.

## Main definitions

* `Montage.Child`: a started program with its timer.
* `Child.wait`, `Child.stop`, `Child.release`: the ways in which it ends.
-/

namespace Montage

/-- The timer of a started program. -/
inductive Timer
  | armed
  | cancelled
  | fired
  deriving DecidableEq, Inhabited

/-- A started program. -/
structure Child where
  /-- The status with which the program ends by itself, if it does not hang. -/
  ending : Option Int
  /-- The status that was collected after the end. -/
  status : Option Int
  timer : Timer
  deriving DecidableEq, Inhabited

namespace Child

/-- The status of a program that was stopped. -/
def stopped : Int := -9

/-- A program that runs, under a timer. -/
def spawn (ending : Option Int) : Child := ⟨ending, none, .armed⟩

/-- Wait for the end. A program that hangs is stopped by the timer. -/
def wait (c : Child) : Child :=
  match c.ending with
  | some status => { c with status := some status }
  | none => { c with status := some stopped, timer := .fired }

/-- Stop the program unless it has ended. -/
def stop (c : Child) : Child := if c.status.isSome then c else { c with status := some stopped }

/-- Take back the timer unless it has fired. -/
def disarm (c : Child) : Child := if c.timer = .fired then c else { c with timer := .cancelled }

/-- Take back the timer, and stop the program unless it has ended. -/
def release (c : Child) : Child := c.disarm.stop

/-- The program has ended and its status is collected. -/
def hasEnded (c : Child) : Bool := c.status.isSome

theorem hasEnded_stop (c : Child) : c.stop.hasEnded = true := by
  unfold stop hasEnded
  split <;> simp_all

theorem timer_release (c : Child) : c.release.timer ≠ .armed := by
  unfold release stop disarm
  split <;> split <;> simp_all

end Child

end Montage
