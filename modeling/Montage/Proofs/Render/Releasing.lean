import Montage.Proofs.Render.Fitting

/-!
# No renderer outlives its run

A command that can be written down is started; any other one is refused before that. A renderer that
was started is released when its run ends, however the run ends: it has ended by itself or was
stopped, its status is collected, and its timer was taken back unless it went off.

## Main definitions

* `Command.IsRunnable`: the commands that are started.
* `Child.IsOver`: a program that has ended, with nothing left to do about it.

## Main statements

* `exists_runCommand_error`: a command that cannot be written down starts nothing.
* `child_runLaunched`: every run releases the renderer that it started.
* `runCommand_isOver`: the renderer is over when the run of a command ends.
-/
namespace Montage

/-- The last word of the command is the path of a result, and all words can be written down. -/
structure Command.IsRunnable (command : Command) : Prop where
  target : ∃ target, command.getLast? = some (.string target)
  words : ∀ v ∈ command, v.IsWord

namespace Child

/-- The program has ended and its status is collected; its timer is taken back or has gone off. -/
structure IsOver (c : Child) : Prop where
  ended : c.hasEnded = true
  timer : c.timer = .cancelled ∨ c.timer = .fired

variable {c : Child}

/-- **A program that is released** is over, whether it has ended before or not. -/
theorem isOver_release (c : Child) : c.release.IsOver where
  ended := hasEnded_stop c.disarm
  timer := by
    have htimer := timer_release c
    cases h : c.release.timer <;> simp_all

/-- A program that has ended is not stopped any more. -/
theorem status_release (h : c.hasEnded = true) : c.release.status = c.status := by
  have hdisarm : c.disarm.status = c.status := by
    rw [disarm]
    split <;> rfl
  have hended : c.status.isSome = true := h
  rw [release, stop, hdisarm, if_pos hended, hdisarm]

/-- The timer of a program that has ended in time is taken back. -/
theorem timer_release_of_armed (h : c.timer = .armed) : c.release.timer = .cancelled := by
  have hdisarm : c.disarm.timer = .cancelled := by
    rw [disarm, if_neg (by simp [h])]
  rw [release, stop]
  split <;> exact hdisarm

end Child

variable {command : Command} {output : Path} {timeout : Binary64} {duration : Option Number}
  {storing : Except Fault Unit} {t : Tracker} {lines : List Output} {status : Int}
  {hangs writes : Bool} {r : Reading} {child : Child}

namespace Run

theorem child_finished {saved : Bool} :
    (finished command output timeout r child saved).child = some child.release := by
  rw [finished]
  dsimp only
  split_ifs <;> rfl

/-- Whatever fault ends the reading, the program is released. -/
theorem child_interrupted {f : Fault} :
    (interrupted command r child f).child = some child.release := by
  rw [interrupted]
  split_ifs <;> rfl

end Run

/-- **Every run releases the renderer** that it started: where its output is read through after it
was waited for, and at once where it is not. -/
theorem child_runLaunched :
    (runLaunched command output timeout duration t storing
      (.runs lines status hangs writes)).child = some (Child.release
        (if (Reading.output ⟨[], duration, t⟩ lines).2 = none then (spawned hangs status).wait
          else spawned hangs status)) := by
  have hspawned : Child.spawn (if hangs then none else some status) = spawned hangs status := rfl
  rw [runLaunched, hspawned]
  rcases Reading.output ⟨[], duration, t⟩ lines with ⟨r, fault⟩
  cases fault with
  | some f => exact Run.child_interrupted
  | none =>
      dsimp only
      split
      · exact Run.child_interrupted
      · exact Run.child_finished

/-- A command that is started runs the renderer, whatever this does. -/
theorem exists_runCommand_eq (h : command.IsRunnable) (timeout : Binary64)
    (duration : Option Number) (t : Tracker) (storing : Except Fault Unit) :
    ∃ output started, ∀ launch, runCommand command timeout duration t storing launch =
      .ok (runLaunched (reporting command) output timeout duration started storing launch) := by
  obtain ⟨target, htarget⟩ := h.target
  obtain ⟨line, hline⟩ := Outcome.isOk_iff.mp
    (isOk_shellLine_iff.mpr (isWord_reporting_iff.mpr h.words))
  refine ⟨.ofString target, t.start line, fun launch => ?_⟩
  rw [runCommand, htarget]
  dsimp only
  rw [hline]
  rfl

/-- **A command that cannot be written down** starts nothing: it is refused whatever the renderer
would do. -/
theorem exists_runCommand_error (h : ¬command.IsRunnable) (timeout : Binary64)
    (duration : Option Number) (t : Tracker) (storing : Except Fault Unit) :
    ∃ f, ∀ launch, runCommand command timeout duration t storing launch = .error f := by
  unfold runCommand
  split
  · exact ⟨_, fun _ => rfl⟩
  · next target htarget =>
    have hline : (shellLine (reporting command)).isOk = false := by
      rw [Bool.eq_false_iff, ne_eq, isOk_shellLine_iff, isWord_reporting_iff]
      exact fun hwords => h ⟨⟨target, htarget⟩, hwords⟩
    cases hwritten : shellLine (reporting command) with
    | error f =>
        refine ⟨f, fun launch => ?_⟩
        dsimp only
        rw [hwritten]
        rfl
    | ok line =>
        rw [hwritten] at hline
        cases hline
  · exact ⟨_, fun _ => rfl⟩

/-- **No renderer outlives its run.** Whatever a renderer writes, wherever reading it fails, with
whatever status it ends or if it hangs: when the run ends, in a result or in a failure, the renderer
has ended, its status is collected, and its timer is taken back or has gone off. One that is read to
its end and ends by itself keeps its own status. Only a command that cannot be written down has no
run, and it starts no renderer. -/
theorem runCommand_isOver (command : Command) (timeout : Binary64) (duration : Option Number)
    (t : Tracker) (storing : Except Fault Unit) (lines : List Output) (status : Int)
    (hangs writes : Bool) :
    (command.IsRunnable ∧ ∃ run child,
      runCommand command timeout duration t storing (.runs lines status hangs writes) = .ok run ∧
        run.child = some child ∧ child.IsOver ∧
        (ReadThrough duration lines → hangs = false →
          child.status = some status ∧ child.timer = .cancelled)) ∨
      (¬command.IsRunnable ∧ ∃ f, ∀ launch,
        runCommand command timeout duration t storing launch = .error f) := by
  by_cases h : command.IsRunnable
  · obtain ⟨output, started, hrun⟩ := exists_runCommand_eq h timeout duration t storing
    refine .inl ⟨h, _, _, hrun _, child_runLaunched, Child.isOver_release _, ?_⟩
    rintro hread rfl
    have hnone := (Reading.output_eq_none_iff (r := ⟨[], duration, started⟩) lines).mpr hread
    rw [if_pos hnone]
    exact ⟨Child.status_release rfl, Child.timer_release_of_armed rfl⟩
  · exact .inr ⟨h, exists_runCommand_error h timeout duration t storing⟩

end Montage
