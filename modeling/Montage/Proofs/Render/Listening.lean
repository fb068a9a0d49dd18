import Montage.Proofs.Likeness
import Montage.Proofs.Render.Saving

/-!
# Who listens to a rendering

Listeners are told of a rendering and have no part in it, whether they fail or not. Two trackers with
different listeners go through the same states, so that a rendering ends in the same way, whoever
listens to it.

## Main definitions

* `Tracker.Alike`: two trackers differ in whom they tell at most.
* `Run.Alike`: two runs end in the same way.

## Main statements

* `Reading.Alike.output`: the output is read in the same way.
* `agrees_render`: a rendering does the same in sessions that are alike, whoever listens to it.
-/
namespace Montage

/-- The trackers differ in their listeners, and in what these were told, at most. -/
structure Tracker.Alike (t t' : Tracker) : Prop where
  operation : t'.operation = t.operation
  percent : t'.percent = t.percent
  stage : t'.stage = t.stage
  message : t'.message = t.message
  finished : t'.finished = t.finished
  events : t'.events = t.events

/-- The readings differ in whom their trackers tell at most. -/
structure Reading.Alike (r r' : Reading) : Prop where
  tail : r'.tail = r.tail
  duration : r'.duration = r.duration
  tracker : r.tracker.Alike r'.tracker

/-- The runs differ in whom their trackers tell at most. -/
structure Run.Alike (run run' : Run) : Prop where
  result : run'.result = run.result
  tracker : run.tracker.Alike run'.tracker
  child : run'.child = run.child
  saved : run'.saved = run.saved

/-! ## Trackers -/

namespace Tracker

variable {t t' : Tracker}

theorem alike_of (operation : String) (listeners listeners' : List Listener) :
    (Tracker.of operation listeners).Alike (.of operation listeners') :=
  ⟨rfl, rfl, rfl, rfl, rfl, rfl⟩

namespace Alike

theorem emit (h : t.Alike t') (e : RenderEvent) : (t.emit e).Alike (t'.emit e) where
  operation := h.operation
  percent := h.percent
  stage := h.stage
  message := h.message
  finished := h.finished
  events := congrArg (· ++ [e]) h.events

theorem start (h : t.Alike t') (command : String) : (t.start command).Alike (t'.start command) := by
  rw [Tracker.start, Tracker.start, h.stage]
  exact h.emit _

theorem update (h : t.Alike t') (percent : Binary64) (message : String) (stage : Option String) :
    (t.update percent message stage).Alike (t'.update percent message stage) := by
  rw [Tracker.update, Tracker.update, h.finished]
  dsimp only
  rw [h.percent, h.stage]
  split_ifs
  · exact h
  · exact ⟨h.operation, rfl, rfl, h.message, rfl, h.events⟩
  · refine emit ?_ _
    exact ⟨h.operation, rfl, rfl, rfl, rfl, h.events⟩

theorem complete (h : t.Alike t') (message : String) :
    (t.complete message).Alike (t'.complete message) := by
  rw [Tracker.complete, Tracker.complete, h.finished, h.stage]
  split_ifs
  · exact h
  · refine emit ?_ _
    exact ⟨h.operation, rfl, rfl, rfl, rfl, h.events⟩

theorem fail (h : t.Alike t') (message : String) : (t.fail message).Alike (t'.fail message) := by
  rw [Tracker.fail, Tracker.fail, h.finished]
  dsimp only
  rw [h.percent, h.stage]
  split_ifs
  · exact h
  · refine emit ?_ _
    exact ⟨h.operation, rfl, rfl, rfl, rfl, h.events⟩

end Alike

end Tracker

/-! ## Reading -/

namespace Reading.Alike

variable {r r' : Reading}

/-- **One line** is read in the same way. -/
theorem line (h : r.Alike r') (text : String) :
    (r'.line text).2 = (r.line text).2 ∧ (r.line text).1.Alike (r'.line text).1 := by
  rw [Reading.line, Reading.line]
  dsimp only
  split_ifs with hblank
  · exact ⟨rfl, h⟩
  · rw [learn_eq, learn_eq, h.duration, h.tail]
    dsimp only
    cases learned r.duration text.strip with
    | error f => exact ⟨rfl, rfl, rfl, h.tracker⟩
    | ok duration =>
        simp only [Except.map, follow]
        cases progressOf text.strip duration with
        | error f => exact ⟨rfl, rfl, rfl, h.tracker⟩
        | ok share =>
            cases share with
            | none => exact ⟨rfl, rfl, rfl, h.tracker⟩
            | some percent => exact ⟨rfl, rfl, rfl, h.tracker.update percent "Rendering" none⟩

/-- **The output** is read in the same way. -/
theorem output (h : r.Alike r') (lines : List Output) :
    (r'.output lines).2 = (r.output lines).2 ∧ (r.output lines).1.Alike (r'.output lines).1 := by
  induction lines generalizing r r' with
  | nil => exact ⟨rfl, h⟩
  | cons out rest ih =>
      cases out with
      | broken f => exact ⟨rfl, h⟩
      | line text =>
          obtain ⟨hfault, hline⟩ := h.line text
          rw [Reading.output, Reading.output]
          rcases hr : r.line text with ⟨q, fault⟩
          rcases hr' : r'.line text with ⟨q', fault'⟩
          rw [hr, hr'] at hfault hline
          obtain rfl : fault' = fault := hfault
          cases fault' with
          | some f => exact ⟨rfl, hline⟩
          | none => exact ih hline

theorem text (h : r.Alike r') : r'.text = r.text := by rw [Reading.text, Reading.text, h.tail]

end Reading.Alike

/-! ## Runs -/

variable {command : Command} {output : Path} {timeout : Binary64} {duration : Option Number}
  {storing : Except Fault Unit} {t t' : Tracker} {r r' : Reading}

namespace Run

theorem alike_failed (h : t.Alike t') (child : Option Child) (e : EditError) :
    (failed t child e).Alike (failed t' child e) :=
  ⟨rfl, h.fail e.message, rfl, rfl⟩

theorem alike_finished (h : r.Alike r') (child : Child) (saved : Bool) :
    (finished command output timeout r child saved).Alike
      (finished command output timeout r' child saved) := by
  rw [finished, finished, h.text]
  dsimp only
  split_ifs
  · exact { alike_failed h.tracker _ _ with saved := rfl }
  · exact { alike_failed h.tracker _ _ with saved := rfl }
  · exact ⟨rfl, h.tracker.complete _, rfl, rfl⟩

theorem alike_interrupted (h : r.Alike r') (child : Child) (f : Fault) :
    (interrupted command r child f).Alike (interrupted command r' child f) := by
  rw [interrupted, interrupted, h.text]
  split_ifs
  · exact alike_failed h.tracker _ _
  · exact ⟨rfl, h.tracker, rfl, rfl⟩

end Run

/-- **A run** ends in the same way, whoever listens to it. -/
theorem alike_runLaunched (h : t.Alike t') (launch : Launch) :
    (runLaunched command output timeout duration t storing launch).Alike
      (runLaunched command output timeout duration t' storing launch) := by
  cases launch with
  | missing => exact Run.alike_failed h _ _
  | denied => exact ⟨rfl, h, rfl, rfl⟩
  | runs lines status hangs writes =>
      have hstart : (⟨[], duration, t⟩ : Reading).Alike ⟨[], duration, t'⟩ := ⟨rfl, rfl, h⟩
      obtain ⟨hfault, hread⟩ := hstart.output lines
      rw [runLaunched, runLaunched]
      rcases hr : Reading.output ⟨[], duration, t⟩ lines with ⟨r, fault⟩
      rcases hr' : Reading.output ⟨[], duration, t'⟩ lines with ⟨r', fault'⟩
      rw [hr, hr'] at hfault hread
      obtain rfl : fault' = fault := hfault
      cases fault' with
      | some f => exact Run.alike_interrupted hread _ f
      | none =>
          dsimp only
          split
          · exact Run.alike_interrupted hread _ _
          · exact Run.alike_finished hread _ _

theorem related_runCommand (h : t.Alike t') (launch : Launch) :
    Outcome.Related Run.Alike (runCommand command timeout duration t storing launch)
      (runCommand command timeout duration t' storing launch) := by
  unfold runCommand
  split
  · exact .error _
  · dsimp only
    cases shellLine (reporting command) with
    | error f => exact .error f
    | ok line => exact .ok (alike_runLaunched (h.start line) launch)
  · exact .error _

/-! ## Renderings -/

/-- A tracker calls listeners only. -/
theorem Tracker.isProgress_calls (t : Tracker) : ∀ c ∈ t.calls, c.IsProgress := by
  intro c hc
  obtain ⟨d, -, rfl⟩ := List.mem_map.mp hc
  trivial

/-- **A rendering** does the same in sessions that are alike, whoever listens to it. -/
theorem agrees_render (h : t.Alike t') :
    Action.Agrees Run.Alike (render timeout command duration t)
      (render timeout command duration t') := by
  intro s s' hs
  have hfiles : s'.filesWith command = s.filesWith command := by
    rw [Session.filesWith, Session.filesWith, hs.files, hs.commands]
  have hruns : Outcome.Related Run.Alike
      (runCommand command timeout duration t ((s.filesWith command).map fun _ => ())
        (s.launches.headD s.further))
      (runCommand command timeout duration t' ((s.filesWith command).map fun _ => ())
        (s.launches.headD s.further)) := related_runCommand h _
  rw [exec_render, exec_render, hfiles, hs.launches, hs.further]
  generalize runCommand command timeout duration t _ _ = r at hruns
  generalize runCommand command timeout duration t' _ _ = r' at hruns
  cases hruns with
  | error f => exact ⟨.error _, hs, .of_eq rfl⟩
  | @ok run run' hrun =>
      refine ⟨.ok hrun, ⟨?_, ?_, hs.further, hs.probes, ?_, hs.probed, hs.printed⟩, ?_⟩
      · simp only [Session.afterRun, hrun.saved, hfiles, hs.files]
      · simp only [Session.afterRun, hs.launches]
      · simp only [Session.afterRun, hs.commands]
      · exact ⟨run.tracker.calls, rfl, run.tracker.isProgress_calls⟩

end Montage
