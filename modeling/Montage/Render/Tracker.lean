import Montage.Session
import Montage.Value

/-!
# Progress of a rendering

A tracker follows one rendering. It tells its listeners of the start, of the share that is done and
of the end, and keeps every event. The share never falls, and once a rendering has ended nothing
but another start is told. A listener that fails is noted in the journal and disturbs no other one.

## Main definitions

* `Montage.RenderEvent`, `Montage.Listener`: what is told, and to whom.
* `Montage.Tracker`: the state of one rendering; `Tracker.start`, `update`, `complete` and `fail`
  report what happens to it.
* `Tracker.subscribe`, `Tracker.unsubscribe`: who is told.
-/

namespace Montage

/-- What an event tells. -/
inductive RenderEventKind
  | start
  | progress
  | complete
  | error
  deriving DecidableEq, Inhabited

namespace RenderEventKind

/-- The name of a kind of event. -/
def name : RenderEventKind → String
  | start => "start"
  | progress => "progress"
  | complete => "complete"
  | error => "error"

/-- The event ends a rendering. -/
def isTerminal : RenderEventKind → Bool
  | complete | error => true
  | _ => false

end RenderEventKind

/-- One event of a rendering. -/
structure RenderEvent where
  kind : RenderEventKind
  /-- The share that is done, out of a hundred. -/
  percent : Binary64
  message : String
  stage : String
  /-- The command that is started. -/
  command : Option String
  deriving DecidableEq, Inhabited

/-- Somebody who is told of events. A listener that fails does so with a text, after it has been
told. -/
structure Listener where
  id : Nat
  failure : Option String
  deriving DecidableEq, Inhabited

/-- The state of one rendering. -/
structure Tracker where
  operation : String
  percent : Binary64
  stage : String
  message : String
  finished : Bool
  /-- All events so far. -/
  events : List RenderEvent
  /-- Who is told, in the order of their subscriptions. -/
  listeners : List Listener
  /-- Who was told of what. -/
  deliveries : List (Listener × RenderEvent)
  journal : List JournalEntry
  deriving Inhabited

/-- The part of the journal about progress. -/
def progressSource : String := "vedit.render.progress"

namespace Tracker

/-- The tracker of a rendering that has not started. -/
def of (operation : String) (listeners : List Listener) : Tracker :=
  ⟨operation, 0, "", "", false, [], listeners, [], []⟩

/-- Tell one more listener from now on. -/
def subscribe (t : Tracker) (l : Listener) : Tracker := { t with listeners := t.listeners ++ [l] }

/-- Tell a listener no longer; of several subscriptions the first one ends. -/
def unsubscribe (t : Tracker) (l : Listener) : Tracker :=
  { t with listeners := t.listeners.erase l }

/-- The note about a listener that failed. -/
def failureNote (t : Tracker) (l : Listener) : Option JournalEntry :=
  l.failure.map fun text =>
    ⟨.warning, progressSource, "Progress listener failed for " ++ t.operation ++ ": " ++ text⟩

/-- Tell an event to everybody. -/
def emit (t : Tracker) (e : RenderEvent) : Tracker :=
  { t with
    events := t.events ++ [e]
    deliveries := t.deliveries ++ t.listeners.map (·, e)
    journal := t.journal ++ t.listeners.filterMap t.failureNote }

/-- The rendering is started by a command. -/
def start (t : Tracker) (command : String) : Tracker :=
  t.emit ⟨.start, 0, "Render started", t.stage, some command⟩

/-- The rendering enters a stage. -/
def setStage (t : Tracker) (stage : String) : Tracker := { t with stage }

/-- A share, brought between zero and a hundred. -/
def clamp (percent : Binary64) : Binary64 := (percent.larger 0).smaller 100

/-- So much is done. A share below the one reported before is ignored, but the stage counts. -/
def update (t : Tracker) (percent : Binary64) (message : String) (stage : Option String) :
    Tracker :=
  if t.finished then t
  else
    let t := { t with stage := stage.getD t.stage }
    let percent := clamp percent
    if percent < t.percent then t
    else ({ t with percent, message } : Tracker).emit ⟨.progress, percent, message, t.stage, none⟩

/-- A value is reported as the share that is done. One that is no number is a fault, after the stage
has been entered. -/
def updateBy (t : Tracker) (percent : Value) (message : String) (stage : Option String) :
    Tracker × Except Fault Unit :=
  match percent.toReal with
  | .ok p => (t.update p message stage, .ok ())
  | .error f =>
    if t.finished then (t, .ok ()) else ({ t with stage := stage.getD t.stage }, .error f)

/-- The rendering has succeeded. -/
def complete (t : Tracker) (message : String) : Tracker :=
  if t.finished then t
  else
    ({ t with finished := true, percent := 100, message } : Tracker).emit
      ⟨.complete, 100, message, t.stage, none⟩

/-- The name of the rendering in the journal. -/
def label (t : Tracker) : String := if t.operation = "" then "Render" else t.operation

/-- The rendering has failed. -/
def fail (t : Tracker) (message : String) : Tracker :=
  if t.finished then t
  else
    let entry : JournalEntry := ⟨.error, progressSource, t.label ++ " failed: " ++ message⟩
    ({ t with finished := true, message, journal := t.journal ++ [entry] } : Tracker).emit
      ⟨.error, t.percent, message, t.stage, none⟩

/-- The state in fields. -/
def toFields (t : Tracker) : Fields :=
  [("operation", .string t.operation), ("percent", .real t.percent), ("stage", .string t.stage),
    ("message", .string t.message), ("finished", .bool t.finished)]

end Tracker

end Montage
