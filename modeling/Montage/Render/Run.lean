import Montage.Render.Child
import Montage.Render.Output
import Montage.Render.Tracker
import Montage.Text.ShellWord

/-!
# Running the renderer

A run starts the renderer by a command, reads what it writes, follows its progress, and ends in the
path of the result or in one failure. Whatever happens, the started program has ended when the run
is over.

## Main definitions

* `Montage.Reading`: what has been read of a running renderer.
* `Montage.Run`: how a run ends.
* `Montage.runCommand`: the run of a command, as a function of what the renderer does.
* `Montage.render`: the run of a command in a session.
-/

namespace Montage

/-- How many lines of the output are kept. -/
def tailLength : Nat := 20

/-- The last lines with one more line. -/
def keepLine (tail : List String) (line : String) : List String :=
  let lines := tail ++ [line]
  lines.drop (lines.length - tailLength)

/-- What has been read of a running renderer. -/
structure Reading where
  /-- The last lines that are not blank. -/
  tail : List String
  /-- How long the result is, as far as that is known. -/
  duration : Option Number
  tracker : Tracker
  deriving Inhabited

namespace Reading

/-- The lines that are kept, as one text. -/
def text (r : Reading) : String := "\n".intercalate r.tail

/-- Read the duration out of a line, unless it is known. -/
def learn (r : Reading) (line : String) : Except Fault Reading :=
  match r.duration with
  | some _ => .ok r
  | none => (bannerDuration? line).map fun duration => { r with duration }

/-- Report the progress that a line tells. -/
def follow (r : Reading) (line : String) : Except Fault Reading :=
  (progressOf line r.duration).map fun
    | some percent => { r with tracker := r.tracker.update percent "Rendering" none }
    | none => r

/-- Read one line, with the fault that it leads to. -/
def line (r : Reading) (text : String) : Reading × Option Fault :=
  let line := text.strip
  if line = "" then (r, none)
  else
    let r := { r with tail := keepLine r.tail line }
    match r.learn line with
    | .error f => (r, some f)
    | .ok r =>
      match r.follow line with
      | .error f => (r, some f)
      | .ok r => (r, none)

/-- Read the output up to its end or to a fault. -/
def output (r : Reading) : List Output → Reading × Option Fault
  | [] => (r, none)
  | .broken f :: _ => (r, some f)
  | .line text :: rest =>
    match r.line text with
    | (r, none) => r.output rest
    | (r, some f) => (r, some f)

end Reading

/-- How a run ends. -/
structure Run where
  result : Except Failure Path
  tracker : Tracker
  /-- The program, if it was started. -/
  child : Option Child
  /-- The renderer has written its result. -/
  saved : Bool
  deriving Inhabited

/-- A fault of reading, which ends a run in a failure of its own. -/
def isReadFault : Fault → Bool
  | .system _ | .value _ => true
  | _ => false

/-- A command with the options by which the renderer reports its progress. -/
def reporting (command : Command) : Command :=
  command.dropLast ++ ["-progress", "pipe:1", "-nostats"].map Value.string ++
    command.getLast?.toList

/-- The text of the program that a command starts. -/
def programText (command : Command) : String := (command.headD .null).text

namespace Run

/-- A run that failed, which the tracker is told. -/
def failed (tracker : Tracker) (child : Option Child) (e : EditError) : Run :=
  ⟨.error (.edit e), tracker.fail e.message, child, false⟩

/-- The end of a run whose program has ended with its output read. -/
def finished (command : Command) (output : Path) (timeout : Binary64) (r : Reading) (child : Child)
    (saved : Bool) : Run :=
  let refusal (message : String) : Run :=
    { failed r.tracker (some child.release)
        (.execution message child.status r.text (some command)) with saved }
  if child.timer = .fired then refusal ("FFmpeg timed out after " ++ timeout.general ++ "s")
  else if child.status ≠ some 0 then
    refusal ("FFmpeg exited with code " ++ intText (child.status.getD 0))
  else
    ⟨.ok output, r.tracker.complete ("Rendered " ++ output.text), some child.release, saved⟩

/-- The end of a run in which reading failed. The program is stopped. -/
def interrupted (command : Command) (r : Reading) (child : Child) (f : Fault) : Run :=
  if isReadFault f then
    failed r.tracker (some child.release)
      (.execution ("Failed reading FFmpeg output: " ++ f.message) none r.text (some command))
  else ⟨.error (.fault f), r.tracker, some child.release, false⟩

end Run

/-- The run of a command whose renderer behaves like `launch`. Where the renderer succeeds it may
store its result, which ends like `storing`. -/
def runLaunched (command : Command) (output : Path) (timeout : Binary64) (duration : Option Number)
    (tracker : Tracker) (storing : Except Fault Unit) : Launch → Run
  | .missing =>
    .failed tracker none
      (.execution ("FFmpeg executable not found: " ++ programText command) none "" (some command))
  | .denied => ⟨.error (.fault (.system (.denied (programText command)))), tracker, none, false⟩
  | .runs lines status hangs writes =>
    let child := Child.spawn (if hangs then none else some status)
    match Reading.output ⟨[], duration, tracker⟩ lines with
    | (r, some f) => .interrupted command r child f
    | (r, none) =>
      let saves := writes && child.wait.status = some 0
      match saves, storing with
      | true, .error f => .interrupted command r child.wait f
      | _, _ => .finished command output timeout r child.wait saves

/-- The run of a command, from its start on. The last word of the command is the path of the
result. -/
def runCommand (command : Command) (timeout : Binary64) (duration : Option Number)
    (tracker : Tracker) (storing : Except Fault Unit) (launch : Launch) : Except Fault Run :=
  match command.getLast? with
  | none => .error (.position "list")
  | some (.string output) => do
    let full := reporting command
    let tracker := tracker.start (← shellLine full)
    return runLaunched full (.ofString output) timeout duration tracker storing launch
  | some v => .error (.type (.notPath v.typeName))

/-- The calls of listeners that a tracker has made. -/
def Tracker.calls (t : Tracker) : List Call :=
  t.deliveries.map fun d => .progress d.2.kind.name d.2.percent d.2.message

/-- Run a command in a session: the run takes what the renderer does next, and leaves its traces. -/
def render (timeout : Binary64) (command : Command) (duration : Option Number)
    (tracker : Tracker) : Action Run := do
  let s ← get
  let launch := s.launches.headD s.further
  let started := s.commands ++ [reporting command]
  let target := ((command.getLast?.getD .null)).text
  let stored := s.files.write (.ofString target) target
    ("rendered by call " ++ digitText started.length ++ "\n")
  let run ← Action.ofFault
    (runCommand command timeout duration tracker (stored.map fun _ => ()) launch)
  let files := match run.saved, stored with
    | true, .ok files => files
    | _, _ => s.files
  set { s with
    files
    launches := s.launches.drop 1
    commands := started
    journal := s.journal ++ run.tracker.journal
    calls := s.calls ++ run.tracker.calls }
  return run

end Montage
