import Montage.Json.Reader
import Montage.Json.Writer
import Montage.Media.Info
import Montage.Session
import Montage.Text.ShellWord

/-!
# Inspecting media

A program outside is asked for a description of a media file. Where it cannot be run, or answers
with something that is no description, the file is opened instead.

## Main definitions

* `Montage.inspect`: the information about a media file.
* `Montage.isInstalled`, `Montage.programVersion`: whether a program can be run, and its version.
-/

namespace Montage

/-- The part of the journal about inspecting media. -/
def probeSource : String := "vedit.render.ffmpeg"

/-- The program under a name can be run. Only a name with a directory in it leads to a stored file.
-/
def isInstalled (files : Storage) (name : String) : Bool :=
  name.toList.contains '/' &&
    match files.lookup (.ofString name) with
    | some (.program _) => true
    | _ => false

/-- What inspecting a path yields. -/
def Session.probe? (s : Session) (path : String) : Option ProbeScript :=
  (s.probes.lookup path).or (s.probes.lookup "*")

/-- The first line of what a program answers to the question for its version. -/
def programVersion (s : Session) : Option String :=
  match (s.probes.lookup "-version").map ProbeScript.answer with
  | some (.printed text) => some (firstLine text)
  | some (.data v) => some (firstLine (Json.line v))
  | _ => none
where
  /-- The text up to its first line break. -/
  firstLine (text : String) : String := String.ofList (text.toList.takeWhile (· ≠ '\n'))

/-- The command that asks for the description of a file. -/
def probeCommand (program : Value) (path : Path) : Command :=
  program :: ["-v", "quiet", "-print_format", "json", "-show_format", "-show_streams",
    path.text].map Value.string

/-- The description that a program gives of a file. -/
def describe (program : Value) (path : Path) : Action (Except Fault Value) := do
  modify fun s => { s with probed := s.probed ++ [(program.text, path.text)] }
  match ((← get).probe? path.text).map ProbeScript.answer with
  | none | some .missing => return .error (.system (.noProgram program.text))
  | some (.exited status) =>
    return .error (.system (.exited (Value.list (probeCommand program path)).quoted status))
  | some (.printed text) => return Json.parse text
  | some (.data v) => return .ok v

/-- The information that opening a file gives. -/
def openClip (path : Path) : Action MediaInfo := do
  match ((← get).probe? path.text).bind ProbeScript.clip with
  | some clip => return .ofClip path clip
  | none => Action.faulted (.system (.other "cannot open clip"))

/-- The information about a file. -/
def inspect (program : Value) (path : Path) : Action MediaInfo := do
  if !(← Action.exists? path) then
    Action.refuse (.notFound ("Media file not found: " ++ path.text))
  match ← describe program path with
  | .ok description => Action.ofFailure (MediaInfo.ofDescription path description)
  | .error (.malformedJson text) =>
    Action.warn probeSource ("Failed to parse FFprobe output: " ++ text)
    openClip path
  | .error (.system cause) =>
    Action.warn probeSource ("FFprobe failed, falling back to MoviePy: " ++ cause.message)
    openClip path
  | .error f => Action.faulted f

end Montage
