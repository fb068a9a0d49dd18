import Montage.Value

/-!
# Outside tools

Media are rendered and inspected by programs outside. What they do is given with a session: one
course of events for each start of the renderer, and one answer for each file that is inspected.

## Main definitions

* `Montage.Command`: a program and its arguments.
* `Montage.Launch`: what happens when the renderer is started.
* `Montage.ProbeScript`: what inspecting a file yields.
-/

namespace Montage

/-- A program and its arguments. Settings stand among them as they are. -/
abbrev Command := List Value

/-- One thing that comes from a running renderer. -/
inductive Output
  | line (text : String)
  /-- Reading from the renderer fails. -/
  | broken (cause : Fault)
  deriving Inhabited

/-- What happens when the renderer is started. -/
inductive Launch
  /-- There is no such program. -/
  | missing
  /-- The program may not be run. -/
  | denied
  /-- The program writes its output and ends with a status, or hangs until it is stopped. If it
  succeeds it may write its result. -/
  | runs (output : List Output) (status : Int) (hangs writes : Bool)
  deriving Inhabited

namespace Launch

/-- A run that reports nothing but its success. -/
def plain : Launch := runs [.line "progress=end"] 0 false true

end Launch

/-- What the program that inspects media answers. -/
inductive ProbeAnswer
  | printed (text : String)
  | data (v : Value)
  /-- There is no such program. -/
  | missing
  /-- The program ends with a status other than zero. -/
  | exited (status : Int)
  deriving Inhabited

/-- What a media file holds, as far as opening it tells. -/
structure Clip where
  width : Value
  height : Value
  rate : Value
  duration : Value
  audio : Value
  deriving Inhabited

/-- What inspecting a file yields: the answer of the program, and the clip if the file can be
opened. -/
structure ProbeScript where
  answer : ProbeAnswer
  clip : Option Clip
  deriving Inhabited

end Montage
