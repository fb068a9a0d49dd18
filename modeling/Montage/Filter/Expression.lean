import Montage.Filter.Stage

/-!
# Filter expressions

What an edit becomes for the renderer: a chain of stages for the picture and one for the sound. A
gate limits the whole look to a window of time. On a single stage it is written as an option; a
longer chain runs beside the untouched picture and is laid over it inside the window.

## Main definitions

* `Montage.Expression`: the chains, with the gate, warnings and the files that the stages read.
* `Expression.videoFilter?`, `audioFilter?`: the chains in writing.
-/

namespace Montage

/-- The chains of one edit. -/
structure Expression where
  video : List Stage
  audio : List Stage
  gate : Option Gate
  warnings : List String
  /-- Files written for the stages, which are of no use after the rendering. -/
  scratch : List String
  deriving Inhabited

namespace Expression

/-- Nothing to apply. -/
def nothing : Expression := ⟨[], [], none, [], []⟩

/-- A chain for the picture. -/
def ofVideo (stages : List Stage) : Expression := { nothing with video := stages }

/-- There is nothing to apply. -/
def isEmpty (e : Expression) : Bool := e.video.isEmpty && e.audio.isEmpty

/-- All stages. -/
def stages (e : Expression) : List Stage := e.video ++ e.audio

/-- The chain for the picture in writing. -/
def videoFilter? (e : Expression) : Option String :=
  match e.video, e.gate with
  | [], _ => none
  | stages, none => some (chainText stages)
  | [stage], some g => some ({ stage with gate := some g } : Stage).text
  | stages, some g =>
    some ("split=2[vbase][vfx];[vfx]" ++ chainText stages ++ "[vfxout];[vbase][vfxout]overlay=" ++
      g.text)

/-- The chain for the sound in writing. -/
def audioFilter? (e : Expression) : Option String :=
  if e.audio.isEmpty then none else some (chainText e.audio)

/-- The chain for the picture, else the one for the sound, else a filter that does nothing. -/
def text (e : Expression) : String :=
  match e.videoFilter?.filter (· ≠ ""), e.audioFilter?.filter (· ≠ "") with
  | some v, _ => v
  | none, some a => a
  | none, none => "null"

/-- The expression in fields. -/
def toFields (e : Expression) : Fields :=
  [("video", .ofString? e.videoFilter?), ("audio", .ofString? e.audioFilter?),
    ("gate", .ofString? (e.gate.map Gate.predicate)), ("warnings", .strings e.warnings)]

/-- The expression with one more warning. -/
def warn (e : Expression) (warning : String) : Expression :=
  { e with warnings := e.warnings ++ [warning] }

end Expression

end Montage
