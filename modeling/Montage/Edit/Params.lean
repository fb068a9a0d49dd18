import Montage.Edit.Kind
import Montage.Edit.Window

/-!
# Parameters of edits

The parameters that an edit uses, in the form in which it uses them. A request names a parameter by
one of several keys; the first of them under which there is something counts, null and the empty
text being nothing. What a text edit or a caption style is given is kept as it is, since only the
renderer decides what to make of it.

## Main definitions

* `TrimParams`, `TextParams`, …: the parameters by edit, each with its `ofFields`.
-/

namespace Montage

namespace Fields

/-- The number under the keys, if there is one. -/
def real? (fs : Fields) (keys : List String) : Except Fault (Option Binary64) :=
  match fs.first? keys with
  | some v => v.toReal.map some
  | none => .ok none

/-- The number under the keys, or a default. -/
def real (fs : Fields) (keys : List String) (default_ : Binary64) : Except Fault Binary64 :=
  match fs.first? keys with
  | some v => v.toReal
  | none => .ok default_

/-- The text of what is under the keys, or a default. -/
def text (fs : Fields) (keys : List String) (default_ : String) : String :=
  match fs.first? keys with
  | some v => v.text
  | none => default_

/-- The value under the keys, null if there is none. -/
def value (fs : Fields) (keys : List String) : Value := (fs.first? keys).getD .null

/-- The number under a key that has to be there. -/
def requiredReal (fs : Fields) (key : String) : Except Fault Binary64 :=
  match fs.get? key with
  | some v => v.toReal
  | none => .error (.key key)

end Fields

/-- Keep what lies from `start` on and before `finish`. -/
structure TrimParams where
  start : Binary64
  finish : Option Binary64
  deriving DecidableEq, Inhabited

/-- Cut out what lies from `start` on and before `finish`. -/
structure RemovalParams where
  start : Binary64
  finish : Binary64
  deriving DecidableEq, Inhabited

/-- A named colour grade, at full strength without an intensity. -/
structure GradeParams where
  preset : String
  intensity : Option Binary64
  deriving DecidableEq, Inhabited

/-- A named effect. -/
structure EffectParams where
  preset : String
  intensity : Binary64
  deriving DecidableEq, Inhabited

/-- A line of text over the picture. -/
structure TextParams where
  text : String
  position : String
  size : Value
  color : String
  background : Value
  font : Value
  style : Value
  deriving Inhabited

/-- A named filter. -/
structure FilterParams where
  filter : String
  level : Option Binary64
  deriving DecidableEq, Inhabited

/-- One caption. -/
structure Cue where
  text : String
  start : Binary64
  finish : Binary64
  deriving DecidableEq, Inhabited

/-- Captions, from a file or one by one. -/
structure CaptionParams where
  file : Value
  cues : List Cue
  color : Value
  size : Value
  position : Value
  style : Value
  background : Value
  deriving Inhabited

/-- A stronger or weaker look. -/
structure IntensityParams where
  intensity : Option Binary64
  direction : Value
  effect : Value
  deriving Inhabited

/-- A change of the visible part of the picture. -/
structure ZoomParams where
  zoom : Option Binary64
  direction : Value
  deriving Inhabited

/-- A change of the playback speed. -/
structure SpeedParams where
  speed : Binary64
  deriving DecidableEq, Inhabited

/-- A rotation of the picture. -/
structure RotationParams where
  degrees : Binary64
  deriving DecidableEq, Inhabited

/-- A rectangle to crop to. -/
structure CropParams where
  x : Binary64
  y : Binary64
  width : Binary64
  height : Binary64
  deriving DecidableEq, Inhabited

namespace TrimParams

/-- The parameters in the fields of a request. -/
def ofFields (fs : Fields) : Except Fault TrimParams := do
  let start ← fs.real ["start", "startTime"] 0
  .ok ⟨start, ← fs.real? ["end", "endTime"]⟩

end TrimParams

namespace RemovalParams

/-- The parameters in the fields of a request. -/
def ofFields (fs : Fields) : Except Fault RemovalParams := do
  let start ← fs.real ["startTime", "start"] 0
  .ok ⟨start, ← fs.real ["endTime", "end"] 0⟩

end RemovalParams

namespace GradeParams

/-- The parameters in the fields of a request. -/
def ofFields (fs : Fields) : Except Fault GradeParams := do
  let preset := fs.text ["preset", "style", "grade"] ""
  match fs.get "intensity" with
  | .null => .ok ⟨preset, none⟩
  | v => .ok ⟨preset, some (← v.toReal)⟩

end GradeParams

namespace EffectParams

/-- The parameters in the fields of a request. -/
def ofFields (fs : Fields) : Except Fault EffectParams := do
  .ok ⟨fs.text ["effect", "effectPreset", "preset"] "",
    ← fs.real ["intensity"] (.nearest (1 / 2))⟩

end EffectParams

namespace TextParams

/-- A size without a fraction is an integer. -/
def wholeSize : Value → Value
  | .number (.real x) =>
    match x.isInteger, x.toRat? with
    | true, some v => .int (Binary64.truncate v)
    | _, _ => .real x
  | v => v

/-- The parameters in the fields of a request. -/
def ofFields (fs : Fields) : TextParams where
  size := wholeSize (fs.value ["fontSize", "size"])
  text := fs.text ["text"] ""
  position := fs.text ["position"] "bottom"
  color := fs.text ["fontColor", "color"] "white"
  background := fs.value ["backgroundColor", "bgColor", "background"]
  font := fs.value ["font", "fontFamily"]
  style := fs.value ["style", "fontStyle"]

end TextParams

namespace FilterParams

/-- The parameters in the fields of a request. -/
def ofFields (fs : Fields) : Except Fault FilterParams := do
  .ok ⟨fs.text ["filterType", "type", "filter"] "", ← fs.real? ["level", "intensity", "value"]⟩

end FilterParams

namespace Cue

/-- The caption in the fields of a request. Its text is whatever its key holds, null included. -/
def ofFields (fs : Fields) : Except Fault Cue := do
  let start ← fs.real ["start", "startTime"] 0
  .ok ⟨((fs.get? "text").getD (.string "")).text, start, ← fs.real ["end", "endTime"] 0⟩

/-- The caption that a value describes. -/
def ofValue (v : Value) : Except Fault Cue := do ofFields (← v.fields "get")

end Cue

namespace CaptionParams

/-- The captions that a value lists; without any truth to it, it lists none. -/
def cuesOf (v : Value) : Except Fault (List Cue) := do
  if v.isTruthy then (← v.items).mapM Cue.ofValue else .ok []

/-- The parameters in the fields of a request. -/
def ofFields (fs : Fields) : Except Fault CaptionParams := do
  let cues ← cuesOf (fs.value ["captions", "segments"])
  .ok {
    file := fs.value ["subtitleFile", "subtitlePath", "srtPath"]
    cues
    color := fs.value ["subtitleColor", "color"]
    size := fs.value ["subtitleSize", "size", "fontSize"]
    position := fs.value ["subtitlePosition", "position"]
    style := fs.value ["subtitleStyle", "style"]
    background := fs.value ["backgroundColor", "bgColor"] }

end CaptionParams

namespace IntensityParams

/-- The parameters in the fields of a request. -/
def ofFields (fs : Fields) : Except Fault IntensityParams := do
  .ok ⟨← fs.real? ["newIntensity", "intensity"], fs.value ["direction"],
    fs.value ["effectPreset", "effect"]⟩

end IntensityParams

namespace ZoomParams

/-- The parameters in the fields of a request. -/
def ofFields (fs : Fields) : Except Fault ZoomParams := do
  .ok ⟨← fs.real? ["newZoom", "zoom", "zoomLevel"], fs.value ["direction"]⟩

end ZoomParams

namespace SpeedParams

/-- The parameters in the fields of a request. -/
def ofFields (fs : Fields) : Except Fault SpeedParams := do .ok ⟨← fs.real ["speed"] 1⟩

end SpeedParams

namespace RotationParams

/-- The parameters in the fields of a request. -/
def ofFields (fs : Fields) : Except Fault RotationParams := do
  .ok ⟨← fs.real ["degrees", "rotation", "angle"] 0⟩

end RotationParams

namespace CropParams

/-- The parameters in the fields of a request. All of them have to be there. -/
def ofFields (fs : Fields) : Except Fault CropParams := do
  let x ← fs.requiredReal "x"
  let y ← fs.requiredReal "y"
  let width ← fs.requiredReal "width"
  .ok ⟨x, y, width, ← fs.requiredReal "height"⟩

end CropParams

end Montage
