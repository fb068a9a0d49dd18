import Montage.Edit.Kind
import Montage.Filter.Expression
import Montage.Segment.Graph
import Montage.Settings
import Montage.Text.ShellWord

/-!
# Commands of the renderer

The command that applies a compiled edit to a file: the filters, the way in which the result is
encoded, and the file that is written. A picture is looped for one frame and has no sound.

## Main definitions

* `Montage.Compiled`: what an edit is compiled to.
* `Montage.renderCommand`: the command.
-/

namespace Montage

/-- What an edit is compiled to: filters for the whole clip, or the spans that are kept of it. -/
inductive Compiled
  | expression (e : Expression)
  | plan (p : SegmentPlan Number)
  deriving Inhabited

namespace Compiled

/-- The options that apply a compiled edit. -/
def options (audio : Bool) : Compiled → Except Fault (List String)
  | plan p => return "-filter_complex" :: (← p.graph audio) :: outputMaps audio
  | expression e =>
    let video := match e.videoFilter? with
      | some v => if v = "" then [] else ["-vf", v]
      | none => []
    let sound := match e.audioFilter? with
      | some a => if a = "" || !audio then [] else ["-af", a]
      | none => []
    .ok (video ++ sound)

/-- The files that were written for the filters alone. -/
def scratch : Compiled → List String
  | expression e => e.scratch
  | plan _ => []

end Compiled

namespace Settings

/-- A setting of the renderer. -/
def renderValue (s : Settings) (key : String) (default_ : Value) : Value :=
  (s.render.get? key).getD default_

/-- The options by which the result is encoded. -/
def encoding (s : Settings) (audio : Bool) : Command :=
  [.string "-c:v", s.renderValue "video_codec" (.string "libx264"),
    .string "-preset", .string (s.renderValue "preset" (.string "medium")).text,
    .string "-crf", .string (s.renderValue "crf" (.int 23)).text] ++
    if audio then [.string "-c:a", s.renderValue "audio_codec" (.string "aac")] else []

end Settings

/-- The command that applies a compiled edit to the file `input` and writes the file `output`. -/
def renderCommand (s : Settings) (input output : String) (compiled : Compiled)
    (resource : Resource) (hasAudio : Bool) : Except Fault Command := do
  let image := resource = .image
  let audio := hasAudio && !image
  let loop := if image then
      ["-loop", "1", "-t", (s.renderValue "image_duration" (.int 1)).text]
    else []
  let filters ← compiled.options audio
  let encoding := if image then [.string "-frames:v", .string "1"] else s.encoding audio
  return s.renderer ::
    (["-y", "-hide_banner"] ++ loop ++ ["-i", input] ++ filters).map Value.string ++ encoding ++
    [.string output]

end Montage
