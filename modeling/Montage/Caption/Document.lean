import Montage.Caption.Style
import Montage.Caption.Timestamp
import Montage.Filter.Escape

/-!
# Subtitle documents

A subtitle document has a fixed header with one style, and one line for each caption that is shown,
in the order of their starts. A caption is shown if it has a text and ends after its start.

## Main definitions

* `Montage.captionText`: a text with the characters escaped that mean something in subtitles.
* `Montage.shownCues`: the captions that are shown, in order.
* `Montage.subtitleDocument`: the document.
-/

namespace Montage

/-- The spelling of one character of a caption. -/
def captionChar (c : Char) : List Char :=
  if c = '\\' then ['\\', '\\']
  else if c = '\x7b' then ['\\', '\x7b']
  else if c = '\x7d' then ['\\', '\x7d']
  else if c = '\n' then ['\\', 'N']
  else [c]

/-- The characters of a caption, escaped. -/
def escapeCaption (cs : List Char) : List Char := (Escape.joinLineEnds cs).flatMap captionChar

/-- A text with the characters escaped that mean something in subtitles. -/
def captionText (s : String) : String := String.ofList (escapeCaption s.toList)

namespace Cue

/-- The caption has a text and a duration. -/
def isShown (c : Cue) : Bool := !(c.finish ≤ c.start) && !c.text.isBlank

/-- The line of the caption. -/
def line (c : Cue) : Except Fault String := do
  let start ← timestamp (.real c.start)
  let finish ← timestamp (.real c.finish)
  return "Dialogue: 0," ++ start ++ "," ++ finish ++ ",Default,,0,0,0,," ++ captionText c.text

end Cue

/-- The captions in the order of their starts. -/
def sortedCues (cues : List Cue) : List Cue := cues.mergeSort fun c d => !(d.start < c.start)

/-- The captions that are shown, in order. -/
def shownCues (cues : List Cue) : List Cue := (sortedCues cues).filter Cue.isShown

/-- The lines before the captions, for a picture of the given width and height. -/
def documentHeader (width height : String) (style : CaptionStyle) : List String :=
  ["[Script Info]", "ScriptType: v4.00+", "PlayResX: " ++ width, "PlayResY: " ++ height,
    "WrapStyle: 0", "ScaledBorderAndShadow: yes", "", "[V4+ Styles]",
    "Format: Name, Fontname, Fontsize, PrimaryColour, SecondaryColour, OutlineColour, " ++
      "BackColour, Bold, Italic, Underline, StrikeOut, ScaleX, ScaleY, Spacing, Angle, " ++
      "BorderStyle, Outline, Shadow, Alignment, MarginL, MarginR, MarginV, Encoding",
    style.line, "", "[Events]",
    "Format: Layer, Start, End, Style, Name, MarginL, MarginR, MarginV, Effect, Text"]

/-- The two items of a setting for width and height. -/
def resolutionOf (v : Value) : Except Fault (String × String) :=
  match v.items with
  | .ok [w, h] => .ok (w.text, h.text)
  | .ok vs => .error (.value (.partCount 2 vs.length))
  | .error _ =>
    .error (.type (.other ("cannot unpack non-iterable " ++ v.typeName ++ " object")))

/-- The document with the captions. -/
def subtitleDocument (defaults : Fields) (cues : List Cue) (style : CaptionStyle) :
    Except Fault String := do
  let resolution := (defaults.get? "play_res").getD (.list [.int 1920, .int 1080])
  let (width, height) ← resolutionOf resolution
  let lines ← (shownCues cues).mapM Cue.line
  return "\n".intercalate (documentHeader width height style ++ lines) ++ "\n"

end Montage
