import Montage.Choice
import Montage.Color.Basic
import Montage.Edit.Params
import Montage.Settings

/-!
# Styles of captions

Colour, size, place and style of captions come from the request, else from the settings. What
cannot be made sense of is replaced by a default, with a warning.

## Main definitions

* `Montage.CaptionStyle`: a resolved style; `CaptionStyle.line` and `CaptionStyle.overrides` write
  it.
* `CaptionStyle.resolve`: the style of a request with its warnings.
-/

namespace Montage

/-- A resolved style. -/
structure CaptionStyle where
  font : Value
  size : Int
  primary : String
  outlineColor : String
  backColor : String
  bold : Bool
  outline : Nat
  shadow : Nat
  borderStyle : Nat
  alignment : Nat
  marginV : Nat
  deriving Inhabited

/-- The style in fields. -/
def CaptionStyle.toFields (s : CaptionStyle) : Fields :=
  [("font", s.font), ("size", .int s.size), ("primary", .string s.primary),
    ("outline_color", .string s.outlineColor), ("back_color", .string s.backColor),
    ("bold", .bool s.bold), ("outline", .int s.outline), ("shadow", .int s.shadow),
    ("border_style", .int s.borderStyle), ("alignment", .int s.alignment),
    ("margin_v", .int s.marginV)]

/-- The sizes of captions by name. -/
def captionSizes : List (String × Int) :=
  [("small", 18), ("medium", 24), ("large", 36), ("xlarge", 48)]

/-- The places of captions, in the order of a number pad. -/
def captionAlignments : List (String × Nat) :=
  [("bottom-left", 1), ("bottom", 2), ("bottom-right", 3), ("left", 4), ("center", 5),
    ("right", 6), ("top-left", 7), ("top", 8), ("top-right", 9)]

/-- The styles of captions: whether they are bold, the width of the outline, the depth of the
shadow. -/
def captionStyles : List (String × Bool × Nat × Nat) :=
  [("normal", false, 2, 1), ("bold", true, 2, 1), ("glow", true, 4, 3), ("outline", false, 3, 0),
    ("shadow", false, 1, 3)]

/-- A colour of captions, or nothing if the text is no colour. Only a text can be a colour. -/
def captionColor? (v : Value) (transparency : Int) : Except Fault (Option String) :=
  match v with
  | .string s =>
    match subtitleColor s transparency with
    | .ok c => .ok (some c)
    | .error _ => .ok none
  | v => .error (.member v.typeName "strip")

/-- A colour that is known. -/
def knownColor (name : String) (transparency : Int) : String :=
  match subtitleColor name transparency with
  | .ok c => c
  | .error _ => ""

/-- The size of captions, and a warning if it is no size. -/
def captionSize (v : Value) : Except Fault (Int × List String) :=
  match v.count? with
  | some n => n.toInt.map fun size => (size, [])
  | none =>
    let key := v.choiceKey
    if Text.allDigits key.toList then (Numeral.integer key).map fun size => (size, [])
    else
      match captionSizes.lookup key with
      | some size => .ok (size, [])
      | none => .ok (24, ["Unknown caption size '" ++ v.text ++ "', using medium"])

namespace CaptionStyle

/-- The style of a request, and the warnings about what it could not use. -/
def resolve (defaults : Fields) (p : CaptionParams) :
    Except Fault (CaptionStyle × List String) := do
  let color := p.color.orElse (defaults.get "color")
  let (primary, colorWarnings) ← match ← captionColor? color 0 with
    | some c => .ok (c, [])
    | none =>
      .ok (knownColor "white" 0, ["Unknown caption colour '" ++ color.text ++ "', using white"])
  let (size, sizeWarnings) ← captionSize (match p.size with
    | .null => defaults.get "size"
    | v => v)
  let place := (p.position.orElse (defaults.get "position")).choiceKey
  let (alignment, placeWarnings) := match captionAlignments.lookup place with
    | some a => (a, [])
    | none => (2, ["Unknown caption position '" ++ p.position.text ++ "', using bottom"])
  let name := (p.style.orElse (defaults.get "style")).choiceKey
  let ((bold, outline, shadow), styleWarnings) := match captionStyles.lookup name with
    | some s => (s, [])
    | none => ((false, 2, 1), ["Unknown caption style '" ++ p.style.text ++ "', using normal"])
  let outlineColor := if name = "glow" then primary else knownColor "black" 0
  let (backColor, borderStyle, backWarnings) ←
    if p.background.isTruthy then do
      match ← captionColor? p.background 0x40 with
      | some c => .ok (c, 3, [])
      | none =>
        .ok (knownColor "black" 0x80, 1,
          ["Unknown caption background '" ++ p.background.text ++ "', ignored"])
    else .ok (knownColor "black" 0x80, 1, [])
  let font := (defaults.get? "font").getD (.string "Arial")
  return ({ font, size, primary, outlineColor, backColor, bold, outline, shadow, borderStyle,
            alignment, marginV := 40 },
    colorWarnings ++ sizeWarnings ++ placeWarnings ++ styleWarnings ++ backWarnings)

/-- The mark for bold or plain letters. -/
def boldText (s : CaptionStyle) : String := if s.bold then "-1" else "0"

/-- The style as a line of a subtitle document. -/
def line (s : CaptionStyle) : String :=
  "Style: Default," ++ ",".intercalate
    [s.font.text, intText s.size, s.primary, "&H000000FF", s.outlineColor, s.backColor, s.boldText,
      "0", "0", "0", "100", "100", "0", "0", digitText s.borderStyle, digitText s.outline,
      digitText s.shadow, digitText s.alignment, "20", "20", digitText s.marginV, "1"]

/-- The style as it is forced upon a subtitle file. -/
def overrides (s : CaptionStyle) : String :=
  ",".intercalate
    ["FontName=" ++ s.font.text, "FontSize=" ++ intText s.size, "PrimaryColour=" ++ s.primary,
      "OutlineColour=" ++ s.outlineColor, "BackColour=" ++ s.backColor, "Bold=" ++ s.boldText,
      "BorderStyle=" ++ digitText s.borderStyle, "Outline=" ++ digitText s.outline,
      "Shadow=" ++ digitText s.shadow, "Alignment=" ++ digitText s.alignment]

end CaptionStyle

end Montage
