import Montage.Caption.Compile
import Montage.Catalog.Edits
import Montage.Edit.Operation
import Montage.Files.Font
import Montage.Filter.Tempo
import Montage.Look.Stages
import Montage.Look.Table

/-!
# Edits as filters

Every edit but the removal of a clip becomes one expression for the renderer. A window of time
becomes its gate, if the edit can be limited to a window; otherwise the edit applies to the whole
clip, with a warning.

## Main definitions

* `Montage.Studio`: the settings with the looks that they define.
* `Studio.compileEdit`: the expression of an edit.
* `Studio.compileOperation`: the expression with its gate.
* `Studio.compile`: the expression of a kind with parameters of any form.
-/

namespace Montage

/-- The settings, and the looks that they define. -/
structure Studio where
  settings : Settings
  looks : Looks
  deriving Inhabited

/-- The studio of settings. -/
def Studio.of (settings : Settings) : Except Fault Studio := do
  return ⟨settings, ← Looks.of settings.grades⟩

/-- The part of the journal about filters. -/
def filterSource : String := "vedit.filters.compiler"

/-- The part of the journal about looks. -/
def lookSource : String := "vedit.catalog.presets"

/-- A look as it was found; that it is only a substitute goes to the journal. -/
def foundLook {α : Type} (f : Found α) : Action α := do
  Action.warnAll lookSource f.notices
  return f.look

/-- The sizes of text by name. -/
def textSizes : List (String × Int) :=
  [("small", 24), ("medium", 36), ("large", 48), ("xlarge", 60)]

/-- The factor that a direction stands for. -/
def directionFactor (up down : String) (direction : Value) : Binary64 :=
  let name := if direction.isTruthy then direction.text.lowerCase else ""
  if name = up then decimal 12 10 else if name = down then decimal 8 10 else 1

/-- A colour for the text filter. An unknown one is replaced, with a warning. -/
def drawtextColor (color fallback : Value) : Action String := do
  match color.orElse fallback with
  | .string s =>
    match Color.parse s.strip with
    | .ok c => return c.filterText
    | .error _ =>
      Action.warn filterSource
        ("Unknown text colour '" ++ color.text ++ "', using " ++ fallback.text)
      match fallback with
      | .string f => return (← Action.ofFault (Color.parse f)).filterText
      | v =>
        let _ ← Action.ofFault v.length
        Action.faulted (.member v.typeName "lower")
  | v => Action.faulted (.member v.typeName "strip")

/-- The size of text, and a warning if it is no size. -/
def textSize (size : Value) (default_ : Int) : Except Fault (Int × List String) :=
  match size, size.count? with
  | .null, _ => .ok (default_, [])
  | _, some n => n.toInt.map fun k => (k, [])
  | size, none =>
    let key := size.text.strip.lowerCase
    if Text.allDigits key.toList then (Numeral.integer key).map fun k => (k, [])
    else
      match textSizes.lookup key with
      | some k => .ok (k, [])
      | none =>
        .ok (default_,
          ["Unknown font size '" ++ size.text ++ "', using " ++ intText default_])

/-- The two parts of a place, the vertical one first. -/
def placeParts (key : String) : String × String :=
  if key = "left" || key = "right" then ("center", key)
  else
    let cs := key.toList
    let vertical := String.ofList (cs.takeWhile (· ≠ '-'))
    let horizontal := String.ofList ((cs.dropWhile (· ≠ '-')).drop 1)
    (vertical, if horizontal = "" then "center" else horizontal)

/-- The expression for a place across the picture. -/
def acrossText (margin : String) : List (String × String) :=
  [("left", margin), ("center", "(w-text_w)/2"), ("right", "w-text_w-" ++ margin)]

/-- The expression for a place down the picture. -/
def downText (margin : String) : List (String × String) :=
  [("top", margin), ("center", "(h-text_h)/2"), ("bottom", "h-text_h-" ++ margin)]

/-- The expressions for the place of a text, and a warning if there is no such place. -/
def textPlace (key shown margin : String) : (String × String) × List String :=
  let (vertical, horizontal) := placeParts key
  match (acrossText margin).lookup horizontal, (downText margin).lookup vertical with
  | some x, some y => ((x, y), [])
  | _, _ =>
    (("(w-text_w)/2", "h-text_h-" ++ margin),
      ["Unknown text position '" ++ shown ++ "', using bottom"])

/-- The stages that enlarge or reduce the picture. -/
def zoomStages (zoom : Binary64) : List Stage :=
  let z := zoom.general
  let half (side operator : String) : OptionValue :=
    .expression ("trunc(" ++ side ++ operator ++ z ++ "/2)*2")
  let scale : Stage := .of "scale" [("w", half "iw" "*"), ("h", half "ih" "*")]
  if 1 < zoom then [.of "crop" [("w", half "iw" "/"), ("h", half "ih" "/")], scale]
  else
    [scale,
      .of "pad" [("w", half "iw" "/"), ("h", half "ih" "/"), ("x", .expression "(ow-iw)/2"),
        ("y", .expression "(oh-ih)/2"), ("color", .string "black")]]

/-- The binary number nearest to half the circumference of the unit circle. -/
def halfTurn : Binary64 := .finite (884279719003555 / 281474976710656)

/-- The stages that rotate the picture. -/
def rotationStages (degrees : Binary64) : List Stage :=
  let turn := degrees.mod 360
  if turn == 0 then []
  else if turn == 90 then [.ofArgs "transpose" [.int 1]]
  else if turn == 270 then [.ofArgs "transpose" [.int 2]]
  else if turn == 180 then [.of "hflip" [], .of "vflip" []]
  else
    [.of "rotate" [("angle", .real ((degrees * (halfTurn / 180)).roundPlaces 6)),
      ("fillcolor", .string "black@0")]]

/-- The stages that trim and restart the time. -/
def trimStages (p : TrimParams) (trim setpts : String) : List Stage :=
  let limit := match p.finish with
    | some e => [("end", OptionValue.real e)]
    | none => []
  [.of trim (("start", .real p.start) :: limit), .ofArgs setpts [.string "PTS-STARTPTS"]]

namespace CropParams

/-- The stage that crops, in whole pixels. -/
def stage (p : CropParams) : Except Fault Stage := do
  let w ← p.width.toInt
  let h ← p.height.toInt
  let x ← p.x.toInt
  let y ← p.y.toInt
  return .of "crop" [("w", .int w), ("h", .int h), ("x", .int x), ("y", .int y)]

end CropParams

namespace SpeedParams

/-- The expression for a speed. -/
def expression (p : SpeedParams) : Except EditError Expression :=
  if p.speed ≤ 0 then .error (.compilation ("Speed must be positive, got " ++ p.speed.text))
  else if p.speed == 1 then .ok .nothing
  else
    .ok { Expression.ofVideo [.ofArgs "setpts" [.expression ("PTS/" ++ p.speed.general)]] with
      audio := tempoStages p.speed }

end SpeedParams

namespace Studio

/-- The expression of a colour grade. -/
def compileGrade (s : Studio) (p : GradeParams) : Action Expression := do
  let found := s.looks.grade (.string p.preset)
  let grade ← Action.ofFault ((← foundLook found).scaled (p.intensity.map Number.real))
  let stages ← Action.ofFault grade.stages
  Action.warnAll filterSource grade.notices
  return { Expression.ofVideo stages with warnings := found.notices }

/-- The expression of an effect or a filter. -/
def compileEffect (found : Found Effect) (strength : Binary64) (level : Option Binary64) :
    Action Expression := do
  let effect ← foundLook found
  let stages ← Action.ofFault (effect.expand (.real strength) (level.map Number.real))
  return { Expression.ofVideo stages with warnings := found.notices }

/-- The options that choose the font of a text. -/
def fontOptions (s : Studio) (font : Value) : Action (List (String × OptionValue)) := do
  let name := font.orElse (s.settings.text.get "font")
  match ← Action.ofFault ((← Action.files).resolveFont name s.settings.fontFile) with
  | some path => return [("fontfile", .string path.text)]
  | none => return if font.isTruthy then [("font", .literal font)] else []

/-- The options that set a text off from the picture. -/
def backgroundOptions (s : Studio) (background : Value) :
    Action (List (String × OptionValue)) := do
  if background.isTruthy then
    let opacity := (s.settings.text.get? "box_opacity").getD (.real (.nearest (1 / 2)))
    let color ← drawtextColor background (.string "black")
    return [("box", .int 1), ("boxcolor", .string (color ++ "@" ++ opacity.text)),
      ("boxborderw", .int 10)]
  else
    return [("shadowcolor", .string "black@0.5"), ("shadowx", .int 2), ("shadowy", .int 2)]

/-- The text says that letters are bold. -/
def isBold (style : Value) : Except Fault Bool :=
  if style.isTruthy then
    match style with
    | .string s => .ok (s.lowerCase = "bold")
    | v => .error (.member v.typeName "lower")
  else .ok false

/-- The expression of a line of text. -/
def compileText (s : Studio) (p : TextParams) : Action Expression := do
  let settings := s.settings.text
  let defaultSize ← Action.ofFault ((settings.get? "font_size").getD (.int 24)).toInt
  let (size, sizeWarnings) ← Action.ofFault (textSize p.size defaultSize)
  Action.warnAll filterSource sizeWarnings
  let margin ← Action.ofFault ((settings.get? "margin").getD (.int 10)).toInt
  let place := (Value.string p.position).orElse (settings.get "position")
  let ((x, y), placeWarnings) := textPlace place.choiceKey p.position (intText margin)
  Action.warnAll filterSource placeWarnings
  let font ← s.fontOptions p.font
  let color ← drawtextColor (.string p.color) ((settings.get? "color").getD (.string "white"))
  let background ← s.backgroundOptions p.background
  let bold ← Action.ofFault (isBold p.style)
  let border := if bold then [("borderw", .int 2), ("bordercolor", .string "black")] else []
  let options := font ++
    [("text", .string p.text), ("expansion", .string "none"), ("fontsize", .int size),
      ("fontcolor", .string color), ("x", .expression x), ("y", .expression y)] ++
    background ++ border
  return { Expression.ofVideo [.of "drawtext" options] with
    warnings := sizeWarnings ++ placeWarnings }

/-- The expression of a stronger or weaker look. -/
def compileIntensity (p : IntensityParams) : Action Expression := do
  let intensity := p.intensity.getD (directionFactor "more" "less" p.direction)
  match (if p.effect.isTruthy then effect? p.effect else none) with
  | some effect =>
    return .ofVideo (← Action.ofFault (effect.expand (.real (intensity.smaller 1)) none))
  | none => return .ofVideo [.of "eq" [("gamma", .real intensity)]]

/-- The expression of a zoom. -/
def compileZoom (p : ZoomParams) : Expression :=
  let zoom := p.zoom.getD (directionFactor "in" "out" p.direction)
  if zoom == 1 then .nothing else .ofVideo (zoomStages zoom)

/-- The expression of an edit. -/
def compileEdit (s : Studio) : Edit → Action Expression
  | .trim p =>
    return { Expression.ofVideo (trimStages p "trim" "setpts") with
      audio := trimStages p "atrim" "asetpts" }
  | .removeClip _ =>
    Action.refuse (.compilation (Kind.removeClip.name ++
      " is not compiled to a single filter expression"))
  | .colorGrade p => s.compileGrade p
  | .applyEffect p =>
    compileEffect (effectNamed (.string p.preset)) p.intensity none
  | .addText p | .customText p => s.compileText p
  | .filter p =>
    compileEffect (filterNamed (.string p.filter)) (.nearest (1 / 2)) p.level
  | .addCaptions p => compileCaptions s.settings p
  | .adjustIntensity p => compileIntensity p
  | .adjustZoom p => return compileZoom p
  | .adjustSpeed p => Action.ofEdit p.expression
  | .rotate p => return .ofVideo (rotationStages p.degrees)
  | .crop p => return .ofVideo [← Action.ofFault p.stage]

/-- The expression limited to a window, or applied to the whole clip with a warning. -/
def applyWindow (kind : Kind) (window : Window) (e : Expression) : Action Expression := do
  if (specOf kind).windowed then
    if e.video.isEmpty then return e
    else
      let gate ← Action.ofFault (Gate.checked ⟨window.start, window.finish⟩)
      return { e with gate := some gate }
  else
    let warning := kind.name ++ " does not support time windows, applying to the whole clip"
    Action.warn filterSource warning
    return e.warn warning

/-- The expression of an operation. -/
def compileOperation (s : Studio) (o : Operation) : Action Expression := do
  let e ← s.compileEdit o.edit
  match o.window with
  | some w => applyWindow o.kind w e
  | none => return e

/-- The operation of a kind with parameters of any form; what is no form for them is refused. -/
def operationOf (kind params : Value) (window : Option Window) : Except Failure Operation :=
  match Operation.build kind params window with
  | .error (.fault f) =>
    if f.isOfForm then
      .error (.edit (.compilation ("Invalid parameters for " ++ kind.text ++ ": " ++ f.message)))
    else .error (.fault f)
  | r => r

/-- The expression of a kind with parameters of any form. -/
def compile (s : Studio) (kind params : Value) (window : Option Window) : Action Expression := do
  s.compileOperation (← Action.ofFailure (operationOf kind params window))

end Studio

end Montage
