import Montage.Filter.Compile
import Montage.Preview.Percent
import Montage.Preview.Steps

/-!
# Edits as steps of the preview service

The preview service shows most edits, but only a line of text can be limited to a window of time;
any other edit is shown for the whole clip, with a warning.

## Main definitions

* `Studio.previewEdit`: the steps of an edit with warnings.
* `Studio.previewOperation`: the descriptor of an operation.
* `Montage.gravity`: the anchor of a place.
-/

namespace Montage

/-- The part of the journal about previews. -/
def previewSource : String := "vedit.preview.transform"

/-- The anchors by place. -/
def anchors : List (String × String) :=
  [("top", "north"), ("bottom", "south"), ("center", "center"), ("left", "west"),
    ("right", "east"), ("top-left", "north_west"), ("top-right", "north_east"),
    ("bottom-left", "south_west"), ("bottom-right", "south_east")]

/-- The sizes of text by name. -/
def previewSizes : List (String × Int) :=
  [("small", 24), ("medium", 36), ("large", 48), ("xlarge", 60)]

/-- The parameters of an anchor; it is moved in from the edges that it touches. -/
def anchorStep (key anchor : String) (inset : Value) : Fields :=
  let x := if occursIn "left" key || occursIn "right" key then [("x", inset)] else []
  let y := if occursIn "top" key || occursIn "bottom" key then [("y", inset)] else []
  ("gravity", .string anchor) :: (x ++ y)

/-- The parameters for a place. An unknown one is replaced by the bottom, with an entry in the
journal. -/
def gravity (position inset : Value) : Action Fields := do
  let key := (position.orElse (.string "bottom")).choiceKey
  match anchors.lookup key with
  | some anchor => return anchorStep key anchor inset
  | none =>
    Action.warn previewSource ("Unknown position '" ++ position.text ++ "', using bottom")
    return anchorStep "bottom" "south" inset

/-- The size of text, and a warning if it is no size. Sizes lie between 12 and 200. -/
def previewSize (size : Value) : Except Fault (Int × List String) :=
  match size with
  | .null => .ok (36, [])
  | .string s =>
    if Text.allDigits s.strip.toList then clamped size
    else
      match previewSizes.lookup s.strip.lowerCase with
      | some n => .ok (n, [])
      | none => .ok (36, ["Unknown font size '" ++ s ++ "', using medium"])
  | size => clamped size
where
  /-- The integer of a value within the bounds of sizes. -/
  clamped (v : Value) : Except Fault (Int × List String) :=
    v.toInt.map fun n => (min (max n 12) 200, [])

/-- A parameter with a colour, or a warning if it is none. Only a text can be a colour. -/
def colorPart (key : String) (v : Value) (fallback : Fields) (notice : String) :
    Except Fault (Fields × List String) :=
  match v with
  | .string s =>
    match serviceColor s with
    | .ok c => .ok ([(key, .string c)], [])
    | .error _ => .ok (fallback, [notice])
  | v => .error (.member v.typeName "strip")

/-- A number as the value of a parameter. -/
def numberPart (x : Binary64) : Value := .number (stepNumber x)

/-- The bounds of a window as parameters. -/
def windowParts : Option Window → Except Fault Fields
  | none => .ok []
  | some w => do
    let start ← w.start.toReal?
    match w.finish with
    | none => return [("start_offset", numberPart start)]
    | some e =>
      return [("start_offset", numberPart start), ("end_offset", numberPart (← e.toReal?))]

/-- The bounds of a trim as parameters. -/
def TrimParams.step (p : TrimParams) : Fields :=
  ("start_offset", numberPart p.start) ::
    (p.finish.map fun e => ("end_offset", numberPart e)).toList

/-- The rectangle of a crop as parameters. -/
def CropParams.step (p : CropParams) : Fields :=
  [("crop", .string "crop"), ("width", numberPart p.width), ("height", numberPart p.height),
    ("x", numberPart p.x), ("y", numberPart p.y)]

/-- The step of a zoom. The service only enlarges. -/
def ZoomParams.steps (p : ZoomParams) : Except EditError (List Fields) :=
  let zoom := p.zoom.getD (directionFactor "in" "out" p.direction)
  if zoom < 1 then
    .error (.compilation "Zooming out is not supported by the preview renderer")
  else
    let ratio := numberPart (1 / zoom)
    .ok [[("crop", .string "crop"), ("gravity", .string "center"), ("width", ratio),
      ("height", ratio)]]

namespace Studio

/-- The steps of a line of text in a window. -/
def previewText (s : Studio) (p : TextParams) (window : Option Window) :
    Action (List Fields × List String) := do
  let font := ((s.settings.preview.get? "font_family").getD (.string "Arial")).text
  let (size, sizeWarnings) ← Action.ofFault (previewSize p.size)
  let bold ← Action.ofFault (isBold p.style)
  let overlay := "text:" ++ font ++ "_" ++ intText size ++ (if bold then "_bold" else "") ++ ":" ++
    overlayText p.text
  let (color, colorWarnings) ← Action.ofFault (colorPart "color" (.string p.color)
    [("color", .string "white")] ("Unknown text colour '" ++ p.color ++ "', using white"))
  let (back, backWarnings) ← if p.background.isTruthy then
      Action.ofFault (colorPart "background" p.background []
        ("Unknown background colour '" ++ p.background.text ++ "', ignored"))
    else pure ([], [])
  let inset := (s.settings.preview.get? "inset").getD (.int 20)
  let place ← gravity (.string p.position) inset
  let bounds ← Action.ofFault (windowParts window)
  return ([("overlay", .string overlay) :: (color ++ back),
      ("flags", .string "layer_apply") :: (place ++ bounds)],
    sizeWarnings ++ colorWarnings ++ backWarnings)

/-- The steps of an edit, and warnings. -/
def previewEdit (s : Studio) (window : Option Window) : Edit → Action (List Fields × List String)
  | .trim p => return ([p.step], [])
  | .removeClip _ => unsupported .removeClip
  | .colorGrade p => do
    let found := s.looks.grade (.string p.preset)
    let grade ← Action.ofFault ((← foundLook found).scaled (p.intensity.map Number.real))
    return (← Action.ofFault grade.steps, found.notices)
  | .applyEffect p => effect (effectNamed (.string p.preset))
  | .addText p | .customText p => s.previewText p window
  | .filter p => effect (filterNamed (.string p.filter))
  | .addCaptions _ => unsupported .addCaptions
  | .adjustIntensity p => do
    match (if p.effect.isTruthy then effect? p.effect else none) with
    | some e => return (← Action.ofEdit e.steps, [])
    | none =>
      let intensity := p.intensity.getD (directionFactor "more" "less" p.direction)
      return ([strengthStep "gamma" ((intensity - 1) * 100)], [])
  | .adjustZoom p => return (← Action.ofEdit p.steps, [])
  | .adjustSpeed p => return ([strengthStep "accelerate" ((p.speed - 1) * 100)], [])
  | .rotate p => return ([[("angle", numberPart p.degrees)]], [])
  | .crop p => return ([p.step], [])
where
  /-- The refusal of an edit that the service does not show. -/
  unsupported (kind : Kind) : Action (List Fields × List String) :=
    Action.refuse (.compilation (kind.name ++ " is not supported by the preview renderer"))
  /-- The steps of an effect or a filter. -/
  effect (found : Found Effect) : Action (List Fields × List String) := do
    return (← Action.ofEdit (← foundLook found).steps, found.notices)

/-- The warning about a window that the service cannot keep to. -/
def windowNotice (kind : Kind) (w : Window) : String :=
  "Preview cannot limit " ++ kind.name ++ " to " ++ w.start.text ++ "-" ++
    ((w.finish.map Number.text).getD "None") ++ "s, applying globally"

/-- The descriptor of an operation. -/
def previewOperation (s : Studio) (o : Operation) (resource : Resource) : Action Descriptor := do
  let (steps, warnings) ← s.previewEdit o.window o.edit
  let notices := match o.window with
    | some w => if o.kind.isText then [] else [windowNotice o.kind w]
    | none => []
  Action.warnAll previewSource notices
  let d : Descriptor := ⟨o.kind, resource, steps, warnings ++ notices⟩
  let _ ← Action.ofFault d.path
  return d

/-- The descriptor of a kind with parameters of any form. -/
def preview (s : Studio) (kind params : Value) (window : Option Window) (resource : Resource) :
    Action Descriptor := do
  s.previewOperation (← Action.ofFailure (operationOf kind params window)) resource

end Studio

end Montage
