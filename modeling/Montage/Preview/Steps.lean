import Montage.Color.Basic
import Montage.Edit.Operation
import Montage.Look.Table

/-!
# Steps of the preview service

The preview service applies steps to a resource, each a list of named parameters. In a URL every
parameter is written as a code and its value; the parameters of a step are separated by commas, and
the steps by slashes.

## Main definitions

* `Montage.Descriptor`: the steps of an edit, with warnings.
* `Descriptor.path`: the steps as they stand in a URL.
* `Grade.steps`: the steps of a colour grade.
-/

namespace Montage

/-- The codes of the parameters. -/
def stepCodes : List (String × String) :=
  [("overlay", "l"), ("crop", "c"), ("gravity", "g"), ("width", "w"), ("height", "h"), ("x", "x"),
    ("y", "y"), ("angle", "a"), ("effect", "e"), ("color", "co"), ("background", "b"),
    ("start_offset", "so"), ("end_offset", "eo"), ("flags", "fl")]

/-- A parameter as it stands in a URL. -/
def stepPart (f : String × Value) : Except Fault String :=
  match stepCodes.lookup f.1 with
  | some code => .ok (code ++ "_" ++ f.2.text)
  | none => .error (.key f.1)

/-- A step as it stands in a URL. -/
def stepText (step : Fields) : Except Fault String := do
  return ",".intercalate (← step.mapM stepPart)

/-- The steps of one edit. -/
structure Descriptor where
  kind : Kind
  resource : Resource
  steps : List Fields
  warnings : List String
  deriving Inhabited

namespace Descriptor

/-- The steps as they stand in a URL. -/
def path (d : Descriptor) : Except Fault String := do
  return "/".intercalate (← d.steps.mapM stepText)

/-- The descriptor in fields. -/
def toFields (d : Descriptor) : Fields :=
  [("kind", .string d.kind.name), ("resource_type", .string d.resource.name),
    ("steps", .list (d.steps.map .object)), ("warnings", .strings d.warnings)]

end Descriptor

/-- A number with at most four decimal places, an integer where it is one. -/
def stepNumber (x : Binary64) : Number :=
  let r := x.roundPlaces 4
  match r.isInteger, r.toRat? with
  | true, some v => .int (Binary64.truncate v)
  | _, _ => .real r

/-- A step with one effect. -/
def effectStep (effect : String) : Fields := [("effect", .string effect)]

/-- A step with one effect and its strength. -/
def strengthStep (effect : String) (x : Binary64) : Fields :=
  effectStep (effect ++ ":" ++ (stepNumber x).text)

namespace Grade

/-- The steps of a named curve; one without a preview has none. -/
def curveSteps (curve : Value) : Except Fault (List Fields) :=
  if !curve.isTruthy then .ok []
  else if !curve.isHashable then .error (.type (.unhashable curve.typeName))
  else match curve with
    | .string name => .ok (effectSteps ((curvePreview.lookup name).getD []))
    | _ => .ok []

/-- The step of a colour cast. -/
def tintSteps : Tint → Except Fault (List Fields)
  | .none => .ok []
  | .cast color strength => do
    return [strengthStep "colorize" (strength * 100) ++
      [("color", .string (← serviceColor color))]]
  | .unreadable v => if v.isTruthy then .error (.member v.typeName "strength") else .ok []

/-- The step of a change, unless it is zero. -/
def changeSteps (effect : String) (n : Number) : List Fields :=
  if n.isZero then [] else [strengthStep effect n.toReal]

/-- The steps of a grade: those that it lists itself, else those that follow from its numbers. -/
def steps (g : Grade) : Except Fault (List Fields) := do
  match g.preview with
  | some listed => listed.mapM Value.asFields
  | none =>
    let art := if g.art.isTruthy then [effectStep ("art:" ++ g.art.text)] else []
    let curve ← curveSteps g.curve
    let gray := if g.isGrayscale then [effectStep "grayscale"] else []
    let saturation := if g.isGrayscale then [] else changeSteps "saturation" g.saturation
    let tint ← tintSteps g.tint
    return art ++ curve ++ gray ++ changeSteps "brightness" g.brightness ++
      changeSteps "contrast" g.contrast ++ saturation ++ changeSteps "gamma" g.gamma ++
      changeSteps "sepia" g.sepia ++ tint

end Grade

/-- The steps of an effect, which may have none. -/
def Effect.steps (e : Effect) : Except EditError (List Fields) :=
  match e.preview with
  | some steps => .ok steps
  | none => .error (.compilation ("Effect '" ++ e.name ++ "' has no preview equivalent"))

end Montage
