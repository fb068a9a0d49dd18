import Montage.Color.Basic
import Montage.Look.Catalog

/-!
# Filter stages of a colour grade

The changes of a grade as stages of the renderer: a named curve; one stage for brightness, contrast,
saturation and gamma; one each for the loss of colour, sepia and the colour cast. A change of zero
leaves no trace.

## Main definitions

* `Grade.stages`: the stages.
* `Montage.sepiaStage`, `Montage.tintStage`: the stages of sepia and of a colour cast.
-/

namespace Montage

/-- The value of the sepia matrix in one of its places. -/
def sepiaEntry (row column : Nat) : Binary64 :=
  decimal ((sepiaMatrix[row]?.getD [])[column]?.getD 0) 1000

/-- The channels of a picture. -/
def channels : List (Nat × String) := [(0, "r"), (1, "g"), (2, "b")]

/-- One value of the mixture of no change and full sepia. -/
def sepiaMix (amount : Binary64) (row column : Nat) : Binary64 :=
  let identity : Binary64 := if row = column then 1 else 0
  (identity * (1 - amount) + sepiaEntry row column * amount).roundPlaces 4

/-- The stage that goes the part `amount` of the way to sepia. -/
def sepiaStage (amount : Binary64) : Stage :=
  let part := (amount.larger 0).smaller 1
  .of "colorchannelmixer" (channels.flatMap fun (row, goal) => channels.map fun (column, source) =>
    (goal ++ source, .real (sepiaMix part row column)))

/-- The shift of one channel toward a part of a colour. -/
def tintShift (part : Int) (strength : Binary64) : Binary64 :=
  let ratio : Binary64 := .nearest (mkRat part 255)
  ((ratio - .nearest (1 / 2)) * 2 * strength).roundPlaces 3

/-- The stage that shifts the colours toward a colour. A colour that is not known shifts nothing. -/
def tintStage (color : String) (strength : Binary64) : Stage :=
  match Color.parse color with
  | .ok c =>
    .of "colorbalance" [("rs", .real (tintShift c.red strength)),
      ("gs", .real (tintShift c.green strength)), ("bs", .real (tintShift c.blue strength))]
  | .error _ => .of "null" []

/-- The notice that the colour of a cast is not known. -/
def tintNotices (color : String) : List String :=
  match Color.parse color with
  | .ok _ => []
  | .error _ => ["Unknown tint colour '" ++ color ++ "', tint skipped"]

namespace Grade

/-- A percentage as a fraction. -/
def fraction (n : Number) : Binary64 := n.toReal / 100

/-- The options that change brightness, contrast, saturation and gamma. -/
def balance (g : Grade) : List (String × OptionValue) :=
  let option (key : String) (n : Number) (value : Binary64) : List (String × OptionValue) :=
    if n.isZero then [] else [(key, .real (value.roundPlaces 4))]
  option "brightness" g.brightness (fraction g.brightness) ++
    option "contrast" g.contrast (1 + fraction g.contrast) ++
    (if g.isGrayscale then []
      else option "saturation" g.saturation (Binary64.larger 0 (1 + fraction g.saturation))) ++
    option "gamma" g.gamma (1 + fraction g.gamma)

/-- The stages of the grade. -/
def stages (g : Grade) : Except Fault (List Stage) := do
  let curve := if g.curve.isTruthy then [Stage.of "curves" [("preset", .literal g.curve)]] else []
  let balance := if g.balance.isEmpty then [] else [Stage.of "eq" g.balance]
  let gray := if g.isGrayscale then [Stage.of "hue" [("s", .int 0)]] else []
  let sepia := if g.sepia.isZero then [] else [sepiaStage (fraction g.sepia)]
  let tint ← match g.tint with
    | .none => .ok []
    | .cast color strength => .ok [tintStage color strength]
    | .unreadable v => if v.isTruthy then .error (.member v.typeName "color") else .ok []
  return curve ++ balance ++ gray ++ sepia ++ tint

/-- The notices that go with the stages. -/
def notices (g : Grade) : List String :=
  match g.tint with
  | .cast color _ => tintNotices color
  | _ => []

end Grade

end Montage
