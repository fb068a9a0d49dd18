import Montage.Filter.Stage
import Montage.Look.Name

/-!
# Looks

Colour grades are percentages by which brightness, contrast, saturation and gamma change, with a
curve, a colour cast and an amount of sepia. Effects are filter stages in which some values depend
on the strength of the effect. Both renderers take their numbers from here.

## Main definitions

* `Montage.Grade`: a colour grade; `Grade.scaled` weakens or strengthens it.
* `Montage.Effect`: an effect; `StageForm.expand` resolves one of its stages.
-/

namespace Montage

/-- A colour cast. -/
inductive Tint
  | none
  | cast (color : String) (strength : Binary64)
  /-- A setting that describes no colour cast. -/
  | unreadable (v : Value)
  deriving Inhabited

/-- A colour grade. -/
structure Grade where
  name : String
  curve : Value := .null
  brightness : Number := .real 0
  contrast : Number := .real 0
  saturation : Number := .real 0
  gamma : Number := .real 0
  tint : Tint := .none
  sepia : Number := .real 0
  /-- An artistic filter that only the preview service has. -/
  art : Value := .null
  /-- The steps of the preview, in place of those that follow from the numbers. -/
  preview : Option (List Value) := .none
  deriving Inhabited

namespace Tint

/-- The colour cast with its strength multiplied. -/
def scaled (factor : Number) : Tint → Except Fault Tint
  | none => .ok none
  | cast color strength =>
    if factor.beyondReal then .error (.range .integerBeyondReal)
    else .ok (cast color (strength * factor.toReal))
  | unreadable v => if v.isTruthy then .error (.member v.typeName "color") else .ok none

/-- The colour cast as a value. -/
def toValue : Tint → Value
  | none => .null
  | cast color strength =>
    .object [("type", .string "Tint"), ("color", .string color), ("strength", .real strength)]
  | unreadable v => v

/-- The colour cast that a setting describes. -/
def ofValue : Value → Except Fault Tint
  | .null => .ok none
  | .string s => .ok (cast s (.nearest (3 / 10)))
  | .object fs => do
    match Fields.get? fs "color" with
    | some c =>
      .ok (cast c.text (← ((Fields.get? fs "strength").getD (.real (.nearest (3 / 10)))).toReal))
    | .none => .error (.key "color")
  | v => .ok (unreadable v)

end Tint

namespace Grade

/-- No colour is left. -/
def isGrayscale (g : Grade) : Bool := g.saturation ≤ .int (-100)

/-- The grade with every change multiplied. Without a factor, and with a factor of one, it is the
grade itself. -/
def scaled (g : Grade) : Option Number → Except Fault Grade
  | none => .ok g
  | some factor => do
    if factor == 1 then .ok g
    else
      let tint ← g.tint.scaled factor
      if factor.beyondReal then .error (.range .integerBeyondReal)
      else .ok { g with
        brightness := g.brightness * factor
        contrast := g.contrast * factor
        saturation := g.saturation * factor
        gamma := g.gamma * factor
        tint
        sepia := g.sepia * factor }

/-- The number under a key of a setting. -/
def percent (fs : Fields) (key : String) : Except Fault Number :=
  (((fs.get? key).getD (.int 0)).toReal).map .real

/-- The grade that a setting describes. -/
def ofValue (name : String) (v : Value) : Except Fault Grade := do
  let fs : Fields ← v.fields "get"
  let tint ← Tint.ofValue (fs.get "tint")
  let brightness ← percent fs "brightness"
  let contrast ← percent fs "contrast"
  let saturation ← percent fs "saturation"
  let gamma ← percent fs "gamma"
  let sepia ← percent fs "sepia"
  let preview ← if (fs.get "preview").isTruthy then (fs.get "preview").items.map some else .ok none
  .ok { name, curve := fs.get "curve", brightness, contrast, saturation, gamma, tint, sepia,
        art := fs.get "art", preview }

/-- The grade in fields. -/
def toFields (g : Grade) : Fields :=
  [("type", .string "ColorPreset"), ("name", .string g.name), ("curve", g.curve),
    ("brightness", .number g.brightness), ("contrast", .number g.contrast),
    ("saturation", .number g.saturation), ("gamma", .number g.gamma), ("tint", g.tint.toValue),
    ("sepia", .number g.sepia), ("art", g.art),
    ("preview", match g.preview with | some steps => .list steps | none => .null)]

end Grade

/-- A number that an effect takes from its strength or from a given level. -/
inductive Amount
  /-- So much at no strength, and so much more at full strength. -/
  | scaled (base span : Number) (whole : Bool)
  /-- The level if one is given. -/
  | level (base : Number) (whole : Bool)
  deriving DecidableEq, Inhabited

/-- A number with at most `places` decimal places. -/
def Number.roundPlaces (places : Nat) : Number → Number
  | int n => int n
  | real x => real (x.roundPlaces places)

namespace Amount

/-- The number at a strength and a level. -/
def resolve (strength : Number) (level : Option Number) : Amount → Except Fault Number
  | scaled base span whole =>
    let value := base + span * strength
    if whole then value.round.map .int else .ok (value.roundPlaces 4)
  | .level base whole =>
    let value := level.getD base
    if whole then value.round.map .int else .ok value

end Amount

/-- The value of an option of an effect. -/
inductive OptionForm
  | fixed (v : OptionValue)
  | amount (a : Amount)
  /-- An expression that ends with a number. -/
  | ending (lead : String) (a : Amount)
  deriving Inhabited

/-- The value of the option at a strength and a level. -/
def OptionForm.resolve (strength : Number) (level : Option Number) :
    OptionForm → Except Fault OptionValue
  | fixed v => .ok v
  | amount a => (a.resolve strength level).map .number
  | ending lead a => (a.resolve strength level).map fun n => .expression (lead ++ n.text)

/-- A stage of an effect. -/
structure StageForm where
  name : String
  options : List (String × OptionForm)
  deriving Inhabited

/-- The stage at a strength and a level. -/
def StageForm.expand (f : StageForm) (strength : Number) (level : Option Number) :
    Except Fault Stage := do
  let options ← f.options.mapM fun o => do
    return (o.1, ← o.2.resolve strength level)
  return .of f.name options

/-- An effect, with the steps of its preview if the preview service can show it. -/
structure Effect where
  name : String
  stages : List StageForm
  preview : Option (List Fields)
  deriving Inhabited

namespace Effect

/-- The stages of the effect at a strength and a level. -/
def expand (e : Effect) (strength : Number) (level : Option Number) :
    Except Fault (List Stage) := e.stages.mapM fun s => s.expand strength level

end Effect

end Montage
