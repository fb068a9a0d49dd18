import Montage.Edit.Params

/-!
# Operations

An operation is an edit with its parameters, and the window of time that it is limited to. It is
built from the fields of a request.

## Main definitions

* `Montage.Edit`: an edit with its parameters.
* `Montage.Operation`: an edit with its window.
* `Operation.build`: the operation that a request describes.
-/

namespace Montage

/-- An edit with the parameters of its kind. -/
inductive Edit
  | trim (p : TrimParams)
  | removeClip (p : RemovalParams)
  | colorGrade (p : GradeParams)
  | applyEffect (p : EffectParams)
  | addText (p : TextParams)
  | customText (p : TextParams)
  | filter (p : FilterParams)
  | addCaptions (p : CaptionParams)
  | adjustIntensity (p : IntensityParams)
  | adjustZoom (p : ZoomParams)
  | adjustSpeed (p : SpeedParams)
  | rotate (p : RotationParams)
  | crop (p : CropParams)
  deriving Inhabited

namespace Edit

/-- The kind of an edit. -/
def kind : Edit → Kind
  | trim _ => .trim
  | removeClip _ => .removeClip
  | colorGrade _ => .colorGrade
  | applyEffect _ => .applyEffect
  | addText _ => .addText
  | customText _ => .customText
  | filter _ => .filter
  | addCaptions _ => .addCaptions
  | adjustIntensity _ => .adjustIntensity
  | adjustZoom _ => .adjustZoom
  | adjustSpeed _ => .adjustSpeed
  | rotate _ => .rotate
  | crop _ => .crop

/-- The edit of a kind with the parameters in the fields of a request. -/
def ofFields (kind : Kind) (fs : Fields) : Except Fault Edit :=
  match kind with
  | .trim => (TrimParams.ofFields fs).map trim
  | .removeClip => (RemovalParams.ofFields fs).map removeClip
  | .colorGrade => (GradeParams.ofFields fs).map colorGrade
  | .applyEffect => (EffectParams.ofFields fs).map applyEffect
  | .addText => .ok (addText (TextParams.ofFields fs))
  | .customText => .ok (customText (TextParams.ofFields fs))
  | .filter => (FilterParams.ofFields fs).map filter
  | .addCaptions => (CaptionParams.ofFields fs).map addCaptions
  | .adjustIntensity => (IntensityParams.ofFields fs).map adjustIntensity
  | .adjustZoom => (ZoomParams.ofFields fs).map adjustZoom
  | .adjustSpeed => (SpeedParams.ofFields fs).map adjustSpeed
  | .rotate => (RotationParams.ofFields fs).map rotate
  | .crop => (CropParams.ofFields fs).map crop

end Edit

/-- An edit and the window that it is limited to. -/
structure Operation where
  edit : Edit
  window : Option Window
  deriving Inhabited

namespace Value

/-- The two items of the element number `index` in a list of pairs. -/
def pair (index : Nat) (v : Value) : Except Fault (Value × Value) :=
  match v.items with
  | .ok [k, w] => .ok (k, w)
  | .ok vs => .error (.value (.notPair index vs.length))
  | .error _ => .error (.type (.pairElement index))

/-- The fields that pairs of keys and values list, from the pair number `index` on. -/
def pairFields (index : Nat) : List Value → Except Fault (List (String × Value))
  | [] => .ok []
  | v :: vs => do
    let (k, w) ← v.pair index
    if !k.isHashable then .error (.type (.unhashable k.typeName))
    else return (k.text, w) :: (← pairFields (index + 1) vs)

/-- A value as named fields: an object as it is, anything else as a list of pairs. -/
def asFields (v : Value) : Except Fault (List (String × Value)) := do
  match v with
  | .object fs => .ok fs
  | v => .ok (Fields.ofList (← pairFields 0 (← v.items)))

end Value

namespace Operation

/-- The kind of the edit. -/
def kind (o : Operation) : Kind := o.edit.kind

/-- The operation with these fields, in a given window or in the one that the fields ask for. -/
def ofFields (kind : Kind) (fs : Fields) (window : Option Window) : Except Fault Operation := do
  let window ← if window.isNone && !kind.isBounded then Window.ofFields fs else .ok window
  return ⟨← Edit.ofFields kind fs, window⟩

/-- The operation of a kind with the parameters in `params`, which may be any value. -/
def ofValue (kind : Kind) (params : Value) (window : Option Window) : Except Fault Operation := do
  ofFields kind (← if params.isTruthy then params.asFields else .ok []) window

/-- The operation that a kind and parameters of any form describe. -/
def build (kind params : Value) (window : Option Window) : Except Failure Operation :=
  match Kind.parse kind with
  | .error e => .error (.edit e)
  | .ok k => (ofValue k params window).mapError .fault

end Operation

end Montage
