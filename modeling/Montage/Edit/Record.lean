import Montage.Edit.Operation
import Montage.Edit.Target

/-!
# Edits in fields

Operations, windows and targets written as named fields, for reports, and targets read from them.
Every parameter has a field, also where it is not given.

## Main definitions

* `Edit.toFields`, `Operation.toFields`, `Window.toFields`: edits in fields.
* `Target.toFields`, `Target.ofFields`: targets in fields and from them.
-/

namespace Montage

/-- A real number as a value, null if there is none. -/
def realValue? (x : Option Binary64) : Value := .ofNumber? (x.map .real)

/-- A caption in fields. -/
def Cue.toFields (c : Cue) : Fields :=
  [("text", .string c.text), ("start", .real c.start), ("end", .real c.finish)]

/-- The parameters of a text in fields. -/
def TextParams.toFields (p : TextParams) : Fields :=
  [("text", .string p.text), ("position", .string p.position), ("font_size", p.size),
    ("color", .string p.color), ("background_color", p.background), ("font", p.font),
    ("style", p.style)]

/-- The parameters of an edit in fields. -/
def Edit.toFields : Edit → Fields
  | .trim p => [("start", .real p.start), ("end", realValue? p.finish)]
  | .removeClip p => [("start_time", .real p.start), ("end_time", .real p.finish)]
  | .colorGrade p => [("preset", .string p.preset), ("intensity", realValue? p.intensity)]
  | .applyEffect p => [("preset", .string p.preset), ("intensity", .real p.intensity)]
  | .addText p | .customText p => p.toFields
  | .filter p => [("filter_type", .string p.filter), ("level", realValue? p.level)]
  | .addCaptions p =>
    [("subtitle_file", p.file), ("captions", .list (p.cues.map fun c => .object c.toFields)),
      ("color", p.color), ("size", p.size), ("position", p.position), ("style", p.style),
      ("background_color", p.background)]
  | .adjustIntensity p =>
    [("intensity", realValue? p.intensity), ("direction", p.direction),
      ("effect_preset", p.effect)]
  | .adjustZoom p => [("zoom", realValue? p.zoom), ("direction", p.direction)]
  | .adjustSpeed p => [("speed", .real p.speed)]
  | .rotate p => [("degrees", .real p.degrees)]
  | .crop p =>
    [("x", .real p.x), ("y", .real p.y), ("width", .real p.width), ("height", .real p.height)]

namespace Window

/-- The window in fields. -/
def toFields (w : Window) : Fields :=
  [("start", .number w.start), ("end", .ofNumber? w.finish)]

/-- The window that the fields of a request bound; without a start it begins at zero. -/
def ofBounds (fs : Fields) : Except Fault Window :=
  of (((fs.get? "start").bind Value.count?).getD (.real 0)) (fs.get "end").count?

end Window

/-- An operation in fields. -/
def Operation.toFields (o : Operation) : Fields :=
  [("kind", .string o.kind.name), ("params", .object o.edit.toFields),
    ("window", match o.window with
      | some w => .object w.toFields
      | none => .null)]

/-- The resource that a value names; video if there is none. -/
def Resource.named (v : Option Value) : Except Fault Resource :=
  match v with
  | none => .ok .video
  | some v =>
    match Resource.ofValue? v with
    | some r => .ok r
    | none => .error (.value (.notMember v.quoted "ResourceType"))

namespace Target

/-- The target in fields. -/
def toFields (t : Target) : Fields :=
  [("source", .ofString? t.source), ("public_id", .ofString? t.publicId),
    ("output", .ofString? (t.output.map Path.text)), ("resource_type", .string t.resource.name),
    ("duration", .ofNumber? t.duration),
    ("has_audio", match t.hasAudio with
      | some b => .bool b
      | none => .null)]

/-- The target in some fields, of which none is required. -/
def ofFields (fs : Fields) : Except Fault Target := do
  return {
    source := (fs.get "source").string?
    publicId := (fs.get "public_id").string?
    output := (fs.get "output").string?.map Path.ofString
    resource := ← Resource.named (fs.get? "resource_type")
    duration := (fs.get "duration").count?
    hasAudio := match fs.get "has_audio" with
      | .null => none
      | v => some v.isTruthy }

end Target

end Montage
