import Montage.Edit.Kind

/-!
# Parameter specifications

What a parameter of an edit may be: its type, the keys under which it is found, its range or
choices.

## Main definitions

* `Montage.FieldSpec`: the specification of one parameter.
* `Montage.EditSpec`: the specification of one kind of edit.
-/

namespace Montage

/-- The types of parameters. -/
inductive FieldType
  | number
  | text
  /-- A number, or the name of a size. -/
  | size
  | list
  | path
  deriving DecidableEq, Inhabited

/-- The name of a parameter type. -/
def FieldType.name : FieldType → String
  | number => "number"
  | text => "string"
  | size => "size"
  | list => "list"
  | path => "path"

/-- What one parameter may be. A bound or choice that is absent does not restrict it. -/
structure FieldSpec where
  name : String
  type : FieldType := .number
  required : Bool := false
  default : Value := .null
  minimum : Option Number := none
  maximum : Option Number := none
  /-- A bound that the value has to exceed. -/
  above : Option Number := none
  choices : List Value := []
  aliases : List String := []
  deriving Inhabited

namespace FieldSpec

/-- The keys under which the parameter is looked for, in order. -/
def keys (f : FieldSpec) : List String := f.name :: f.aliases

/-- The first key under which a value is present, and the value. -/
def find? (f : FieldSpec) (fs : Fields) : Option (String × Value) := fs.pick? f.keys

/-- The specification as an object. -/
def toFields (f : FieldSpec) : Fields :=
  [("name", .string f.name), ("type", .string f.type.name), ("required", .bool f.required),
    ("default", f.default), ("minimum", .ofNumber? f.minimum), ("maximum", .ofNumber? f.maximum),
    ("exclusive_minimum", .ofNumber? f.above),
    ("choices", if f.choices.isEmpty then .null else .list f.choices),
    ("aliases", .strings f.aliases)]

end FieldSpec

/-- What the parameters of one kind of edit may be. -/
structure EditSpec where
  kind : Kind
  description : String
  fields : List FieldSpec
  /-- The edit can be limited to a window of time. -/
  windowed : Bool := false
  /-- The preview service can show the edit. -/
  previewed : Bool := true
  deriving Inhabited

namespace EditSpec

/-- The parameter that is found under a key. -/
def field? (s : EditSpec) (key : String) : Option FieldSpec :=
  s.fields.find? fun f => f.keys.contains key

/-- The summary of the specification. -/
def toFields (s : EditSpec) : Fields :=
  let names (required : Bool) : Value :=
    .strings ((s.fields.filter fun f => f.required = required).map (·.name))
  let defaults := s.fields.filterMap fun f =>
    match f.default with
    | .null => none
    | v => some (f.name, v)
  [("kind", .string s.kind.name), ("description", .string s.description),
    ("required", names true), ("optional", names false), ("defaults", .object defaults),
    ("supports_time_window", .bool s.windowed), ("preview_supported", .bool s.previewed)]

end EditSpec

end Montage
