import Montage.Edit.Instruction
import Montage.Edit.Operation
import Montage.Failure

/-!
# Templates

A template is a named sequence of edits, which can be applied in one go. It is read from an object,
of which the name of the template and those of its edits are required.

## Main definitions

* `Montage.TemplateStep`, `Montage.Template`: the templates.
* `Template.ofValue`, `Template.toFields`: reading and writing a template.
* `Template.instructions`: the requests that a template stands for.
-/

namespace Montage

/-- One edit of a template. -/
structure TemplateStep where
  operation : Value
  params : Fields
  deriving Inhabited

/-- A named sequence of edits. What is not needed to apply it may be anything. -/
structure Template where
  id : Value
  name : Value
  description : Value
  category : Value
  steps : List TemplateStep
  deriving Inhabited

namespace TemplateStep

/-- The edit in fields. -/
def toFields (s : TemplateStep) : Fields :=
  [("operation", s.operation), ("params", .object s.params)]

/-- The request that the edit stands for. -/
def instruction (s : TemplateStep) (r : Resource) : Instruction :=
  ⟨s.operation, .object s.params, r⟩

/-- The value under a key that has to be there. -/
def required (v : Value) (key : String) : Except Fault Value :=
  match v with
  | .object fs =>
    match fs.lookup key with
    | some w => .ok w
    | none => .error (.key key)
  | .string _ => .error (.type .textIndex)
  | .list _ => .error (.type .listIndex)
  | v => .error (.type (.noIndex v.typeName))

/-- The edit that a value describes. -/
def ofValue (v : Value) : Except Fault TemplateStep := do
  let operation ← required v "operation"
  let params := Fields.get (← v.fields "get") "params"
  return ⟨operation, ← (if params.isTruthy then params.asFields else .ok [])⟩

end TemplateStep

namespace Template

/-- The categories of templates. -/
def categories : List String := ["cinematic", "vlog", "product", "social", "corporate", "creative"]

/-- The category is one of the known ones. -/
def isKnownCategory : Value → Bool
  | .string s => categories.contains s
  | _ => false

/-- The name and the edits of the template that a value describes. -/
def partsOf (v : Value) : Except Fault (Value × List TemplateStep) := do
  let id ← TemplateStep.required v "id"
  let listed := Fields.get (← v.fields "get") "operations"
  let items ← if listed.isTruthy then listed.items else .ok []
  return (id, ← items.mapM TemplateStep.ofValue)

/-- A fault that makes a description malformed. -/
def isMalformed : Fault → Bool
  | .key _ | .type _ => true
  | _ => false

/-- The template that a value describes. -/
def ofValue (v : Value) : Except Failure Template :=
  match partsOf v, v with
  | .ok (id, steps), .object fields =>
    let fs : Fields := fields
    .ok {
      id
      name := (fs.get? "name").getD id
      description := (fs.get? "description").getD (.string "")
      category := (fs.get? "category").getD (.string "creative")
      steps }
  | .ok (id, steps), _ => .ok ⟨id, id, .string "", .string "creative", steps⟩
  | .error f, _ =>
    if isMalformed f then
      .error (.edit (.malformed ("Malformed template entry: " ++ f.message)))
    else .error (.fault f)

/-- The warning about a template, if its category is unknown. -/
def notice? (t : Template) : Option String :=
  if isKnownCategory t.category then none
  else some ("Template '" ++ t.id.text ++ "' has unknown category '" ++ t.category.text ++ "'")

/-- The template in fields. -/
def toFields (t : Template) : Fields :=
  [("id", t.id), ("name", t.name), ("description", t.description), ("category", t.category),
    ("operations", .list (t.steps.map fun s => .object s.toFields))]

/-- The requests that a template stands for. -/
def instructions (t : Template) (r : Resource) : List Instruction :=
  t.steps.map fun s => s.instruction r

end Template

end Montage
