import Montage.Edit.Kind

/-!
# Instructions

A request for an edit as it comes in: the name of the edit, its parameters, and the kind of media
it is meant for. Name and parameters are only checked later, so they may be anything.

## Main definitions

* `Montage.Instruction`: the requests.
* `Instruction.ofFields`: the request that an object describes; `Instruction.toFields` writes it.
-/

namespace Montage

/-- A request for an edit. -/
structure Instruction where
  operation : Value
  params : Value
  resource : Resource
  deriving Inhabited

namespace Instruction

/-- The value that names the kind of media. -/
def resourceValue (fs : Fields) : Value :=
  if (fs.get "resourceType").isTruthy then fs.get "resourceType"
  else if (fs.get "resource_type").isTruthy then fs.get "resource_type"
  else .string "video"

/-- The request that an object describes. The name of the edit is taken by its text, and parameters
that say nothing are taken for none. -/
def ofFields (fs : Fields) : Except EditError Instruction :=
  match Resource.ofValue? (resourceValue fs) with
  | none => .error (.malformed ("Unknown resource type: " ++ (resourceValue fs).quoted))
  | some resource =>
    let operation := .string ((fs.get? "operation").getD (.string "")).text
    match fs.get "params" with
    | .object params => .ok ⟨operation, .object params, resource⟩
    | v =>
      if v.isTruthy then .error (.malformed "Parameters must be an object")
      else .ok ⟨operation, .object [], resource⟩

/-- The object that describes the request. -/
def toFields (i : Instruction) : Fields :=
  [("operation", i.operation), ("params", i.params), ("resourceType", .string i.resource.name)]

end Instruction

end Montage
