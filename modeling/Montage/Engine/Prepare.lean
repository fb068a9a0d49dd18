import Montage.Catalog.Sanitize
import Montage.Edit.Operation
import Montage.Preview.Compile

/-!
# Preparing requests

A request is checked against the catalogue, its texts are cleaned, and its operation is built. Only
what passes the check reaches a renderer.

## Main definitions

* `Montage.Request`: a request as an object or in parts.
* `Request.problems`: the problems of a request.
* `Request.prepare`: the operation of a request, or its refusal.
* `Studio.checkedFilter`, `Studio.checkedPreview`: both renderers on checked requests.
-/

namespace Montage

/-- A request for an edit, as an object or in parts. -/
inductive Request
  | untyped (v : Value)
  | typed (i : Instruction)
  deriving Inhabited

namespace Request

/-- The parts of a request. -/
def instruction : Request → Except Failure Instruction
  | typed i => .ok i
  | untyped (.object fs) => (Instruction.ofFields fs).mapError .edit
  | untyped v => .error (.fault (.member v.typeName "operation"))

/-- The problems of a request. -/
def problems (r : Request) : Except Failure (List Value) :=
  match r.instruction with
  | .error (.edit e) => .ok e.errors
  | .error f => .error f
  | .ok i => (instructionProblems i).mapError Failure.fault |>.map fun ps => ps.map Value.string

/-- The fields of the parameters, which have to be an object. -/
def paramFields : Value → Except Fault Fields
  | .object fs => .ok fs
  | v => v.asFields

end Request

/-- The refusal of a request with problems. -/
def refusalOf (problems : List String) : EditError :=
  .invalid ("; ".intercalate problems) problems

namespace Instruction

/-- The operation of a request, or its refusal. -/
def prepare (i : Instruction) : Except Failure Operation := do
  let kind ← (Kind.parse i.operation).mapError Failure.edit
  match ← (instructionProblems i).mapError Failure.fault with
  | [] =>
    let fs ← (Request.paramFields i.params).mapError Failure.fault
    let fs ← (sanitizeParams kind fs).mapError Failure.fault
    match Operation.ofFields kind fs none with
    | .ok o => .ok o
    | .error f =>
      if f.isOfForm then
        .error (.edit (.malformed ("Invalid parameters for " ++ kind.name ++ ": " ++ f.message)))
      else .error (.fault f)
  | found => .error (.edit (refusalOf found))

end Instruction

/-- The operation of a request, or its refusal. -/
def Request.prepare (r : Request) : Except Failure Operation := do (← r.instruction).prepare

/-- The operation of a kind with parameters of any form, checked and in the given window, if there
is one. -/
def checkedOperation (kind params : Value) (window : Option Window) (resource : Resource) :
    Except Failure Operation := do
  let k ← (Kind.parse kind).mapError Failure.edit
  let params := params.orElse (.object [])
  let o ← (⟨.string k.name, params, resource⟩ : Instruction).prepare
  return if window.isSome then { o with window } else o

namespace Studio

/-- The expression of a checked request. -/
def checkedFilter (s : Studio) (kind params : Value) (window : Option Window) :
    Action Expression := do
  s.compileOperation (← Action.ofFailure (checkedOperation kind params window .video))

/-- The descriptor of a checked request. -/
def checkedPreview (s : Studio) (kind params : Value) (window : Option Window)
    (resource : Resource) : Action Descriptor := do
  s.previewOperation (← Action.ofFailure (checkedOperation kind params window resource)) resource

end Studio

end Montage
