import Montage.Tools

/-!
# Failures

An edit that cannot be done is refused with an error of the library: its kind, a code, a message
and details in named fields. A `Failure` is such an error or a fault of a value or a file that no
step took care of.

## Main definitions

* `Montage.EditError`: a refusal, with one constructor function for each reason.
* `Montage.Failure`: a refusal or a fault.
* `Failure.report`: the fields in which a failure is reported to the outside.
-/

namespace Montage

/-- The kinds of refusals. -/
inductive EditErrorKind
  | processing
  | validation
  | unknownOperation
  | compilation
  | execution
  | notFound
  | templateNotFound
  deriving DecidableEq, Inhabited

namespace EditErrorKind

/-- The name under which a refusal is reported. -/
def label : EditErrorKind → String
  | processing => "VeditError"
  | validation => "ValidationError"
  | unknownOperation => "UnknownOperationError"
  | compilation => "CompilationError"
  | execution => "ExecutionError"
  | notFound => "NotFoundError"
  | templateNotFound => "TemplateNotFoundError"

/-- The code of a refusal that is given no other one. -/
def code : EditErrorKind → String
  | processing => "PROCESSING_ERROR"
  | validation | unknownOperation => "VALIDATION_ERROR"
  | compilation => "COMPILATION_ERROR"
  | execution => "EXECUTION_ERROR"
  | notFound | templateNotFound => "NOT_FOUND"

/-- The refusals of requests that are malformed or out of range. -/
def isValidation : EditErrorKind → Bool
  | validation | unknownOperation => true
  | _ => false

end EditErrorKind

/-- A refusal. -/
structure EditError where
  kind : EditErrorKind
  message : String
  code : String
  details : Fields
  /-- The command that was run, if one was. -/
  command : Option Command
  deriving Inhabited

namespace EditError

/-- A refusal with the code of its kind. -/
def of (kind : EditErrorKind) (message : String) (details : Fields) : EditError :=
  ⟨kind, message, kind.code, details, none⟩

/-- A request with problems, all of them listed. -/
def invalid (message : String) (errors : List String) : EditError :=
  of .validation message [("errors", .strings errors)]

/-- A request with one problem. -/
def malformed (message : String) : EditError := invalid message [message]

/-- A request for an edit that does not exist. -/
def unknownOperation (kind : Value) : EditError :=
  let message := "Unknown operation kind: " ++ kind.quoted
  of .unknownOperation message
    [("operation", .string kind.text), ("errors", .strings [message])]

/-- An edit that a renderer cannot express. -/
def compilation (message : String) : EditError := of .compilation message []

/-- A run of the renderer that did not succeed: the status it ended with, if it ended by itself, and
the end of what it wrote. -/
def execution (message : String) (status : Option Int) (tail : String)
    (command : Option Command) : EditError :=
  { of .execution message
      [("returncode", match status with | some n => .int n | none => .null),
        ("stderr", .string tail)] with command := command }

/-- Something looked up that is not there. -/
def notFound (message : String) : EditError := of .notFound message []

/-- A template that is not in the catalogue. -/
def templateNotFound (id : Value) : EditError :=
  of .templateNotFound ("Template not found: " ++ id.text) [("template_id", id)]

/-- The fields in which the refusal is reported. -/
def report (e : EditError) : Fields :=
  [("error", .string e.kind.label), ("code", .string e.code), ("message", .string e.message),
    ("details", .object e.details)]

/-- The problems that a refused request lists. -/
def errors (e : EditError) : List Value :=
  match e.details.get "errors" with
  | .list vs => vs
  | _ => []

end EditError

/-- Why something was not done. -/
inductive Failure
  | edit (error : EditError)
  | fault (cause : Fault)
  deriving Inhabited

namespace Failure

/-- The wording of the failure. -/
def message : Failure → String
  | edit e => e.message
  | fault f => f.message

/-- The fields in which a fault of the given wording is reported. -/
def reportOf (reason : String) : Fields :=
  [("error", .string "ProcessingError"), ("code", .string EditErrorKind.processing.code),
    ("message", .string "Processing failed"), ("details", .object [("reason", .string reason)])]

/-- The fields in which the failure is reported: a refusal by its own, a fault by its wording. -/
def report : Failure → Fields
  | edit e => e.report
  | fault f => reportOf f.message

/-- The failure is a refusal. -/
def isEdit : Failure → Bool
  | edit _ => true
  | fault _ => false

end Failure

end Montage
