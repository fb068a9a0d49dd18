import Montage.Render.Command

/-!
# Results

Every edit that is done has one result: it was completed, skipped, or it failed. Degradations that
do not make it fail are warnings of the result.

## Main definitions

* `Montage.Product`: what an edit produces.
* `Montage.EditResult`: the result of an edit.
-/

namespace Montage

/-- What an edit produces. -/
inductive Product
  /-- An address, or whatever else a renderer hands out. -/
  | value (v : Value)
  | file (path : Path)
  /-- Filters that have not been run. -/
  | compiled (c : Compiled)
  deriving Inhabited

namespace Product

/-- An address, or the source itself. -/
abbrev address (s : String) : Product := value (.string s)

/-- The product in writing. -/
def text : Product → String
  | value v => v.text
  | file p => p.text
  | compiled (.expression e) => e.text
  | compiled (.plan p) => p.text

/-- The file, if the product is one. -/
def file? : Product → Option Path
  | file p => some p
  | _ => none

end Product

/-- How an edit ended. -/
inductive EditStatus
  | completed
  | failed
  | skipped
  deriving DecidableEq, Inhabited

/-- The name of a status. -/
def EditStatus.name : EditStatus → String
  | completed => "completed"
  | failed => "failed"
  | skipped => "skipped"

/-- The result of an edit. -/
structure EditResult where
  /-- The name of the edit as it was requested. -/
  kind : Value
  status : EditStatus
  /-- The place of the edit in a sequence. -/
  index : Int
  product : Option Product
  failure : Option Failure
  warnings : List String
  metadata : Fields
  deriving Inhabited

namespace EditResult

/-- The result of an edit that was completed. -/
def completed (kind : Value) (product : Option Product) (warnings : List String)
    (metadata : Fields) : EditResult := ⟨kind, .completed, 0, product, none, warnings, metadata⟩

/-- The result of an edit that failed. -/
def failed (kind : Value) (failure : Failure) (metadata : Fields) : EditResult :=
  ⟨kind, .failed, 0, none, some failure, [], metadata⟩

/-- The result of an edit that was not applied, with a reason if there is one. -/
def skipped (kind : Value) (reason : String) : EditResult :=
  ⟨kind, .skipped, 0, none, none, if reason = "" then [] else [reason],
    [("reason", .string reason)]⟩

/-- The edit was completed. -/
def isSuccess (r : EditResult) : Bool := r.status = .completed

/-- The edit was deliberately not applied. -/
def isSkipped (r : EditResult) : Bool := r.status = .skipped

/-- The result in fields. -/
def toFields (r : EditResult) : Fields :=
  [("operation", r.kind), ("index", .int r.index), ("status", .string r.status.name),
    ("warnings", .strings r.warnings)] ++
    (match r.product with
      | some p => [("output", .string p.text)]
      | none => []) ++
    match r.failure with
    | some f => [("error", .object f.report)]
    | none => []

/-- The result in writing. -/
def text (r : EditResult) : String :=
  "OperationResult(kind='" ++ r.kind.text ++ "', index=" ++ intText r.index ++ ", status=" ++
    r.status.name ++ ")"

end EditResult

end Montage
