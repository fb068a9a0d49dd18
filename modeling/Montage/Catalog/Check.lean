import Montage.Catalog.Edits
import Montage.Choice
import Montage.Edit.Instruction

/-!
# Checking requests

The problems of a request, each in its own words: a parameter that is missing or of the wrong type,
a number out of its range, times in the wrong order, captions without text or times. A request
without problems is accepted. Problems of a number show it in its general form, which an integer
beyond the binary range does not have; such a number faults the check.

## Main definitions

* `Montage.problems`: the problems of the parameters of an edit; `Montage.validate` is the verdict.
* `Montage.instructionProblems`: the problems of a whole request.
-/

namespace Montage

/-- Problems, or the fault of a value that cannot be shown. -/
abbrev Problems := Except Fault (List String)

namespace FieldSpec

/-- The problem that a number is not among the choices. -/
def choiceProblem (key : String) (choices : List Value) (n : Number) : Problems := do
  let shown ← choices.mapM fun c =>
    match c.number? with
    | some m => m.general
    | none => .ok c.text
  .ok [key ++ " must be one of: " ++ ", ".intercalate shown ++ " (got " ++ (← n.general) ++ ")"]

/-- The problems of a number. A range that is closed on both sides is reported as one. -/
def rangeProblems (f : FieldSpec) (key : String) (n : Number) : Problems := do
  if !f.choices.isEmpty then
    if f.choices.any fun c => (c.number?.map (n == ·)).getD false then .ok []
    else choiceProblem key f.choices n
  else
    match f.minimum, f.maximum with
    | some low, some high =>
      if low ≤ n ∧ n ≤ high then .ok []
      else
        .ok [key ++ " must be between " ++ (← low.general) ++ " and " ++ (← high.general) ++
          " (got " ++ (← n.general) ++ ")"]
    | low, high =>
      match low.filter (n < ·), high.filter (· < n), f.above.filter (n ≤ ·) with
      | some low, _, _ =>
        .ok [key ++ " must be >= " ++ (← low.general) ++ " (got " ++ (← n.general) ++ ")"]
      | _, some high, _ =>
        .ok [key ++ " must be <= " ++ (← high.general) ++ " (got " ++ (← n.general) ++ ")"]
      | _, _, some bound =>
        .ok [key ++ " must be greater than " ++ (← bound.general) ++ " (got " ++
          (← n.general) ++ ")"]
      | _, _, _ => .ok []

/-- The problems of a size: a number, a text of digits, or a name. -/
def sizeProblems (f : FieldSpec) (key : String) : Value → Problems
  | .string s => do
    let name := s.strip.lowerCase
    if Text.allDigits name.toList then f.rangeProblems key (.int (← Numeral.integer name))
    else if sizeNames.contains name then .ok []
    else .ok [key ++ " must be a number or one of " ++ ", ".intercalate sizeNames]
  | .number n => f.rangeProblems key n
  | _ => .ok [key ++ " must be a number"]

/-- The problems of a text. -/
def textProblems (f : FieldSpec) (key : String) : Value → List String
  | .string s =>
    if f.choices.isEmpty || f.choices.any fun c => c.text.lowerCase = choiceKey s then []
    else [key ++ " must be one of: " ++ ", ".intercalate (f.choices.map Value.text)]
  | _ => [key ++ " must be a string"]

/-- The problems of a value found under a key. -/
def valueProblems (f : FieldSpec) (key : String) (v : Value) : Problems :=
  match f.type, v with
  | .number, .number n => f.rangeProblems key n
  | .number, _ => .ok [key ++ " must be a number"]
  | .size, v => f.sizeProblems key v
  | .text, v | .path, v => .ok (f.textProblems key v)
  | .list, .list _ => .ok []
  | .list, _ => .ok [key ++ " must be a list"]

/-- The problems of a parameter in the fields of a request. -/
def problems (f : FieldSpec) (fs : Fields) : Problems :=
  match f.find? fs with
  | some (key, v) => f.valueProblems key v
  | none => .ok (if f.required then ["Missing required parameter: " ++ f.name] else [])

end FieldSpec

/-- The value under a key, or the one under another key where the first is absent; a null counts as
there. -/
def Fields.either (fs : Fields) (key other : String) (default_ : Value) : Value :=
  (fs.get? key).getD ((fs.get? other).getD default_)

/-- The problem of two times in the wrong order. What is no number is not compared. -/
def orderProblems (startName : String) (start : Value) (endName : String) (finish : Value) :
    Problems :=
  match start, finish with
  | .number s, .number e => do
    if e ≤ s then
      .ok [endName ++ " (" ++ (← e.general) ++ ") must be greater than " ++ startName ++ " (" ++
        (← s.general) ++ ")"]
    else .ok []
  | _, _ => .ok []

/-- The problems of one caption. -/
def cueProblems (index : Nat) : Value → List String
  | .object fields =>
    let fs : Fields := fields
    let cue := "captions[" ++ digitText index ++ "]"
    let text := match fs.get "text" with
      | .string _ => []
      | _ => [cue ++ ".text must be a string"]
    let times := match fs.either "start" "startTime" .null, fs.either "end" "endTime" .null with
      | .number s, .number e =>
        if s < 0 ∨ e ≤ s then [cue ++ " end must be after a non-negative start"] else []
      | _, _ => [cue ++ " needs numeric start and end"]
    text ++ times
  | _ => ["captions[" ++ digitText index ++ "] must be an object"]

/-- The problems of the captions in a list, from the one number `index` on. -/
def cuesProblems (index : Nat) : List Value → List String
  | [] => []
  | v :: vs => cueProblems index v ++ cuesProblems (index + 1) vs

/-- The problems that concern several parameters together. -/
def ruleProblems (kind : Kind) (fs : Fields) : Problems := do
  let text := match kind.isText, fs.get "text" with
    | true, .string s => if s.isBlank then ["text must not be empty"] else []
    | _, _ => []
  let trim ← if kind = .trim then
      orderProblems "start" (fs.either "start" "startTime" (.int 0))
        "end" (fs.either "end" "endTime" .null)
    else .ok []
  let window ← if kind.isBounded then .ok []
    else orderProblems "startTime" (fs.get "startTime") "endTime" (fs.get "endTime")
  let cues := match kind, fs.either "captions" "segments" .null with
    | .addCaptions, .list vs => cuesProblems 0 vs
    | _, _ => []
  .ok (text ++ trim ++ window ++ cues)

/-- The parameters that are checked for a kind of edit. Times are checked for every edit with a
window, also one that ignores it. -/
def checkedFields (kind : Kind) : List FieldSpec :=
  let spec := specOf kind
  if spec.windowed || kind.isBounded then spec.fields else spec.fields ++ windowFields

/-- The problems of the fields of a request for an edit. -/
def fieldProblems (kind : Kind) (fs : Fields) : Problems := do
  let found ← (checkedFields kind).mapM fun f => f.problems fs
  .ok (found.flatten ++ (← ruleProblems kind fs))

/-- The problems of a request for the edit that `kind` names with the parameters `params`; null
stands for none. -/
def problems (kind params : Value) : Problems :=
  match Kind.ofValue? kind, params with
  | none, _ => .ok ["Unknown operation kind: " ++ kind.quoted]
  | some k, .null => fieldProblems k []
  | some k, .object fs => fieldProblems k fs
  | some _, _ => .ok ["Parameters must be an object"]

/-- The outcome of a check: whether the request is accepted, and its problems. -/
structure Verdict where
  valid : Bool
  errors : List String
  deriving DecidableEq, Inhabited

namespace Verdict

/-- The request is accepted. -/
def accepted : Verdict := ⟨true, []⟩

/-- The request is refused for these problems. -/
def refused (errors : List String) : Verdict := ⟨false, errors⟩

/-- The verdict on a request with these problems. -/
def of : List String → Verdict
  | [] => accepted
  | errors => refused errors

end Verdict

/-- The verdict on a request for the edit that `kind` names with the parameters `params`. -/
def validate (kind params : Value) : Except Fault Verdict := (problems kind params).map Verdict.of

/-- The problems of a whole request, the kind of media included. -/
def instructionProblems (i : Instruction) : Problems := do
  let found ← problems i.operation i.params
  match found, Kind.ofValue? i.operation with
  | [], some k =>
    if i.resource = .image ∧ k.needsTimeline then .ok [k.name ++ " cannot be applied to an image"]
    else .ok []
  | found, _ => .ok found

end Montage
