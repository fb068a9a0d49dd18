import Montage.CommandLine.Grammar
import Montage.Edit.Kind

/-!
# Invocations

What a command line asks for: one of several tasks with its operands, and a file with settings.
Switches for all tasks stand in front of the name of the task, those of the task behind it.

## Main definitions

* `Montage.CommandLine.Task`, `Montage.CommandLine.Invocation`: what is asked for.
* `Invocation.ofArguments`: the invocation on a command line.
-/

namespace Montage.CommandLine

/-- The request for an edit on a command line. The parameters are still in writing. -/
structure EditRequest where
  operation : String
  params : Option String
  resource : Resource
  deriving DecidableEq, Inhabited

/-- What is to be done. -/
inductive Task
  /-- List the edits. -/
  | kinds
  /-- Show the parameters of an edit. -/
  | describe (kind : String)
  /-- Check a request. -/
  | validate (request : EditRequest)
  /-- Show what a request is compiled to, for the preview service or for the renderer. -/
  | compile (request : EditRequest) (forPreview : Bool) (duration : Option Binary64)
  /-- Show the address of an edit. -/
  | preview (request : EditRequest) (publicId backend : String)
  /-- Render an edit. -/
  | render (request : EditRequest) (input output : String)
  /-- List templates. -/
  | templates (category : Option String)
  /-- Apply a template. -/
  | applyTemplate (template : String) (input output publicId backend : Option String)
  /-- Inspect media. -/
  | info (paths : List String)
  deriving Inhabited

/-- A task, if one is named, and the file with settings, if there is one. -/
structure Invocation where
  config : Option String
  task : Option Task
  deriving Inhabited

/-- An optional switch with a value. -/
def valueSwitch (spellings : List String) (payload : Payload) : Switch :=
  ⟨spellings, payload, false⟩

/-- A required switch with a text. -/
def requiredSwitch (spellings : List String) : Switch := ⟨spellings, .text, true⟩

/-- What stands in front of the name of a task. How much is told of the progress has no influence on
the task. -/
def frontGrammar : Grammar where
  switches :=
    [⟨["-v", "--verbose"], .nothing, false⟩, ⟨["-q", "--quiet"], .nothing, false⟩,
      valueSwitch ["-c", "--config"] .text]
  operands := .remainder

/-- The switches of a request. -/
def requestSwitches : List Switch :=
  [valueSwitch ["-p", "--params"] .text,
    valueSwitch ["--resource-type"] (.oneOf ["video", "image"])]

/-- The names of the tasks with what stands behind them. -/
def taskGrammars : List (String × Grammar) :=
  [("kinds", ⟨[], .none⟩), ("describe", ⟨[], .one⟩), ("validate", ⟨requestSwitches, .one⟩),
    ("compile", ⟨requestSwitches ++
      [valueSwitch ["--backend"] (.oneOf ["filter", "preview"]),
        valueSwitch ["--duration"] .real], .one⟩),
    ("preview", ⟨requestSwitches ++
      [requiredSwitch ["--public-id"],
        valueSwitch ["--backend"] (.oneOf ["preview", "auto"])], .one⟩),
    ("render", ⟨requestSwitches ++
      [requiredSwitch ["-i", "--input"], requiredSwitch ["-o", "--output"]], .one⟩),
    ("templates", ⟨[valueSwitch ["--category"] .text], .none⟩),
    ("apply-template", ⟨[valueSwitch ["-i", "--input"] .text, valueSwitch ["-o", "--output"] .text,
      valueSwitch ["--public-id"] .text,
      valueSwitch ["--backend"] (.oneOf ["preview", "authoritative", "auto"])], .one⟩),
    ("info", ⟨[], .many⟩)]

namespace Given

/-- The first operand. -/
def operand (g : Given) : String := g.operands.headD ""

/-- The request that is given. -/
def request (g : Given) : EditRequest where
  operation := g.operand
  params := g.value? "--params"
  resource := if g.value? "--resource-type" = some "image" then .image else .video

/-- The task of a name. -/
def task (g : Given) (name : String) : Task :=
  match name with
  | "describe" => .describe g.operand
  | "validate" => .validate g.request
  | "compile" =>
    .compile g.request (g.value? "--backend" = some "preview")
      ((g.value? "--duration").bind Numeral.real?)
  | "preview" =>
    .preview g.request ((g.value? "--public-id").getD "")
      ((g.value? "--backend").getD "preview")
  | "render" =>
    .render g.request ((g.value? "--input").getD "") ((g.value? "--output").getD "")
  | "templates" => .templates (g.value? "--category")
  | "apply-template" =>
    .applyTemplate g.operand (g.value? "--input") (g.value? "--output") (g.value? "--public-id")
      (g.value? "--backend")
  | "info" => .info g.operands
  | _ => .kinds

/-- No word is without a place. -/
def checked (g : Given) : Except Stop Given := if g.strays.isEmpty then .ok g else .error .misuse

end Given

namespace Invocation

/-- The task that words name, with its operands. -/
def taskOf (words : List String) : Except Stop (Option Task) :=
  match words with
  | [] => .ok none
  | name :: rest =>
    match taskGrammars.lookup name with
    | none => .error .misuse
    | some grammar => do return some ((← (← grammar.read rest).checked).task name)

/-- The invocation on a command line. -/
def ofArguments (args : List String) : Except Stop Invocation := do
  let front ← frontGrammar.read args
  let task ← taskOf front.operands
  let front ← front.checked
  return ⟨front.value? "--config", task⟩

end Invocation

end Montage.CommandLine
