import Montage.CommandLine.Invocation
import Montage.Settings.Stored
import Montage.Template.Catalog

/-!
# Doing what a command line asks for

Every task prints its result and ends with a status: zero if all went well, one if not. What went
wrong with the request is told in the journal or printed; a fault ends the task.

## Main definitions

* `Montage.CommandLine.perform`: do a task.
* `Montage.CommandLine.run`: do what a command line asks for.
-/

namespace Montage.CommandLine

/-- The part of the journal about command lines. -/
def commandSource : String := "vedit"

/-- Tell what is wrong, and end with the status that says so. -/
def giveUp (text : String) : Action Nat := do
  Action.complain commandSource text
  return 1

/-- Print a value over several lines. -/
def printValue (v : Value) : Action Unit := Action.print (Json.pages v)

/-- A line below a heading. -/
def rule : String := String.ofList (List.replicate 60 '=')

/-- Go on with the settings of the file, or else of the environment, if they serve. -/
def withSettings (config : Option String) (env : Fields) (next : Settings → Action Nat) :
    Action Nat := do
  let settings ← match config.filter (· ≠ "") with
    | some path => Settings.load (.ofString path)
    | none => Action.ofFault (Settings.ofEnvironment env)
  let problems ← Action.ofFault (settings.problems (← Action.files))
  problems.forM (Action.complain commandSource)
  if problems.isEmpty then next settings else return 1

/-- Go on with the engine of the settings, if they serve. -/
def withEngine (config : Option String) (env : Fields) (next : Engine → Action Nat) :
    Action Nat :=
  withSettings config env fun settings => do next (← Action.ofFault (Engine.of settings))

/-- The parameters in writing: a text, or what the file named behind an at sign holds. -/
def writtenParams (text : String) : Action String := do
  match text.toList with
  | '@' :: path =>
    Action.ofFault ((← Action.files).readLines (.ofString (String.ofList path)))
  | _ => return text

/-- Go on with the parameters of a request, if they are an object. -/
def withParams (params : Option String) (next : Fields → Action Nat) : Action Nat := do
  match params.filter (· ≠ "") with
  | none => next []
  | some text =>
    match Json.parse (← writtenParams text) with
    | .ok (.object fs) => next fs
    | .ok _ => giveUp "--params must be a JSON object"
    | .error (.malformedJson reason) => giveUp ("Invalid --params JSON: " ++ reason)
    | .error f => Action.faulted f

/-- Print results, and tell how many edits failed. -/
def report (results : List EditResult) : Action Nat := do
  results.forM fun r => printValue (.object r.toFields)
  let failed := results.filter fun r => r.status = .failed
  if failed.isEmpty then return 0
  else
    giveUp (digitText failed.length ++ " of " ++ digitText results.length ++ " operations failed")

namespace EditRequest

/-- The name and the parameters of the edit, in fields. -/
def toFields (r : EditRequest) (params : Fields) : Fields :=
  [("operation", .string r.operation), ("params", .object params)]

/-- The request for the edit of a resource. -/
def request (r : EditRequest) (params : Fields) : Request :=
  .untyped (.object (r.toFields params ++ [("resourceType", .string r.resource.name)]))

end EditRequest

/-- A line about an edit. -/
def kindLine (spec : EditSpec) : String :=
  let name := spec.kind.name
  let blanks := String.ofList (List.replicate (18 - name.length) ' ')
  "  " ++ name ++ blanks ++ " " ++ spec.description ++
    if spec.windowed then " (time window)" else ""

/-- List the edits. -/
def listKinds : Action Nat := do
  (["\nSupported operations:", rule] ++ Catalog.all.map kindLine).forM Action.print
  return 0

/-- Show the parameters of an edit. -/
def describeKind (kind : String) : Action Nat := do
  match Catalog.describe? (.string kind) with
  | some spec =>
    printValue (.object spec.toFields)
    return 0
  | none => giveUp ("Unknown operation kind: " ++ kind)

/-- Check a request, and print its problems. -/
def validate (r : EditRequest) (params : Fields) : Action Nat := do
  let problems ← Action.ofFailure (r.request params).problems
  if problems.isEmpty then
    Action.print "valid"
    return 0
  else
    problems.forM fun p => Action.print ("  - " ++ p.text)
    return 1

/-- What a request is compiled to, in writing, and warnings. A removal has the graph of its plan. -/
def compiledText (e : Engine) (r : EditRequest) (params : Fields) (forPreview : Bool)
    (duration : Option Binary64) : Action (String × List String) := do
  let kind := Value.string r.operation
  if r.operation = Kind.removeClip.name then
    let o ← Action.ofFailure (Request.untyped (.object (r.toFields params))).prepare
    match o.edit with
    | .removeClip p =>
      let plan ← Engine.planRemoval? (.real p.start) (.real p.finish) (duration.map Number.real)
      match plan with
      | some plan => return (← Action.ofFault (plan.graph true), [])
      | none => return ("(skipped)", [])
    | _ => return ("(skipped)", [])
  else if forPreview then
    let d ← e.studio.checkedPreview kind (.object params) none r.resource
    return (← Action.ofFault d.path, d.warnings)
  else
    let x ← e.studio.checkedFilter kind (.object params) none
    return (x.text, x.warnings)

/-- Print what a request is compiled to, or why it is refused. -/
def compile (e : Engine) (r : EditRequest) (params : Fields) (forPreview : Bool)
    (duration : Option Binary64) : Action Nat := do
  match ← Action.outcome (compiledText e r params forPreview duration) with
  | .ok (text, warnings) =>
    Action.print text
    Action.warnAll commandSource warnings
    return 0
  | .error (.edit refusal) =>
    printValue (.object refusal.report)
    return 1
  | .error (.fault f) => Action.faulted f

/-- Do a request on a target, and print the result. -/
def process (e : Engine) (r : EditRequest) (target : Target) (backend : String) : Action Nat :=
  withParams r.params fun params => do
    report [← e.process (r.request params) target (.string backend) 0]

/-- The lines about a template. -/
def templateLines (t : Template) : List String :=
  ["\n" ++ t.id.text ++ " [" ++ t.category.text ++ "]", "  " ++ t.description.text] ++
    t.steps.map fun s => "  - " ++ s.operation.text ++ " " ++ Json.line (.object s.params)

/-- List the templates, all or those of a category. -/
def listTemplates (settings : Settings) (category : Option String) : Action Nat := do
  let catalog ← TemplateCatalog.load settings.templateFile
  let templates := match category.filter (· ≠ "") with
    | some name => catalog.ofCategory (.string name)
    | none => catalog.templates
  (["\nAvailable Templates:", rule] ++ templates.flatMap templateLines).forM Action.print
  return 0

/-- Apply a template to a target. -/
def applyTemplate (e : Engine) (template : String) (target : Target) (backend : String) :
    Action Nat := do
  let applied ← Action.outcome do
    let catalog ← e.catalogOf none
    e.applyTemplate catalog (.string template) target (.string backend)
  match applied with
  | .ok results => report results
  | .error (.edit refusal) =>
    if refusal.kind = .templateNotFound || refusal.kind = .notFound then giveUp refusal.message
    else Action.refuse refusal
  | .error (.fault f) => Action.faulted f

/-- A value with two digits after the point. -/
def hundredthsText (v : Value) : Except Fault String :=
  match v with
  | .null | .list _ | .object _ =>
    .error (.type (.other ("unsupported format string passed to " ++ v.typeName ++ ".__format__")))
  | .string _ =>
    .error (.value (.other "Unknown format code 'f' for object of type 'str'"))
  | v => v.toReal.map (Binary64.fixed 2)

/-- Print the lines about a media file. -/
def printInfo (i : MediaInfo) : Action Unit := do
  let rate ← Action.ofFault (hundredthsText i.rate)
  let duration ← Action.ofFault (hundredthsText i.duration)
  ["\n" ++ rule, "File: " ++ i.path.name, rule, "Resolution: " ++ i.resolution,
    "FPS: " ++ rate, "Duration: " ++ duration ++ "s", "Video Codec: " ++ i.codec.text,
    if i.audioCodec.isTruthy then "Audio Codec: " ++ i.audioCodec.text else "Audio: none"].forM
    Action.print

/-- Inspect a media file. That it cannot be inspected is told, and is no failure. -/
def inspectFile (settings : Settings) (path : Path) : Action Unit := do
  if !(← Action.exists? path) then
    Action.complain commandSource ("File not found: " ++ path.text)
  else
    match ← Action.outcome (inspect settings.prober path) with
    | .ok info => printInfo info
    | .error (.edit refusal) =>
      Action.complain commandSource ("Error reading " ++ path.text ++ ": " ++ refusal.message)
    | .error (.fault f) => Action.faulted f

/-- A text that is given and not empty. -/
def isGiven (s : Option String) : Bool := (Target.given? s).isSome

/-- The target of a resource with nothing else known. -/
def targetOf (resource : Resource) : Target := ⟨none, none, none, resource, none, none⟩

/-- Do a task. -/
def perform (config : Option String) (env : Fields) : Task → Action Nat
  | .kinds => listKinds
  | .describe kind => describeKind kind
  | .validate r => withParams r.params (validate r)
  | .compile r forPreview duration =>
    withEngine config env fun e =>
      withParams r.params fun params => compile e r params forPreview duration
  | .preview r publicId backend =>
    withEngine config env fun e =>
      process e r { targetOf r.resource with publicId := some publicId } backend
  | .render r input output => do
    let path := Path.ofString input
    if !(← Action.exists? path) then giveUp ("Input file not found: " ++ path.text)
    else
      withEngine config env fun e =>
        process e r { targetOf r.resource with
          source := some path.text
          output := some (.ofString output) } "authoritative"
  | .templates category => withSettings config env fun settings => listTemplates settings category
  | .applyTemplate template input output publicId backend =>
    if !isGiven publicId && !(isGiven input && isGiven output) then
      giveUp "apply-template needs either --public-id or both -i and -o"
    else
      withEngine config env fun e =>
        applyTemplate e template
          { targetOf .video with
            source := input
            publicId
            output := (Target.given? output).map Path.ofString }
          (backend.getD (if isGiven input then "authoritative" else "preview"))
  | .info paths =>
    withSettings config env fun settings => do
      paths.forM fun p => inspectFile settings (.ofString p)
      return 0

/-- Do what a command line asks for in an environment. A command line that is not acted on ends
with a status of its own: zero where help is asked for, two where it is malformed, and one without
a task. -/
def run (args : List String) (env : Fields) : Action Nat :=
  match Invocation.ofArguments args with
  | .error .help => return 0
  | .error .misuse => return 2
  | .ok ⟨_, none⟩ => return 1
  | .ok ⟨config, some task⟩ => perform config env task

end Montage.CommandLine
