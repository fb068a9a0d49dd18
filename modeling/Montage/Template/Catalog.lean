import Montage.Engine.Sequence
import Montage.Template.Bundled
import Montage.Yaml.Reader

/-!
# Catalogues of templates

A catalogue holds templates under distinct names. It comes from a file, or it is the bundled one.
Names are looked up exactly.

## Main definitions

* `Montage.TemplateCatalog`: the catalogues.
* `TemplateCatalog.load`: the catalogue in a file.
* `Engine.applyTemplate`: the results of a template.
-/

namespace Montage

/-- The part of the journal about templates. -/
def templateSource : String := "vedit.catalog.templates"

/-- Templates under distinct names. -/
structure TemplateCatalog where
  version : Value
  templates : List Template
  deriving Inhabited

/-- A value can be looked up, or the fault that it cannot. -/
def lookupKey (v : Value) : Except Fault Value :=
  if v.isHashable then .ok v else .error (.type (.unhashable v.typeName))

/-- The template that a value describes. An unknown category is noted. -/
def readTemplate (v : Value) : Action Template := do
  let t ← Action.ofFailure (Template.ofValue v)
  Action.warnAll templateSource t.notice?.toList
  return t

namespace TemplateCatalog

/-- The bundled catalogue. -/
def bundled : TemplateCatalog := ⟨.int 1, bundledTemplates⟩

/-- The template of a name among some. -/
def find? (templates : List Template) (id : Value) : Option Template :=
  templates.find? fun t => t.id.same id

/-- One more template beside those with other names. -/
def insert (templates : List Template) (t : Template) : Except Failure (List Template) := do
  let id ← (lookupKey t.id).mapError Failure.fault
  if (find? templates id).isSome then
    .error (.edit (.malformed ("Duplicate template id: " ++ id.text)))
  else .ok (templates ++ [t])

/-- The catalogue of templates, which have to have distinct names. -/
def of (templates : List Template) (version : Value) : Except Failure TemplateCatalog := do
  return ⟨version, ← templates.foldlM insert []⟩

/-- The catalogue that a value describes. -/
def ofValue (v : Value) : Action TemplateCatalog := do
  let fs : Fields ← Action.ofFault ((if v.isTruthy then v else .object []).fields "get")
  let listed := fs.get "templates"
  let items ← Action.ofFault (if listed.isTruthy then listed.items else .ok [])
  let templates ← items.mapM readTemplate
  let version ← Action.ofFault ((fs.get? "version").getD (.int 1)).toInt
  Action.ofFailure (of templates (.int version))

/-- The catalogue in a file; without a file it is the bundled one. -/
def load : Option Path → Action TemplateCatalog
  | none => return bundled
  | some p => do
    if !(← Action.exists? p) then Action.faulted (.system (.absent "Template file" p.text))
    let text ← Action.ofFault ((← Action.files).readLines p)
    ofValue (← Action.ofFault (Yaml.parse text))

/-- A name is in the catalogue. -/
def contains (c : TemplateCatalog) (id : Value) : Except Fault Bool := do
  return (find? c.templates (← lookupKey id)).isSome

/-- The template of a name, or the refusal that there is none. -/
def get (c : TemplateCatalog) (id : Value) : Except Failure Template := do
  match find? c.templates (← (lookupKey id).mapError Failure.fault) with
  | some t => .ok t
  | none => .error (.edit (.templateNotFound id))

/-- The templates of a category. -/
def ofCategory (c : TemplateCatalog) (category : Value) : List Template :=
  c.templates.filter fun t => t.category.same category

/-- The categories, each once, in the order in which they appear. -/
def categories (c : TemplateCatalog) : Except Fault (List Value) :=
  c.templates.foldlM (fun seen t => do
    let category ← lookupKey t.category
    return if seen.any fun v => v.same category then seen else seen ++ [category]) []

end TemplateCatalog

namespace Engine

/-- The catalogue that an engine applies: the given one if it holds anything, else that of the
settings. -/
def catalogOf (e : Engine) (given : Option TemplateCatalog) : Action TemplateCatalog :=
  match given.filter fun c => !c.templates.isEmpty with
  | some c => return c
  | none => TemplateCatalog.load e.studio.settings.templateFile

/-- The results of a template, one for each of its edits. -/
def applyTemplate (e : Engine) (c : TemplateCatalog) (id : Value) (target : Target)
    (backend : Value) : Action (List EditResult) := do
  let t ← Action.ofFailure (c.get id)
  e.runSequence ((t.instructions target.resource).map Request.typed) target backend

end Engine

end Montage
