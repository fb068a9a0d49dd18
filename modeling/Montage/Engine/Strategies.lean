import Montage.Engine.Fallback
import Montage.Filter.Compile
import Montage.Media.Probe
import Montage.Preview.Compile
import Montage.Preview.Url
import Montage.Render.Command
import Montage.Render.Run

/-!
# Ways of doing an operation

The preview strategy gives the address at which a service shows the edited media. The authoritative
strategy compiles an operation to filters and, if the target has an output, renders it. The last
resort hands back the media as they are.

## Main definitions

* `Montage.Workshop`: what the strategies work with.
* `Workshop.preview`, `Workshop.authoritative`, `Workshop.passthrough`: the strategies.
* `Montage.Backend`: the choices of strategies.
-/

namespace Montage

/-- What strategies work with: the settings with their looks, the time that a rendering may take,
and who is told of its progress. -/
structure Workshop where
  studio : Studio
  timeout : Binary64
  listeners : List Listener
  deriving Inhabited

/-- The part of the journal about strategies. -/
def strategySource : String := "vedit.render.strategies"

/-- A compiled operation, not rendered yet. -/
structure Draft where
  compiled : Compiled
  warnings : List String
  metadata : Fields
  deriving Inhabited

/-- Delete files that were written for filters. Where this is not possible it is noted. -/
def removeScratch (paths : List String) : Action Unit :=
  paths.forM fun path => do
    match (← Action.files).remove (.ofString path) with
    | .ok files => Action.setFiles files
    | .error f => Action.warn strategySource ("Could not remove " ++ path ++ ": " ++ f.message)

/-- How long the result of a rendering is expected to be. -/
def Compiled.length? (duration : Option Number) : Compiled → Option Number
  | .plan p => p.outputDuration?
  | .expression _ => duration

namespace Workshop

/-- The name of the strategy that renders. -/
def authoritativeName : String := "authoritative"

/-- The outcome of an operation that is not applied. -/
def skip (warnings : List String) : Outcome :=
  { Outcome.of authoritativeName with skipped := true, warnings }

/-- The target with what inspecting its source tells, if that is needed and possible. -/
def probe (w : Workshop) (t : Target) : Action Target := do
  if t.duration.isSome && t.hasAudio.isSome then return t
  if !(← Action.ofFault (t.isLocal (← Action.files))) then return t
  let info ← inspect w.studio.settings.prober (.ofString (t.source.getD ""))
  return { t with
    duration := t.duration.or info.duration.count?
    hasAudio := some (t.hasAudio.getD info.hasAudio) }

/-- The removal of a clip as a draft, or the outcome of skipping it. -/
def draftRemoval (p : RemovalParams) (t : Target) : Action (Except Outcome Draft) := do
  match planRemoval (.real p.start) (.real p.finish) t.duration with
  | .error cause =>
    let reason := cause.message (.real p.start) (.real p.finish) t.duration
    Action.warn strategySource reason
    return .error (skip [reason])
  | .ok plan =>
    let graph ← Action.ofFault (plan.graph (t.hasAudio.getD true))
    return .ok ⟨.plan plan, [], [("filter_graph", .string graph)]⟩

/-- An operation as a draft, or the outcome of skipping it. -/
def draft (w : Workshop) (o : Operation) (t : Target) : Action (Except Outcome Draft) := do
  match o.edit with
  | .removeClip p => draftRemoval p t
  | _ =>
    let e ← w.studio.compileOperation o
    if e.isEmpty then
      let reason := o.kind.name ++ " has nothing to apply"
      Action.warn strategySource reason
      return .error (skip (e.warnings ++ [reason]))
    else return .ok ⟨.expression e, e.warnings, e.toFields⟩

/-- Render a draft. The files that were written for it are deleted, however the rendering ends. -/
def renderDraft (w : Workshop) (o : Operation) (t : Target) (output : Path) (d : Draft) :
    Action Outcome := do
  let command ← Action.ofFault (renderCommand w.studio.settings (t.source.getD "") output.text
    d.compiled t.resource (t.hasAudio.getD true))
  let run ← Action.outcome
    (render w.timeout command (d.compiled.length? t.duration) (.of o.kind.name w.listeners))
  removeScratch d.compiled.scratch
  let path ← Action.ofFailure (do (← run).result)
  return { Outcome.of authoritativeName with
    product := some (.file path)
    warnings := d.warnings
    metadata := Fields.set d.metadata "command" (.list command) }

/-- Compile an operation and render it, if the target has an output. -/
def authoritative (w : Workshop) : Strategy where
  name := authoritativeName
  text := "AuthoritativeStrategy()"
  attempt o t := do
    match t.output with
    | none =>
      match ← w.draft o t with
      | .error outcome => return outcome
      | .ok d =>
        return { Outcome.of authoritativeName with
          product := some (.compiled d.compiled)
          warnings := d.warnings
          metadata := d.metadata }
    | some output =>
      if (Target.given? t.source).isNone then
        Action.refuse (.execution "Authoritative rendering needs a source" none "" none)
      let t ← w.probe t
      match ← w.draft o t with
      | .error outcome => return outcome
      | .ok d => w.renderDraft o t output d

/-- Give the address of the edited media. -/
def preview (w : Workshop) : Strategy where
  name := "preview"
  text := "PreviewStrategy()"
  attempt o t := do
    match Target.given? t.publicId with
    | none => Action.refuse (.compilation "Preview rendering needs a public id")
    | some id =>
      let d ← w.studio.previewOperation o t.resource
      let base := UrlBase.of w.studio.settings
      let address ← Action.ofFailure (base.build (.string id) d (some t.resource))
      return { Outcome.of "preview" with
        product := some (.address address)
        warnings := d.warnings
        metadata := [("transformation", .string (← Action.ofFault d.path))] }

/-- Hand back the media as they are. -/
def passthrough (w : Workshop) : Strategy where
  name := "passthrough"
  text := "PassthroughStrategy()"
  attempt o t := do
    let media ← match Target.given? t.publicId, Target.given? t.source with
      | some id, _ =>
        Action.ofFailure ((UrlBase.of w.studio.settings).plain (.string id) t.resource)
      | none, some source => pure source
      | none, none => Action.refuse (.execution "No media to pass through" none "" none)
    let message :=
      o.kind.name ++ " could not be rendered, returning the original media"
    Action.warn strategySource message
    return { Outcome.of "passthrough" with
      product := some (.address media)
      warnings := [message] }

end Workshop

/-- The choices of strategies. -/
inductive Backend
  | preview
  | authoritative
  /-- Whatever works, in this order, with the media as they are for the last resort. -/
  | auto
  deriving DecidableEq, Inhabited

namespace Backend

/-- The choice that a value names. -/
def ofValue : Value → Except Fault Backend
  | .string "preview" => .ok preview
  | .string "authoritative" => .ok authoritative
  | .string "auto" => .ok auto
  | v => .error (.value (.notMember v.quoted "Backend"))

/-- The strategies of a choice. -/
def strategies (w : Workshop) : Backend → List Strategy
  | preview => [w.preview]
  | authoritative => [w.authoritative]
  | auto => [w.preview, w.authoritative, w.passthrough]

end Backend

end Montage
