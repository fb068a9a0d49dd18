import Montage.Engine.Prepare
import Montage.Engine.Strategies

/-!
# The engine

An engine does requested edits: a request is checked and prepared, and the operation is done by the
strategies of the chosen backend. Every request has one result, and failures are reported in it.
Observers are called before and after each edit, and on failures; they have no influence on it.

## Main definitions

* `Montage.Engine`: what does requested edits.
* `Engine.process`: the result of a request.
-/

namespace Montage

/-- What does requested edits. -/
structure Engine where
  studio : Studio
  /-- The time that a rendering may take. -/
  timeout : Binary64
  hooks : List Hook
  /-- Who is told of the progress of renderings. -/
  listeners : List Listener
  deriving Inhabited

/-- The part of the journal about the engine. -/
def engineSource : String := "vedit.engine.engine"

namespace Request

/-- The name of the requested edit, for reports. -/
def kindText : Request → Except Fault Value
  | typed i => .ok i.operation
  | untyped (.object fs) => .ok (.string ((Fields.get? fs "operation").getD (.string "")).text)
  | untyped v => .error (.member v.typeName "get")

/-- What observers are shown of a request. -/
def shown : Request → Shown
  | typed _ => .request true
  | untyped _ => .request false

end Request

namespace Engine

/-- The engine of settings, without observers. -/
def of (settings : Settings) : Except Fault Engine := do
  let studio ← Studio.of settings
  return ⟨studio, ← settings.timeout, [], []⟩

/-- The engine with one more observer. -/
def addHook (e : Engine) (h : Hook) : Engine := { e with hooks := e.hooks ++ [h] }

/-- The engine with one more listener to its renderings. -/
def addListener (e : Engine) (failure : Option String) : Engine :=
  { e with listeners := e.listeners ++ [⟨e.listeners.length, failure⟩] }

/-- What the strategies of the engine work with. -/
def workshop (e : Engine) : Workshop := ⟨e.studio, e.timeout, e.listeners⟩

/-- The note about an observer that failed. -/
def hookNote (h : Hook) : Option JournalEntry :=
  h.failure.map fun text =>
    ⟨.warning, engineSource, "Hook callback failed for event '" ++ h.event ++ "': " ++ text⟩

/-- Call the observers of an event. -/
def notify (e : Engine) (event : String) (index : Int) (shown : Shown) : Action Unit :=
  let called := e.hooks.filter fun h => h.event = event
  modify fun s => { s with
    calls := s.calls ++ called.map fun h => .hook h index shown
    journal := s.journal ++ called.filterMap hookNote }

/-- The strategies of a backend that a value names. -/
def strategies (e : Engine) (backend : Value) : Except Fault (List Strategy) :=
  (Backend.ofValue backend).map fun b => b.strategies e.workshop

/-- Prepare a request and do its operation. -/
def perform (e : Engine) (r : Request) (t : Target) (backend : Value) : Action Outcome := do
  let operation ← Action.ofFailure r.prepare
  fallBack (← Action.ofFault (e.strategies backend)) operation t

/-- The entry of the journal for a request that failed. -/
def failureText (kind : Value) (f : Failure) : String :=
  let name := (if kind.isTruthy then kind else .string "operation").text
  if f.isEdit then name ++ " failed: " ++ f.message
  else "Unexpected error while processing " ++ name

/-- The result of an outcome. -/
def resultOf (kind : Value) (index : Int) : Except Failure Outcome → EditResult
  | .error f => { EditResult.failed kind f [] with index }
  | .ok outcome =>
    { kind, index
      status := if outcome.skipped then .skipped else .completed
      product := outcome.product
      failure := none
      warnings := outcome.warnings
      metadata := Fields.merge [("strategy", .string outcome.strategy)] outcome.metadata }

/-- The result of a request, which is the one number `index` of a sequence. -/
def process (e : Engine) (r : Request) (t : Target) (backend : Value) (index : Int) :
    Action EditResult := do
  let kind ← Action.ofFault r.kindText
  e.notify "before_operation" index r.shown
  let outcome ← Action.outcome (e.perform r t backend)
  match outcome with
  | .error f =>
    Action.complain engineSource (failureText kind f)
    e.notify "on_error" index (.failure f)
  | .ok _ => pure ()
  let result := resultOf kind index outcome
  e.notify "after_operation" index (.status result.status.name)
  return result

/-- The spans that are kept when a span is cut out. That a removal is skipped is noted. -/
def planRemoval? (start finish : Number) (source : Option Number) :
    Action (Option (SegmentPlan Number)) := do
  match planRemoval start finish source with
  | .ok plan => return some plan
  | .error cause =>
    Action.warn "vedit.filters.segments" (cause.message start finish source)
    return none

end Engine

end Montage
