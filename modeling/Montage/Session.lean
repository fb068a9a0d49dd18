import Montage.Failure
import Montage.Files.Storage

/-!
# Sessions

A session holds what edits read and change outside themselves: the stored files, the outside tools,
and a record of what happened. An action runs in a session; where it fails the session keeps what
was done before.

## Main definitions

* `Montage.Session`: the state.
* `Montage.Hook`, `Montage.Call`: observers, and their calls.
* `Montage.Action`: computations that can fail and that change a session.
-/

namespace Montage

/-- How serious an entry of the journal is. -/
inductive Level
  | warning
  | error
  deriving DecidableEq, Inhabited

/-- An entry of the journal: the part of the library that wrote it, and its text. -/
structure JournalEntry where
  level : Level
  source : String
  text : String
  deriving DecidableEq, Inhabited

/-- An observer of one kind of event. An observer that fails does so with a text, after it was
called. -/
structure Hook where
  event : String
  failure : Option String
  deriving DecidableEq, Inhabited

/-- What an observer of an engine is shown with an event. -/
inductive Shown
  /-- The request, as an object or with its parts given. -/
  | request (typed : Bool)
  | failure (cause : Failure)
  /-- The status of a result. -/
  | status (name : String)
  deriving Inhabited

/-- A call of an observer, or of a listener to a rendering. -/
inductive Call
  | hook (observer : Hook) (index : Int) (shown : Shown)
  | progress (type : String) (percent : Binary64) (message : String)
  deriving Inhabited

/-- The state in which edits are done. -/
structure Session where
  files : Storage
  /-- What the next starts of the renderer will do. -/
  launches : List Launch
  /-- What all further starts will do. -/
  further : Launch
  /-- What inspecting files yields, by path; a star stands for every other path. -/
  probes : List (String × ProbeScript)
  journal : List JournalEntry
  /-- The commands by which the renderer was started. -/
  commands : List Command
  /-- The inspections: the program and the path. -/
  probed : List (String × String)
  calls : List Call
  /-- What was printed. -/
  printed : String
  deriving Inhabited

namespace Session

/-- A session at its start. Starts of the renderer that nothing is said about succeed. -/
def of (files : Storage) (launches : List Launch) (probes : List (String × ProbeScript)) :
    Session := ⟨files, launches, .plain, probes, [], [], [], [], ""⟩

end Session

/-- Computations that can fail and that change a session. -/
abbrev Action := ExceptT Failure (StateM Session)

namespace Action

variable {α : Type}

/-- The result of a computation on values, whose faults are failures of the action. -/
def ofFault (r : Except Fault α) : Action α := ExceptT.mk (pure (r.mapError .fault))

/-- The result of a computation that may refuse. -/
def ofEdit (r : Except EditError α) : Action α := ExceptT.mk (pure (r.mapError .edit))

/-- The result of a computation that may fail. -/
def ofFailure (r : Except Failure α) : Action α := ExceptT.mk (pure r)

/-- Refuse. -/
def refuse (e : EditError) : Action α := throw (.edit e)

/-- Fail by a fault. -/
def faulted (f : Fault) : Action α := throw (.fault f)

/-- The outcome of an action, whether it fails or not. -/
def outcome (a : Action α) : Action (Except Failure α) :=
  ExceptT.mk ((fun r => .ok r) <$> a.run)

/-- Write an entry of the journal. -/
def record (level : Level) (source text : String) : Action Unit :=
  modify fun s => { s with journal := s.journal ++ [⟨level, source, text⟩] }

/-- Write a warning. -/
def warn (source text : String) : Action Unit := record .warning source text

/-- Write several warnings. -/
def warnAll (source : String) (texts : List String) : Action Unit := texts.forM (warn source)

/-- Write an error. -/
def complain (source text : String) : Action Unit := record .error source text

/-- The stored files. -/
def files : Action Storage := return (← get).files

/-- Change the stored files. -/
def setFiles (files : Storage) : Action Unit := modify fun s => { s with files }

/-- A path leads to something. -/
def exists? (p : Path) : Action Bool := do ofFault ((← files).exists? p)

/-- Print a line. -/
def print (text : String) : Action Unit :=
  modify fun s => { s with printed := s.printed ++ text ++ "\n" }

end Action

end Montage
