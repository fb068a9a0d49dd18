import Montage.Engine.Basic

/-!
# Sequences

Several requests are processed one after another on the same media. Where a request renders a file,
the next one reads that file. A request that fails or is skipped leaves the media as they are, and
the sequence goes on. The last rendered file becomes the output, and the rendered files are
deleted.

## Main definitions

* `Montage.Progression`: the results so far.
* `Engine.runSequence`: the results of a sequence, one for each request.
-/

namespace Montage

/-- The part of the journal about sequences. -/
def sequenceSource : String := "vedit.engine.sequencer"

/-- How far a sequence has come. -/
structure Progression where
  /-- The media that the next request is applied to. -/
  current : Target
  results : List EditResult
  /-- The files that were rendered. -/
  renders : List Path
  deriving Inhabited

/-- The name of the requested edit as it stands in the request. -/
def Request.givenKind : Request → Value
  | .typed i => i.operation
  | .untyped (.object fs) => Fields.get fs "operation"
  | .untyped v => v

namespace Engine

/-- The place of the next request. -/
def nextIndex (p : Progression) : Int := p.results.length

/-- A progression after one more result. -/
def advanceBy (p : Progression) (result : EditResult) : Progression :=
  let results := p.results ++ [result]
  match result.isSuccess, result.product.bind Product.file? with
  | true, some path => ⟨p.current.advance path, results, p.renders ++ [path]⟩
  | _, _ => { p with results }

/-- The note about a request that was not completed. -/
def stepNote (r : Request) (result : EditResult) : String :=
  "Step " ++ intText result.index ++ " (" ++ r.givenKind.text ++ ") " ++ result.status.name ++
    ", continuing"

/-- Process one request of a sequence on `target`. -/
def runStep (e : Engine) (target : Target) (backend : Value) (p : Progression) (r : Request) :
    Action Progression := do
  let output ← Action.ofFault (target.outputFor? (nextIndex p))
  let result ← e.process r { p.current with output } backend (nextIndex p)
  if !result.isSuccess then Action.warn sequenceSource (stepNote r result)
  return advanceBy p result

/-- Delete rendered files, except the output itself. Where this is not possible it is noted. -/
def removeRenders (renders : List Path) (output : Path) : Action Unit :=
  (renders.filter (· ≠ output)).forM fun path => do
    match (← Action.files).remove path with
    | .ok files => Action.setFiles files
    | .error f =>
      Action.warn sequenceSource
        ("Could not remove intermediate render " ++ path.text ++ ": " ++ f.message)

/-- The results of a sequence of requests. -/
def runSequence (e : Engine) (requests : List Request) (target : Target) (backend : Value) :
    Action (List EditResult) := do
  let p ← requests.foldlM (e.runStep target backend) ⟨target, [], []⟩
  match p.renders.getLast?, target.output with
  | some last, some output =>
    Action.setFiles (← Action.ofFault ((← Action.files).copy last output))
    removeRenders p.renders output
  | _, _ => pure ()
  return p.results

end Engine

end Montage
