import Montage.Filter.Stage
import Montage.Segment.Plan

/-!
# Filter graphs of removals

A graph of filters joined by labelled pads. The graph of a plan splits picture and sound of the
source once for each kept span, trims every copy to its span, and joins the copies in order.

## Main definitions

* `Montage.GraphElement`: a chain of filters with the labels that it reads and produces.
* `SegmentPlan.elements`: the graph of a plan; `SegmentPlan.graph` writes it.
* `Montage.outputMaps`: the options that select the results of the graph.
-/

namespace Montage

/-- A chain of filters between labelled pads. -/
structure GraphElement where
  inputs : List String
  filter : String
  outputs : List String
  deriving DecidableEq, Inhabited

namespace GraphElement

/-- A label in writing. -/
def labelText (label : String) : String := "[" ++ label ++ "]"

/-- The element in writing. -/
def text (e : GraphElement) : String :=
  "".intercalate (e.inputs.map labelText) ++ e.filter ++ "".intercalate (e.outputs.map labelText)

end GraphElement

namespace Span

/-- Stages that trim to a span and start its time at zero. -/
def trimming (trim setpts : String) (s : Span Number) : List Stage :=
  let limit := match s.finish with
    | some e => [("end", OptionValue.real e.toReal)]
    | none => []
  [.of trim (("start", .real s.start.toReal) :: limit), .ofArgs setpts [.string "PTS-STARTPTS"]]

/-- The stages for the picture. -/
def videoStages : Span Number → List Stage := trimming "trim" "setpts"

/-- The stages for the sound. -/
def audioStages : Span Number → List Stage := trimming "atrim" "asetpts"

/-- Both ends have a binary number nearest to them. -/
def isWritable (s : Span Number) : Bool := !s.start.beyondReal && !s.finish.any Number.beyondReal

end Span

/-- A label with a number. -/
def numbered (label : String) (n : Nat) : String := label ++ digitText n

/-- The elements that split a source into so many copies. -/
def splitElement (source filter label : String) (count : Nat) : GraphElement :=
  ⟨[source], filter ++ "=" ++ digitText count, (List.range count).map (numbered label)⟩

namespace SegmentPlan

/-- The elements that trim the copy number `i` to a span. -/
def spanElements (audio : Bool) (i : Nat) (s : Span Number) : List GraphElement :=
  ⟨[numbered "vin" i], chainText s.videoStages, [numbered "v" i]⟩ ::
    if audio then [⟨[numbered "ain" i], chainText s.audioStages, [numbered "a" i]⟩] else []

/-- The labels that the span number `i` is joined from. -/
def joinInputs (audio : Bool) (i : Nat) : List String :=
  numbered "v" i :: if audio then [numbered "a" i] else []

/-- The element that joins so many spans. -/
def joinElement (audio : Bool) (count : Nat) : GraphElement :=
  ⟨(List.range count).flatMap (joinInputs audio),
    "concat=n=" ++ digitText count ++ ":v=1:a=" ++ (if audio then "1" else "0"),
    "outv" :: if audio then ["outa"] else []⟩

/-- The elements for the spans from the one number `i` on. -/
def spansElements (audio : Bool) (i : Nat) : List (Span Number) → List GraphElement
  | [] => []
  | s :: ss => spanElements audio i s ++ spansElements audio (i + 1) ss

/-- The graph of a plan. -/
def elements (p : SegmentPlan Number) (audio : Bool) : List GraphElement :=
  match p.spans with
  | [] => []
  | [s] =>
    ⟨["0:v"], chainText s.videoStages, ["outv"]⟩ ::
      if audio then [⟨["0:a"], chainText s.audioStages, ["outa"]⟩] else []
  | spans =>
    let count := spans.length
    splitElement "0:v" "split" "vin" count ::
      ((if audio then [splitElement "0:a" "asplit" "ain" count] else []) ++
        spansElements audio 0 spans ++ [joinElement audio count])

/-- The graph in writing. -/
def graphText (p : SegmentPlan Number) (audio : Bool) : String :=
  ";".intercalate ((p.elements audio).map GraphElement.text)

/-- The graph in writing, or the fault that there is no span or a time that cannot be written. -/
def graph (p : SegmentPlan Number) (audio : Bool) : Except Fault String :=
  if p.spans.isEmpty then .error (.position "tuple")
  else if p.spans.all Span.isWritable then .ok (p.graphText audio)
  else .error (.range .integerBeyondReal)

end SegmentPlan

/-- The options that select the results of the graph. -/
def outputMaps (audio : Bool) : List String :=
  ["-map", "[outv]"] ++ if audio then ["-map", "[outa]"] else []

end Montage
