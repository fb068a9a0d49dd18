import Montage.Value

/-!
# Removal of a span

To cut a span out of a clip means to keep what lies before it and what lies after it. The plan of a
removal lists the spans that are kept, in order. A removal that would keep everything, or nothing,
is skipped. Plans are made over any ordered type of times, so that they can be reasoned about in
exact arithmetic as well.

## Main definitions

* `Montage.Span`: a kept span, possibly up to the end.
* `Montage.SkipCause`: why a removal is skipped.
* `Montage.SegmentPlan`: the kept spans; `SegmentPlan.remove` plans a removal.
* `SegmentPlan.outputDuration?`: how long the result is.
-/

namespace Montage

/-- The times from `start` on, before `finish` if there is one. -/
structure Span (α : Type) where
  start : α
  finish : Option α
  deriving DecidableEq, Inhabited

/-- Why a removal is skipped. -/
inductive SkipCause
  | negativeStart
  | emptyRange
  /-- The removed span starts at the end of the source or after it. -/
  | beyondSource
  | wholeSource
  deriving DecidableEq, Inhabited

/-- The kept spans in the order of the output. -/
structure SegmentPlan (α : Type) where
  spans : List (Span α)
  /-- How long the source is, if that is known. -/
  source : Option α
  /-- The span that is cut out. -/
  removed : α × α
  deriving DecidableEq, Inhabited

section

variable {α : Type} [LT α] [LE α] [DecidableLT α] [DecidableLE α] [BEq α]

/-- Why cutting out the span from `start` to `finish` is skipped, on a timeline that begins at
`origin`. -/
def skipCause? (origin start finish : α) (source : Option α) : Option SkipCause :=
  if start < origin then some .negativeStart
  else if finish ≤ start then some .emptyRange
  else match source with
    | none => none
    | some d =>
      if d ≤ start then some .beyondSource
      else if start == origin && decide (d ≤ finish) then some .wholeSource
      else none

namespace SegmentPlan

/-- The spans that are kept. -/
def keptSpans (origin start finish : α) (source : Option α) : List (Span α) :=
  if start == origin then [⟨finish, source⟩]
  else if source.any (· ≤ finish) then [⟨origin, some start⟩]
  else [⟨origin, some start⟩, ⟨finish, source⟩]

/-- The plan for cutting out the span from `start` to `finish`. -/
def remove (origin start finish : α) (source : Option α) : Except SkipCause (SegmentPlan α) :=
  match skipCause? origin start finish source with
  | some cause => .error cause
  | none => .ok ⟨keptSpans origin start finish source, source, (start, finish)⟩

end SegmentPlan

end

section

variable {α : Type} [Sub α] [Add α] [OfNat α 0]

/-- How long a span is, if it ends. -/
def Span.duration? (s : Span α) : Option α := s.finish.map (· - s.start)

/-- How long the output is, if all spans end. -/
def SegmentPlan.outputDuration? (p : SegmentPlan α) : Option α :=
  (p.spans.mapM Span.duration?).map fun ds => ds.foldl (· + ·) 0

end

namespace SegmentPlan

variable {α : Type}

/-- Several spans have to be joined. -/
def isJoined (p : SegmentPlan α) : Bool := 1 < p.spans.length

end SegmentPlan

namespace SkipCause

/-- Why the removal is skipped, in words. -/
def message (start finish : Number) (source : Option Number) : SkipCause → String
  | negativeStart => "removeClip start (" ++ start.text ++ ") is negative, skipping"
  | emptyRange =>
    "removeClip end (" ++ finish.text ++ ") must be after start (" ++ start.text ++ "), skipping"
  | beyondSource =>
    "removeClip start (" ++ start.text ++ ") is beyond the source duration (" ++
      ((source.map Number.text).getD "None") ++ "), nothing to remove"
  | wholeSource => "removeClip would remove the entire source, skipping"

end SkipCause

/-- Why cutting out a span is skipped, in words. -/
def skipReason? (start finish : Number) (source : Option Number) : Option String :=
  (skipCause? (.real 0) start finish source).map fun c => c.message start finish source

/-- The plan for cutting out a span of numbers. -/
def planRemoval (start finish : Number) (source : Option Number) :
    Except SkipCause (SegmentPlan Number) := SegmentPlan.remove (.real 0) start finish source

/-- The text of a number that may be absent. -/
def textOrNone : Option Number → String
  | some n => n.text
  | none => "None"

/-- The text of a plan: its spans, the duration of the source and the span that is cut out. -/
def SegmentPlan.text (p : SegmentPlan Number) : String :=
  let span (s : Span Number) : String :=
    "Span(start=" ++ s.start.text ++ ", end=" ++ textOrNone s.finish ++ ")"
  let spans := match p.spans with
    | [s] => span s ++ ","
    | ss => ", ".intercalate (ss.map span)
  "SegmentPlan(spans=(" ++ spans ++ "), source_duration=" ++ textOrNone p.source ++
    ", removed=(" ++ p.removed.1.text ++ ", " ++ p.removed.2.text ++ "))"

end Montage
