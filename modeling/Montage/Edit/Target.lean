import Montage.Edit.Kind
import Montage.Files.Storage

/-!
# Targets

The media that an edit is applied to: where they are read from, under which name the preview service
knows them, and where the result goes.

## Main definitions

* `Montage.Target`: the media.
* `Target.outputFor?`: where one edit of a sequence writes its result.
* `Target.advance`: the media after a rendering.
-/

namespace Montage

/-- The media that an edit is applied to. -/
structure Target where
  /-- A path or an address. -/
  source : Option String
  /-- The name on the preview service. -/
  publicId : Option String
  output : Option Path
  resource : Resource
  /-- The length in seconds, if it is known. -/
  duration : Option Number
  /-- There is sound, if that is known. -/
  hasAudio : Option Bool
  deriving Inhabited

namespace Target

/-- A text that is there and not empty. -/
def given? (s : Option String) : Option String := s.filter (· ≠ "")

/-- The text names a service, as an address does. -/
def isAddress (s : String) : Bool := go s.toList
where
  /-- The mark of an address occurs in a text. -/
  go : List Char → Bool
    | [] => false
    | c :: cs => "://".toList.isPrefixOf (c :: cs) || go cs

/-- The source is a stored file. -/
def isLocal (t : Target) (files : Storage) : Except Fault Bool :=
  match given? t.source with
  | some source => if isAddress source then .ok false else files.exists? (.ofString source)
  | none => .ok false

/-- The number of a step in a file name: at least two characters. -/
def stepText (index : Int) : String :=
  padLeft 2 '0' (intText index)

/-- Where the edit number `index` of a sequence writes its result: beside the output, with the
number before the suffix. -/
def outputFor? (t : Target) (index : Int) : Except Fault (Option Path) :=
  t.output.mapM fun output =>
    output.withName? (output.stem ++ ".step" ++ stepText index ++ output.suffix)

/-- The media after an edit was rendered to a new file, of which nothing is known. -/
def advance (t : Target) (rendered : Path) : Target :=
  { t with source := some rendered.text, duration := none, hasAudio := none }

end Target

end Montage
