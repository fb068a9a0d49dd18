import Montage.Failure

/-!
# Kinds of edits

The thirteen edits, their names, and the two kinds of media that they apply to.

## Main definitions

* `Montage.Kind`: the edits; `Kind.name` and `Kind.ofName?` write and read them.
* `Montage.Resource`: video or image.
-/

namespace Montage

/-- The edits. -/
inductive Kind
  | trim
  | removeClip
  | colorGrade
  | applyEffect
  | addText
  | customText
  | filter
  | addCaptions
  | adjustIntensity
  | adjustZoom
  | adjustSpeed
  | rotate
  | crop
  deriving DecidableEq, Inhabited

namespace Kind

/-- All edits, in the order in which they are listed. -/
def all : List Kind :=
  [trim, removeClip, colorGrade, applyEffect, addText, customText, filter, addCaptions,
    adjustIntensity, adjustZoom, adjustSpeed, rotate, crop]

/-- The name of an edit. -/
def name : Kind → String
  | trim => "trim"
  | removeClip => "removeClip"
  | colorGrade => "colorGrade"
  | applyEffect => "applyEffect"
  | addText => "addText"
  | customText => "customText"
  | filter => "filter"
  | addCaptions => "addCaptions"
  | adjustIntensity => "adjustIntensity"
  | adjustZoom => "adjustZoom"
  | adjustSpeed => "adjustSpeed"
  | rotate => "rotate"
  | crop => "crop"

/-- The edit of a name. -/
def ofName? (s : String) : Option Kind := all.find? fun k => k.name = s

/-- The edit that a value names. -/
def ofValue? : Value → Option Kind
  | .string s => ofName? s
  | _ => none

/-- The edit that a value names, or the refusal of any other value. -/
def parse (v : Value) : Except EditError Kind :=
  match ofValue? v with
  | some k => .ok k
  | none => .error (.unknownOperation v)

/-- The edit writes a line of text over the picture. -/
def isText : Kind → Bool
  | addText | customText => true
  | _ => false

/-- The times of the edit describe the edit itself, not a window around it. -/
def isBounded : Kind → Bool
  | trim | removeClip => true
  | _ => false

/-- The edit makes sense only for media with a timeline. -/
def needsTimeline : Kind → Bool
  | trim | removeClip | adjustSpeed | addCaptions => true
  | _ => false

end Kind

/-- The kinds of media. -/
inductive Resource
  | video
  | image
  deriving DecidableEq, Inhabited

namespace Resource

/-- The name of a kind of media. -/
def name : Resource → String
  | video => "video"
  | image => "image"

/-- The kind of media that a value names. -/
def ofValue? : Value → Option Resource
  | .string "video" => some video
  | .string "image" => some image
  | _ => none

end Resource

end Montage
