import Montage.Catalog.Spec

/-!
# The catalogue of edits

The parameters of every kind of edit. All checks of requests and the listings of edits are read off
this catalogue.

## Main definitions

* `Montage.specOf`: the specification of a kind of edit.
* `Montage.Catalog.describe?`: the specification for a value that names an edit.
-/

namespace Montage

/-- The names of text sizes. -/
def sizeNames : List String := ["small", "medium", "large", "xlarge"]

/-- The places for a line of text. -/
def placements : List String :=
  ["top", "bottom", "center", "left", "right", "top-left", "top-right", "bottom-left",
    "bottom-right"]

/-- The playback speeds on offer. -/
def speeds : List Binary64 := [.nearest (1 / 2), 1, .nearest (3 / 2), 2]

/-- The bounds of a window of time. -/
def windowFields : List FieldSpec :=
  [{ name := "startTime", minimum := some 0 }, { name := "endTime", above := some 0 }]

/-- The strength of a look. -/
def intensityField : FieldSpec := { name := "intensity", minimum := some 0, maximum := some 1 }

/-- The parameters of a line of text. -/
def textFields : List FieldSpec :=
  [{ name := "text", type := .text, required := true },
    { name := "position", type := .text, default := .string "bottom",
      choices := placements.map .string },
    { name := "fontSize", type := .size, minimum := some 12, maximum := some 120,
      aliases := ["size"] },
    { name := "fontColor", type := .text, default := .string "white", aliases := ["color"] },
    { name := "backgroundColor", type := .text, aliases := ["bgColor", "background"] },
    { name := "font", type := .text, aliases := ["fontFamily"] },
    { name := "style", type := .text, aliases := ["fontStyle"] }] ++ windowFields

/-- The specification of a kind of edit. -/
def specOf : Kind → EditSpec
  | .trim => {
      kind := .trim
      description := "Keep only the span between start and end"
      fields := [
        { name := "start", minimum := some 0, default := .int 0, aliases := ["startTime"] },
        { name := "end", above := some 0, aliases := ["endTime"] }] }
  | .removeClip => {
      kind := .removeClip
      description := "Cut the span between startTime and endTime and join the rest"
      fields := [
        { name := "startTime", required := true, aliases := ["start"] },
        { name := "endTime", required := true, aliases := ["end"] }]
      previewed := false }
  | .colorGrade => {
      kind := .colorGrade
      description := "Apply a named colour grade preset"
      fields := [
        { name := "preset", type := .text, required := true, aliases := ["style", "grade"] },
        intensityField] ++ windowFields
      windowed := true }
  | .applyEffect => {
      kind := .applyEffect
      description := "Apply a named visual effect preset"
      fields := [
        { name := "effect", type := .text, required := true,
          aliases := ["effectPreset", "preset"] },
        { intensityField with default := .real (.nearest (1 / 2)) }] ++ windowFields
      windowed := true }
  | .addText => {
      kind := .addText
      description := "Overlay a line of text"
      fields := textFields
      windowed := true }
  | .customText => {
      kind := .customText
      description := "Overlay a line of text with custom styling"
      fields := textFields
      windowed := true }
  | .filter => {
      kind := .filter
      description := "Apply a primitive filter such as blur or grayscale"
      fields := [
        { name := "filterType", type := .text, required := true, aliases := ["type", "filter"] },
        { name := "level", minimum := some 0, aliases := ["value"] },
        intensityField] ++ windowFields
      windowed := true }
  | .addCaptions => {
      kind := .addCaptions
      description := "Burn captions into the video"
      fields := [
        { name := "subtitleFile", type := .path, aliases := ["subtitlePath", "srtPath"] },
        { name := "captions", type := .list, aliases := ["segments"] },
        { name := "subtitleColor", type := .text, default := .string "white",
          aliases := ["color"] },
        { name := "subtitleSize", type := .size, default := .string "medium", minimum := some 12,
          maximum := some 120, aliases := ["size", "fontSize"] },
        { name := "subtitlePosition", type := .text, default := .string "bottom",
          aliases := ["position"] },
        { name := "subtitleStyle", type := .text, aliases := ["style"] },
        { name := "backgroundColor", type := .text, aliases := ["bgColor"] }]
      previewed := false }
  | .adjustIntensity => {
      kind := .adjustIntensity
      description := "Raise or lower the strength of the current look"
      fields := [
        { name := "intensity", minimum := some 0, maximum := some 2,
          aliases := ["newIntensity"] },
        { name := "direction", type := .text, choices := [.string "more", .string "less"] },
        { name := "effectPreset", type := .text, aliases := ["effect"] }] ++ windowFields
      windowed := true }
  | .adjustZoom => {
      kind := .adjustZoom
      description := "Zoom in or out around the frame centre"
      fields := [
        { name := "zoom", above := some 0, maximum := some 4,
          aliases := ["newZoom", "zoomLevel"] },
        { name := "direction", type := .text, choices := [.string "in", .string "out"] }] }
  | .adjustSpeed => {
      kind := .adjustSpeed
      description := "Change playback speed"
      fields := [{ name := "speed", required := true, choices := speeds.map .real }] }
  | .rotate => {
      kind := .rotate
      description := "Rotate the frame"
      fields := [
        { name := "degrees", required := true, minimum := some (.int (-180)),
          maximum := some 180, aliases := ["rotation", "angle"] }] }
  | .crop => {
      kind := .crop
      description := "Crop to a rectangle"
      fields := [
        { name := "x", required := true, minimum := some 0 },
        { name := "y", required := true, minimum := some 0 },
        { name := "width", required := true, above := some 0 },
        { name := "height", required := true, above := some 0 }] }

namespace Catalog

/-- The specification for a value that names an edit. -/
def describe? (kind : Value) : Option EditSpec := (Kind.ofValue? kind).map specOf

/-- All specifications, in order. -/
def all : List EditSpec := Kind.all.map specOf

end Catalog

end Montage
