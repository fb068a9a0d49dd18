import Montage.Caption.Document
import Montage.Filter.Expression
import Montage.Session
import Montage.Text.Digest

/-!
# Captions as filters

Captions become a stage that draws a subtitle file over the picture. A file that is given is used
as it is; captions given one by one are written to a file of their own, named after its content, so
that the same captions share one file.

## Main definitions

* `Montage.tempDir`: the directory for files that are written on the way.
* `Montage.writeCaptions`: the file of captions.
* `Montage.compileCaptions`: the expression for captions.
-/

namespace Montage

/-- The part of the journal about captions. -/
def captionSource : String := "vedit.filters.captions"

/-- The directory for files that are written on the way, created where it does not exist. -/
def tempDir (s : Settings) : Action Path := do
  let dir := s.tempDir.getD (.ofString "tmp/vedit")
  Action.setFiles (← Action.ofFault ((← Action.files).makeDirs dir))
  return dir

/-- The name of the file of a document. -/
def captionFileName (document : String) : String :=
  "captions_" ++ String.ofList ((Digest.hexOf document).toList.take 16) ++ ".ass"

/-- The file of captions, written unless there is one. -/
def writeCaptions (s : Settings) (cues : List Cue) (style : CaptionStyle) : Action Path := do
  let document ← Action.ofFault (subtitleDocument s.caption cues style)
  let path := (← tempDir s).child (captionFileName document)
  if ← Action.exists? path then return path
  Action.setFiles (← Action.ofFault ((← Action.files).write path path.text document))
  return path

/-- The style of a request; its warnings go to the journal as well. -/
def captionStyleOf (s : Settings) (p : CaptionParams) : Action (CaptionStyle × List String) := do
  let (style, warnings) ← Action.ofFault (CaptionStyle.resolve s.caption p)
  Action.warnAll captionSource warnings
  return (style, warnings)

/-- The stage that draws a subtitle file over the picture. -/
def subtitleStage (path : Path) (overrides : Option String) : Stage :=
  .of "subtitles" (("filename", .string path.text) ::
    (overrides.map fun o => ("force_style", OptionValue.string o)).toList)

/-- The expression for captions. -/
def compileCaptions (s : Settings) (p : CaptionParams) : Action Expression := do
  let (style, warnings) ← captionStyleOf s p
  if p.file.isTruthy then
    let path ← Action.ofFault (Settings.pathOf p.file)
    if !(← Action.exists? path) then
      Action.refuse (.of .compilation ("Subtitle file not found: " ++ path.text)
        [("subtitle_file", .string path.text)])
    let overrides := if path.suffix.lowerCase = ".ass" then none else some style.overrides
    return { Expression.ofVideo [subtitleStage path overrides] with warnings }
  if p.cues.isEmpty then
    let reason := "No captions or subtitle file supplied, nothing to burn in"
    Action.warn captionSource reason
    return { Expression.nothing with warnings := warnings ++ [reason] }
  let path ← writeCaptions s p.cues style
  return { Expression.ofVideo [subtitleStage path none] with
    warnings, scratch := [path.text] }

end Montage
