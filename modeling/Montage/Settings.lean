import Montage.Edit.Operation
import Montage.Files.Storage
import Montage.Text.Case
import Montage.Text.Search

/-!
# Settings

The settings of an engine, in groups of named values, each with a default. Settings come from an
object, from a file or from environment variables; what they say is put over the defaults. Values
are used as they are, so a check tells which of them would not serve.

## Main definitions

* `Montage.Settings`: the settings; `Settings.default` holds the defaults.
* `Settings.ofValue`, `Settings.ofEnvironment`: settings from an object or from variables.
* `Settings.toFields`: the settings as an object.
* `Settings.problems`: what would not serve.
-/

namespace Montage

/-- The settings of an engine. -/
structure Settings where
  render : Fields
  preview : Fields
  text : Fields
  caption : Fields
  /-- Colour grades by name, in place of built-in ones or beside them. -/
  grades : Fields
  templateFile : Option Path
  tempDir : Option Path
  fontFile : Option Path
  debug : Bool
  deriving Inhabited

namespace Settings

/-- The defaults of the renderer. -/
def renderDefaults : Fields :=
  [("ffmpeg_binary", .string "ffmpeg"), ("ffprobe_binary", .string "ffprobe"),
    ("timeout", .int 7200), ("video_codec", .string "libx264"), ("audio_codec", .string "aac"),
    ("preset", .string "medium"), ("crf", .int 23), ("image_duration", .int 1)]

/-- The defaults of the preview service. -/
def previewDefaults : Fields :=
  [("cloud_name", .string "demo"), ("delivery_base", .string "https://res.cloudinary.com"),
    ("inset", .int 20), ("font_family", .string "Arial")]

/-- The defaults of text over the picture. -/
def textDefaults : Fields :=
  [("font", .string "Arial"), ("font_size", .int 24), ("color", .string "white"),
    ("position", .string "bottom"), ("margin", .int 10), ("box_opacity", .real (.nearest (1 / 2)))]

/-- The defaults of captions. -/
def captionDefaults : Fields :=
  [("font", .string "Arial"), ("color", .string "white"), ("size", .string "medium"),
    ("position", .string "bottom"), ("style", .string "normal"),
    ("play_res", .list [.int 1920, .int 1080])]

/-- The settings where nothing is set. -/
def default : Settings where
  render := renderDefaults
  preview := previewDefaults
  text := textDefaults
  caption := captionDefaults
  grades := []
  templateFile := none
  tempDir := none
  fontFile := none
  debug := false

/-- The path that a value is. -/
def pathOf : Value → Except Fault Path
  | .string s => .ok (.ofString s)
  | v => .error (.type (.notPath v.typeName))

/-- A group of settings with those under a key put over it. -/
def group (fs : Fields) (key : String) (defaults : Fields) : Except Fault Fields :=
  match fs.get? key with
  | some v => return defaults.merge (← v.asFields)
  | none => .ok defaults

/-- The path under a key, if something is there. -/
def path? (fs : Fields) (key : String) : Except Fault (Option Path) :=
  if (fs.get key).isTruthy then (pathOf (fs.get key)).map some else .ok none

/-- The settings in the fields of an object. -/
def ofFields (fs : Fields) : Except Fault Settings := do
  let render ← group fs "render_settings" renderDefaults
  let preview ← group fs "preview_settings" previewDefaults
  let text ← group fs "text_settings" textDefaults
  let caption ← group fs "caption_settings" captionDefaults
  let grades ← match fs.get? "color_presets" with
    | some v => v.asFields
    | none => .ok []
  let templateFile ← path? fs "template_file"
  let tempDir ← path? fs "temp_dir"
  let fontFile ← path? fs "font_file"
  .ok { render, preview, text, caption, grades, templateFile, tempDir, fontFile,
        debug := (fs.get "debug").isTruthy }

/-- The groups that are looked for before anything is asked for by its key. -/
def groupKeys : List String :=
  ["render_settings", "preview_settings", "text_settings", "caption_settings", "color_presets"]

/-- The settings that a value describes. A list or a text describes none; how it fails depends on
whether the name of a group is found in it. -/
def ofValue : Value → Except Fault Settings
  | .object fs => ofFields fs
  | .list vs =>
    if groupKeys.any fun key => vs.any fun v => v.string? == some key then
      .error (.type .listIndex)
    else .error (.member (Value.list vs).typeName "get")
  | .string s =>
    if groupKeys.any fun key => occursIn key s then .error (.type .textIndex)
    else .error (.member (Value.string s).typeName "get")
  | v => .error (.type (.other ("argument of type '" ++ v.typeName ++ "' is not iterable")))

/-- The text of a variable, if it is set and not empty. -/
def given? (env : Fields) (name : String) : Option Value :=
  (env.get? name).filter Value.isTruthy

/-- The settings in environment variables. -/
def ofEnvironment (env : Fields) : Except Fault Settings := do
  let put (fs : Fields) (key name : String) : Fields :=
    match given? env name with
    | some v => fs.set key v
    | none => fs
  let render := put (put default.render "ffmpeg_binary" "VEDIT_FFMPEG_PATH") "ffprobe_binary"
    "VEDIT_FFPROBE_PATH"
  let render ← match given? env "FFMPEG_TIMEOUT_SECONDS" with
    | some v => v.toInt.map fun n => render.set "timeout" (.int n)
    | none => .ok render
  let preview :=
    match (given? env "VEDIT_CLOUD_NAME").or (given? env "CLOUDINARY_CLOUD_NAME") with
    | some v => default.preview.set "cloud_name" v
    | none => default.preview
  let tempDir ← path? env "VEDIT_TEMP_DIR"
  match (env.get? "VEDIT_DEBUG").getD (.string "") with
  | .string s =>
    let debug := ["1", "true", "yes"].contains s.lowerCase
    .ok { default with render, preview, tempDir, debug }
  | v => .error (.member v.typeName "lower")

/-- A path as a value. -/
def pathValue : Option Path → Value
  | some p => .string p.text
  | none => .null

/-- The settings as an object. The resolution of captions is written as a list. -/
def toFields (s : Settings) : Except Fault Fields := do
  let resolution ← ((s.caption.get? "play_res").getD (.list [])).items
  .ok [("render_settings", .object s.render), ("preview_settings", .object s.preview),
    ("text_settings", .object s.text),
    ("caption_settings", .object (s.caption.set "play_res" (.list resolution))),
    ("color_presets", .object s.grades), ("template_file", pathValue s.templateFile),
    ("temp_dir", pathValue s.tempDir), ("font_file", pathValue s.fontFile),
    ("debug", .bool s.debug)]

/-- The setting of the program that renders. -/
def renderer (s : Settings) : Value := (s.render.get? "ffmpeg_binary").getD (.string "ffmpeg")

/-- The setting of the program that inspects media. -/
def prober (s : Settings) : Value := (s.render.get? "ffprobe_binary").getD (.string "ffprobe")

/-- How long the renderer may run, in seconds. -/
def timeout (s : Settings) : Except Fault Binary64 :=
  ((s.render.get? "timeout").getD (.int 7200)).toReal

/-- The value counts as a number that fulfils a condition. -/
def isCount (holds : Number → Bool) (v : Value) : Bool := v.count?.any holds

/-- The problem of a file that is named and does not exist. -/
def missingFile (files : Storage) (role : String) : Option Path → Except Fault (List String)
  | some p => do
    if ← files.exists? p then .ok [] else .ok [role ++ " not found: " ++ p.text]
  | none => .ok []

/-- What would not serve. -/
def problems (s : Settings) (files : Storage) : Except Fault (List String) := do
  let timeout := match s.render.get "timeout" with
    | .null => []
    | v => if isCount (fun n => !(n ≤ 0)) v then [] else ["Invalid render timeout: " ++ v.text]
  let inset := s.preview.get "inset"
  let inset := if isCount (fun n => !(n < 0)) inset then [] else
    ["Invalid preview inset: " ++ inset.text]
  let cloud := if (s.preview.get "cloud_name").isTruthy then [] else
    ["Preview cloud_name is not set"]
  let template ← missingFile files "Template file" s.templateFile
  let font ← missingFile files "Font file" s.fontFile
  let resolution := s.caption.get "play_res"
  let resolution ←
    if resolution.isTruthy then do
      if (← resolution.length) = 2 then .ok []
      else .ok ["Invalid caption play_res: " ++ resolution.text]
    else .ok ["Invalid caption play_res: " ++ resolution.text]
  let grades := s.grades.filterMap fun g =>
    match g.2 with
    | .object _ => none
    | _ => some ("Colour preset '" ++ g.1 ++ "' must be a mapping")
  .ok (timeout ++ inset ++ cloud ++ template ++ font ++ resolution ++ grades)

end Settings

end Montage
