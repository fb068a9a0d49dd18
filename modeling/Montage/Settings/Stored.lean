import Montage.Json.Reader
import Montage.Json.Writer
import Montage.Session
import Montage.Settings
import Montage.Yaml.Reader
import Montage.Yaml.Writer

/-!
# Stored settings

Settings are kept in files of two formats, which the suffix of the file tells apart.

## Main definitions

* `Montage.SettingsFormat`: the formats.
* `Settings.load`, `Settings.save`: settings from a file, and into one.
-/

namespace Montage

/-- The formats of files with settings. -/
inductive SettingsFormat
  | yaml
  | json
  deriving DecidableEq, Inhabited

namespace SettingsFormat

/-- The format that a suffix tells. -/
def ofSuffix (suffix : String) : Except Fault SettingsFormat :=
  if suffix = ".yaml" || suffix = ".yml" then .ok yaml
  else if suffix = ".json" then .ok json
  else .error (.value (.unknownFormat suffix))

/-- The value of a text. -/
def read : SettingsFormat → String → Except Fault Value
  | yaml, text => Yaml.parse text
  | json, text => Json.parse text

/-- The text of a value. -/
def write : SettingsFormat → Value → String
  | yaml, v => Yaml.write v
  | json, v => Json.pages v

end SettingsFormat

namespace Settings

/-- The settings in a file. -/
def load (p : Path) : Action Settings := do
  if !(← Action.exists? p) then
    Action.faulted (.system (.absent "Configuration file" p.text))
  let files ← Action.files
  let _ ← Action.ofFault (files.filePlace p p.text)
  let format ← Action.ofFault (SettingsFormat.ofSuffix p.suffix)
  let v ← Action.ofFault (format.read (← Action.ofFault (files.readLines p)))
  Action.ofFault (ofValue (if v.isTruthy then v else .object []))

/-- Write settings to a file. The file is emptied before anything else can go wrong. -/
def save (s : Settings) (p : Path) : Action Unit := do
  Action.setFiles (← Action.ofFault ((← Action.files).write p p.text ""))
  let format ← Action.ofFault (SettingsFormat.ofSuffix p.suffix)
  let fs ← Action.ofFault s.toFields
  Action.setFiles
    (← Action.ofFault ((← Action.files).write p p.text (format.write (.object fs))))

end Settings

end Montage
