import Montage.Files.Wildcard
import Montage.Text.Case
import Montage.Value

/-!
# Font files

A font is asked for by the name of its family or by its path. A path to a font file is taken as it
is; a name is searched for in the project's fonts, in directories of the caller, and in those of
the system, in this order. In the first directory with a match a regular face is preferred.

## Main definitions

* `Storage.findFont`: the file for a name.
* `Storage.resolveFont`: the file to draw text with, if one can be loaded.
-/

namespace Montage

/-- The suffixes of font files. -/
def fontSuffixes : List String := [".ttf", ".otf", ".ttc"]

/-- The directory with the project's fonts. -/
def projectFonts : Path := .ofString "fonts"

/-- The directories with the system's fonts. -/
def systemFonts : List Path := [.ofString "sysfonts"]

/-- The name of a font without regard to case and blanks around it. -/
def fontKey (name : String) : String := name.lowerCase.strip

/-- `s` with every `c` replaced. -/
def replaceChar (c : Char) (by_ : List Char) (s : String) : String :=
  String.ofList (s.toList.flatMap fun d => if d = c then by_ else [d])

/-- The patterns that a font's file name may match, in the order in which they are tried. -/
def fontPatterns (name : String) : List String :=
  let base := replaceChar ' ' [] (fontKey name)
  let dashed := replaceChar ' ' ['-'] name
  [name, base, dashed].flatMap fun stem => [stem ++ "*.ttf", stem ++ "*.otf"]

/-- The preferred one of several faces. -/
def preferredFace (base : String) (faces : List Path) : Option Path :=
  let regular (p : Path) : Bool :=
    occursIn "regular" p.stem.lowerCase || p.stem.lowerCase = base
  (faces.find? regular).or faces.head?

namespace Storage

/-- The preferred face in one directory: that of the first pattern with a match. -/
def faceIn (s : Storage) (dir : Path) (base : String) :
    List String → Except Fault (Option Path)
  | [] => .ok none
  | pattern :: patterns => do
    match preferredFace base (← s.search dir pattern) with
    | some face => .ok (some face)
    | none => faceIn s dir base patterns

/-- The preferred face in the first directory that has one. -/
def faceInFirst (s : Storage) (base : String) (patterns : List String) :
    List Path → Except Fault (Option Path)
  | [] => .ok none
  | dir :: dirs => do
    if ← s.exists? dir then
      match ← s.faceIn dir base patterns with
      | some face => .ok (some face)
      | none => faceInFirst s base patterns dirs
    else faceInFirst s base patterns dirs

/-- The file for the name of a font, or for its path. -/
def findFont (s : Storage) (name : String) (dirs : List Path) : Except Fault (Option Path) := do
  let path := Path.ofString name
  if (← s.exists? path) && fontSuffixes.contains path.suffix.lowerCase then .ok (some path)
  else
    let base := replaceChar ' ' [] (fontKey name)
    s.faceInFirst base (fontPatterns name) (projectFonts :: dirs ++ systemFonts)

/-- The file to draw text with: a given file that exists, else the file for the name if it can be
loaded. -/
def resolveFont (s : Storage) (name : Value) (file : Option Path) :
    Except Fault (Option Path) := do
  if !name.isHashable then .error (.type (.unhashable name.typeName)) else
  let given ← match file with
    | some f => s.exists? f
    | none => .ok false
  if given then .ok file
  else if !name.isTruthy then .ok none
  else match name with
    | .string n =>
      match ← s.findFont n [] with
      | some face => .ok (if s.lookup face = some .font then some face else none)
      | none => .ok none
    | v => .error (.type (.notPath v.typeName))

end Storage

end Montage
