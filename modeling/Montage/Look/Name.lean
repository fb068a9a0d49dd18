import Montage.Text.Blank
import Montage.Text.Case
import Montage.Value

/-!
# Names of looks

Looks are looked up by names that differ in letter case and in the blanks, hyphens and underscores
between words. The key of a name forgets these differences.

## Main definitions

* `Montage.Look.key`: the key of a name, over characters.
* `Montage.normalizeName`: the key of a value that names a look.
-/

namespace Montage

namespace Look

/-- Every run of blanks becomes one space. A blank is written only where the next character is
none. -/
def collapse : List Char → List Char
  | [] => []
  | [c] => [if Text.isBlank c then ' ' else c]
  | c :: d :: cs =>
    if Text.isBlank c then
      if Text.isBlank d then collapse (d :: cs) else ' ' :: collapse (d :: cs)
    else c :: collapse (d :: cs)

/-- A hyphen or an underscore counts as a space. -/
def spaceOut (c : Char) : Char := if c = '-' || c = '_' then ' ' else c

/-- The key of a name: without blanks around it, in lower case, with single spaces. -/
def key (cs : List Char) : List Char := collapse ((Text.lower (Text.strip cs)).map spaceOut)

end Look

/-- The key of a value that names a look. What says nothing has the empty key. -/
def normalizeName (v : Value) : String :=
  if v.isTruthy then String.ofList (Look.key v.text.toList) else ""

end Montage
