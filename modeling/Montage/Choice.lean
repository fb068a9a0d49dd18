import Montage.Text.Blank
import Montage.Text.Case
import Montage.Value

/-!
# Names of choices

Places, sizes and styles are chosen by name, whatever the letter case, with blanks around the name
and with spaces or underscores where the name has hyphens.

## Main definitions

* `Montage.choiceKey`: the name that a text chooses.
* `Value.choiceKey`: the name that a value chooses; what says nothing chooses the empty name.
-/

namespace Montage

/-- A text in lower case, without blanks around it, with hyphens for underscores and spaces. -/
def choiceKey (s : String) : String :=
  String.ofList (s.strip.lowerCase.toList.map fun c => if c = '_' || c = ' ' then '-' else c)

/-- The name that a value chooses. -/
def Value.choiceKey (v : Value) : String := if v.isTruthy then Montage.choiceKey v.text else ""

/-- The first of two values, if it says something. -/
def Value.orElse (v w : Value) : Value := if v.isTruthy then v else w

end Montage
