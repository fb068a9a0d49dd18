/-!
# Search in texts

A text occurs in another one if it begins one of the other's tails.

## Main definitions

* `Montage.Text.tails`: a text and all its tails.
* `Montage.Text.occurs`: a text occurs in another one; `Montage.occursIn` is the same on strings.
-/

namespace Montage.Text

/-- A text and all its tails. -/
def tails : List Char → List (List Char)
  | [] => [[]]
  | c :: cs => (c :: cs) :: tails cs

theorem mem_tails {t cs : List Char} : t ∈ tails cs ↔ t <:+ cs := by
  induction cs with
  | nil => simp [tails]
  | cons c cs ih => simp [tails, ih, List.suffix_cons_iff]

/-- The text `part` occurs in the text `whole`. -/
def occurs (part whole : List Char) : Bool := (tails whole).any fun t => part.isPrefixOf t

theorem occurs_iff_infix {part whole : List Char} : occurs part whole = true ↔ part <:+: whole := by
  simp [occurs, mem_tails, List.infix_iff_prefix_suffix, and_comm]

end Montage.Text

/-- The text `part` occurs in the text `whole`. -/
def Montage.occursIn (part whole : String) : Bool := Montage.Text.occurs part.toList whole.toList
