import Montage.Text.RangeTable

/-!
# Blank characters

The white space of Unicode as text trimming sees it: the ASCII controls from tab to carriage
return and from file separator to unit separator, the space, and the spaces and line ends above.
Trimming and collapsing of blanks use this one class.

## Main definitions

* `Montage.Text.isBlank`: the class.
* `Montage.Text.strip`: a text without its leading and trailing blanks.
-/

namespace Montage.Text

/-- The blank characters, as inclusive ranges of code points. -/
def blanks : RangeTable :=
  [(0x9, 0xD), (0x1C, 0x20), (0x85, 0x85), (0xA0, 0xA0), (0x1680, 0x1680), (0x2000, 0x200A),
    (0x2028, 0x2029), (0x202F, 0x202F), (0x205F, 0x205F), (0x3000, 0x3000)]

/-- A blank character. -/
def isBlank (c : Char) : Bool := blanks.contains c

/-- The characters from the first that is not blank on. -/
def stripLeft (cs : List Char) : List Char := cs.dropWhile isBlank

/-- The characters up to the last that is not blank. -/
def stripRight (cs : List Char) : List Char := (stripLeft cs.reverse).reverse

/-- The text without leading and trailing blanks. -/
def strip (cs : List Char) : List Char := stripRight (stripLeft cs)

theorem stripLeft_of_not_blank {c : Char} {cs : List Char} (h : isBlank c = false) :
    stripLeft (c :: cs) = c :: cs := by simp [stripLeft, h]

@[simp] theorem strip_nil : strip [] = [] := rfl

end Montage.Text

/-- The text without leading and trailing blanks. -/
def String.strip (s : String) : String := String.ofList (Montage.Text.strip s.toList)

/-- The text has no character but blanks. -/
def String.isBlank (s : String) : Bool := s.toList.all Montage.Text.isBlank
