/-!
# Escaping of filter options

The value of a filter option passes through two readers, one for the options of a filter and one
for the graph of filters. Each has characters of its own that a backslash makes literal, so a value
is escaped for the inner reader first and for the outer one second.

## Main definitions

* `Montage.Escape.level`: one pass; `Montage.Escape.undo`: its inverse.
* `Montage.Escape.value`: both passes on a text; `Montage.Escape.read`: their inverse.
-/

namespace Montage.Escape

/-- The characters with a meaning among the options of one filter. -/
def optionSpecials : List Char := ['\\', '\x27', ':']

/-- The characters with a meaning in a graph of filters. -/
def graphSpecials : List Char := ['\\', '\x27', '[', ']', ',', ';']

/-- A backslash before every special character. -/
def level (specials : List Char) (cs : List Char) : List Char :=
  cs.flatMap fun c => if specials.contains c then ['\\', c] else [c]

/-- The text with every backslash dropped that makes the next character literal. -/
def undo : List Char → List Char
  | [] => []
  | '\\' :: c :: cs => c :: undo cs
  | '\\' :: [] => []
  | c :: cs => c :: undo cs

/-- Line ends of two characters become one line feed. -/
def joinLineEnds : List Char → List Char
  | '\r' :: '\n' :: cs => '\n' :: joinLineEnds cs
  | c :: cs => c :: joinLineEnds cs
  | [] => []

/-- The characters of a value, escaped for both readers. -/
def value (cs : List Char) : List Char :=
  level graphSpecials (level optionSpecials (joinLineEnds cs))

/-- The characters that both readers make of an escaped value. -/
def read (cs : List Char) : List Char := undo (undo cs)

end Montage.Escape
