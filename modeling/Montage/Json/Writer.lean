import Montage.Text.Quoted
import Montage.Value

/-!
# Writing JSON

Values are written in ASCII, either on one line or with every item and field on a line of its own,
indented by two spaces for each level.

## Main definitions

* `Montage.Json.line`: a value on one line.
* `Montage.Json.pages`: a value over several lines.
-/

namespace Montage.Json

/-- The escape of a code of at most sixteen bits. -/
def escape16 (n : Nat) : List Char := '\\' :: 'u' :: Text.hexDigits 4 n

/-- The spelling of one character in a string. -/
def stringChar (c : Char) : List Char :=
  if c = '\x22' then ['\\', '\x22']
  else if c = '\\' then ['\\', '\\']
  else if c = '\n' then ['\\', 'n']
  else if c = '\r' then ['\\', 'r']
  else if c = '\t' then ['\\', 't']
  else if c = '\x0c' then ['\\', 'f']
  else if c = '\x08' then ['\\', 'b']
  else if 0x20 ≤ c.toNat ∧ c.toNat < 0x7F then [c]
  else if c.toNat < 0x10000 then escape16 c.toNat
  else
    escape16 (0xD800 + (c.toNat - 0x10000) / 0x400) ++
      escape16 (0xDC00 + (c.toNat - 0x10000) % 0x400)

/-- A string between quotation marks. -/
def stringText (s : String) : String :=
  String.ofList ('\x22' :: s.toList.flatMap stringChar ++ ['\x22'])

/-- A number; the special ones are written by name. -/
def numberText : Number → String
  | .real .nan => "NaN"
  | .real (.infinite negative) => if negative then "-Infinity" else "Infinity"
  | n => n.text

/-- What is written between the parts of a container. -/
structure Layout where
  /-- After the opening bracket, and before the closing one, at a depth. -/
  margin : Nat → String
  /-- Between two parts at a depth. -/
  gap : Nat → String

/-- Everything on one line. -/
def Layout.oneLine : Layout := ⟨fun _ => "", fun _ => ", "⟩

/-- A line break and the blanks in front of a line at a depth. -/
def indent (depth : Nat) : String := String.ofList ('\n' :: List.replicate (2 * depth) ' ')

/-- Every part on a line of its own. -/
def Layout.indented : Layout := ⟨indent, fun depth => "," ++ indent depth⟩

/-- Parts between brackets. -/
def enclosed (l : Layout) (depth : Nat) (opening closing : String) (parts : List String) :
    String :=
  if parts.isEmpty then opening ++ closing
  else
    opening ++ l.margin (depth + 1) ++ (l.gap (depth + 1)).intercalate parts ++ l.margin depth ++
      closing

mutual

/-- A value at a depth. -/
def write (l : Layout) (depth : Nat) : Value → String
  | .null => "null"
  | .bool b => if b then "true" else "false"
  | .number n => numberText n
  | .string s => stringText s
  | .list items => enclosed l depth "[" "]" (writeItems l (depth + 1) items)
  | .object fields => enclosed l depth "\x7b" "\x7d" (writeFields l (depth + 1) fields)

/-- The items of a list. -/
def writeItems (l : Layout) (depth : Nat) : List Value → List String
  | [] => []
  | v :: vs => write l depth v :: writeItems l depth vs

/-- The fields of an object. -/
def writeFields (l : Layout) (depth : Nat) : List (String × Value) → List String
  | [] => []
  | (k, v) :: fs => (stringText k ++ ": " ++ write l depth v) :: writeFields l depth fs

end

/-- A value on one line. -/
def line (v : Value) : String := write .oneLine 0 v

/-- A value over several lines. -/
def pages (v : Value) : String := write .indented 0 v

end Montage.Json
