import Montage.Fault
import Montage.Text.Blank
import Montage.Text.Digit

/-!
# Reading numerals

Integers and decimal numbers are read from texts. Blanks around the numeral are ignored, digits of
any script count, and a single underscore may stand between two digits. A decimal number is rounded
once, to the nearest number of the binary format.

## Main definitions

* `Montage.Numeral.integer`: the integer that a text writes.
* `Montage.Numeral.real`: the binary number nearest to the decimal that a text writes.
-/

namespace Montage.Numeral

open Text

/-- The blanks around a numeral: all but the separator controls. -/
def isMargin (c : Char) : Bool := isBlank c && !(0x1C ≤ c.toNat && c.toNat ≤ 0x1F)

/-- The text without the blanks around it. -/
def trim (cs : List Char) : List Char :=
  (((cs.dropWhile isMargin).reverse).dropWhile isMargin).reverse

/-- Digits at the head of a text, single underscores between them left out, and what follows. An
underscore counts only `after` a digit and before another one. -/
def digitRun (after : Bool) : List Char → List Nat × List Char
  | [] => ([], [])
  | c :: cs =>
    match digitValue? c with
    | some d =>
      let (ds, rest) := digitRun true cs
      (d :: ds, rest)
    | none =>
      if c = '_' && after && cs.head?.any isDecimalDigit then digitRun false cs else ([], c :: cs)

/-- The run of digits at the head of a text, and what follows. -/
def digits (cs : List Char) : List Nat × List Char := digitRun false cs

/-- The number that digits write, the leading one first. -/
def ofDigits (ds : List Nat) : Nat := ds.foldl (fun n d => 10 * n + d) 0

/-- The sign at the head of a text and what follows; no sign counts as plus. -/
def sign : List Char → Bool × List Char
  | '-' :: cs => (true, cs)
  | '+' :: cs => (false, cs)
  | cs => (false, cs)

/-- The longest numeral that is read as an integer. -/
def maxDigits : Nat := 4300

/-- The integer that `s` writes. -/
def integer (s : String) : Except Fault Int :=
  let (negative, cs) := sign (trim s.toList)
  let (ds, rest) := digits cs
  if ds.isEmpty || rest.head? = some '_' then .error (.value (.notInteger s))
  else if maxDigits < ds.length then .error (.value (.tooManyDigits ds.length))
  else if !rest.isEmpty then .error (.value (.notInteger s))
  else .ok (if negative then -(ofDigits ds : Int) else ofDigits ds)

/-- The binary number nearest to `digits * 10 ^ exponent`. Exponents that leave the range whatever
the digits are do not have to be computed with. -/
def nearestDecimal (digits : Nat) (exponent : Int) : Binary64 :=
  if digits = 0 then .finite 0
  else
    let lead := exponent + decimalLength digits
    if 400 < lead then .infinite false
    else if lead < -400 then .finite 0
    else .nearest ((digits : Rat) * power 10 exponent)

/-- The exponent at the head of a text: a letter e, a sign and digits. Without digits nothing is
taken. -/
def exponent : List Char → Int × List Char
  | c :: cs =>
    if c = 'e' || c = 'E' then
      let (negative, cs') := sign cs
      let (ds, rest) := digits cs'
      if ds.isEmpty then (0, c :: cs)
      else (if negative then -(ofDigits ds : Int) else ofDigits ds, rest)
    else (0, c :: cs)
  | [] => (0, [])

/-- The unsigned decimal number at the head of a text, and what follows. -/
def decimal (cs : List Char) : Option (Binary64 × List Char) :=
  let (whole, rest) := digits cs
  let (part, rest) := match rest with
    | '.' :: r => digits r
    | _ => ([], rest)
  if whole.isEmpty && part.isEmpty then none
  else
    let (e, rest) := exponent rest
    some (nearestDecimal (ofDigits (whole ++ part)) (e - part.length), rest)

/-- The unsigned number that a whole text writes, the names of the special values included. -/
def unsigned? (cs : List Char) : Option Binary64 :=
  let word := String.ofList (cs.map Char.toLower)
  if word = "inf" || word = "infinity" then some (.infinite false)
  else if word = "nan" then some .nan
  else match decimal cs with
    | some (x, []) => some x
    | _ => none

/-- The binary number nearest to the one that `s` writes. -/
def real? (s : String) : Option Binary64 :=
  let (negative, cs) := sign (trim s.toList)
  (unsigned? cs).map fun x => if negative then -x else x

/-- The binary number nearest to the one that `s` writes, or the fault that it writes none. -/
def real (s : String) : Except Fault Binary64 :=
  match real? s with
  | some x => .ok x
  | none => .error (.value (.notReal s))

end Montage.Numeral
