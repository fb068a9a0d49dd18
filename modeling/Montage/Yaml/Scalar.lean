import Montage.Number.Numeral
import Montage.Value

/-!
# Plain scalars of YAML

A scalar without quotes is null, a truth value, an integer, a decimal number or a text, by its form
alone. Integers may be binary, octal, hexadecimal or of base sixty; a decimal number has a point,
and a sign in its exponent.

## Main definitions

* `Montage.Yaml.resolve`: the value of a plain scalar.
* `Montage.Yaml.isText`: the plain scalar stands for its own text.
-/

namespace Montage.Yaml

/-- The names of null. -/
def nullNames : List String := ["", "~", "null", "Null", "NULL"]

/-- The names of the truth values. -/
def truthNames : List (String × Bool) :=
  [("yes", true), ("Yes", true), ("YES", true), ("no", false), ("No", false), ("NO", false),
    ("true", true), ("True", true), ("TRUE", true), ("false", false), ("False", false),
    ("FALSE", false), ("on", true), ("On", true), ("ON", true), ("off", false), ("Off", false),
    ("OFF", false)]

/-- The sign at the head of a scalar, and what follows. -/
def signed : List Char → Bool × List Char
  | '-' :: cs => (true, cs)
  | '+' :: cs => (false, cs)
  | cs => (false, cs)

/-- A digit of a base, or an underscore. -/
def isDigitOf (base : Nat) (c : Char) : Bool :=
  c = '_' ||
    if base = 16 then c.isDigit || ('a' ≤ c && c ≤ 'f') || ('A' ≤ c && c ≤ 'F')
    else c.isDigit && c.toNat - 0x30 < base

/-- The value of a digit. -/
def digitOf (c : Char) : Nat :=
  if c.isDigit then c.toNat - 0x30 else if 'a' ≤ c then c.toNat - 0x57 else c.toNat - 0x37

/-- The characters without underscores. -/
def bare (cs : List Char) : List Char := cs.filter (· ≠ '_')

/-- The number that digits of a base write. -/
def ofDigits (base : Nat) (cs : List Char) : Nat :=
  (bare cs).foldl (fun n c => base * n + digitOf c) 0

/-- One digit and then digits or underscores. -/
def isDigits (cs : List Char) : Bool := cs.head?.any Char.isDigit && cs.all (isDigitOf 10)

/-- A number below sixty with one or two digits. -/
def isSixtieth (cs : List Char) : Bool :=
  match cs with
  | [c] => c.isDigit
  | [c, d] => c.isDigit && d.isDigit && c < '6'
  | _ => false

/-- The parts between colons. -/
def colonParts : List Char → List (List Char)
  | [] => [[]]
  | c :: cs =>
    match colonParts cs with
    | [] => [[c]]
    | w :: ws => if c = ':' then [] :: w :: ws else (c :: w) :: ws

/-- The number that parts of base sixty write. -/
def ofSixtieths (parts : List (List Char)) : Nat :=
  parts.foldl (fun n p => 60 * n + ofDigits 10 p) 0

/-- The natural number that an unsigned scalar writes. -/
def natural? (cs : List Char) : Option Nat :=
  match cs with
  | '0' :: 'b' :: ds => if !ds.isEmpty && ds.all (isDigitOf 2) then some (ofDigits 2 ds) else none
  | '0' :: 'x' :: ds => if !ds.isEmpty && ds.all (isDigitOf 16) then some (ofDigits 16 ds) else none
  | ['0'] => some 0
  | '0' :: ds => if ds.all (isDigitOf 8) then some (ofDigits 8 ds) else none
  | ds =>
    match colonParts ds with
    | [whole] => if isDigits whole then some (ofDigits 10 whole) else none
    | whole :: parts =>
      if isDigits whole && parts.all isSixtieth then some (ofSixtieths (whole :: parts)) else none
    | [] => none

/-- The integer that a scalar writes. -/
def integer? (cs : List Char) : Option Int :=
  let (negative, ds) := signed cs
  (natural? ds).map fun n => if negative then -(n : Int) else n

/-- An exponent with a sign, or nothing. -/
def isExponent : List Char → Bool
  | [] => true
  | e :: s :: ds =>
    (e = 'e' || e = 'E') && (s = '-' || s = '+') && !ds.isEmpty && ds.all Char.isDigit
  | _ => false

/-- The part of a scalar from its exponent on. -/
def fromExponent (cs : List Char) : List Char := cs.dropWhile fun c => isDigitOf 10 c

/-- A scalar before and after its first point. -/
def atPoint (cs : List Char) : List Char × List Char :=
  (cs.takeWhile (· ≠ '.'), (cs.dropWhile (· ≠ '.')).drop 1)

/-- The number that the plain decimal form writes. -/
def decimalValue (negative : Bool) (cs : List Char) : Binary64 :=
  let x := (Numeral.real? (String.ofList (bare cs))).getD 0
  if negative then -x else x

/-- The number of base sixty with a fraction that parts write. -/
def sixtiethsValue (negative : Bool) (parts : List (List Char)) : Binary64 :=
  let whole := ofSixtieths parts.dropLast * 60
  let last := (Numeral.real? (String.ofList (bare (parts.getLast?.getD [])))).getD 0
  let x := last + .nearest whole
  if negative then -x else x

/-- The decimal number that a scalar writes. -/
def decimal? (cs : List Char) : Option Binary64 :=
  let (negative, ds) := signed cs
  let word := String.ofList ds
  let unsigned := ds.length = cs.length
  if [".inf", ".Inf", ".INF"].contains word then some (.infinite negative)
  else if unsigned && [".nan", ".NaN", ".NAN"].contains word then some .nan
  else if !ds.contains '.' then none
  else
    let (whole, rest) := atPoint ds
    match colonParts whole with
    | [[]] =>
      if unsigned && rest.head?.any Char.isDigit && isExponent (fromExponent rest) then
        some (decimalValue negative ds)
      else none
    | [w] =>
      if isDigits w && isExponent (fromExponent rest) then some (decimalValue negative ds) else none
    | w :: ws =>
      if isDigits w && ws.all isSixtieth && rest.all (isDigitOf 10) then
        some (sixtiethsValue negative (colonParts ds))
      else none
    | [] => none

/-- The value of a plain scalar. -/
def resolve (s : String) : Value :=
  if nullNames.contains s then .null
  else
    match truthNames.lookup s, integer? s.toList, decimal? s.toList with
    | some b, _, _ => .bool b
    | none, some n, _ => .int n
    | none, none, some x => .real x
    | none, none, none => .string s

/-- A date in the form of year, month and day. -/
def isDate (cs : List Char) : Bool :=
  match cs with
  | [a, b, c, d, '-', e, f, '-', g, h] => [a, b, c, d, e, f, g, h].all Char.isDigit
  | _ => false

/-- The plain scalar stands for its own text. -/
def isText (s : String) : Bool :=
  match resolve s with
  | .string _ => !isDate s.toList && s ≠ "=" && s ≠ "<<"
  | _ => false

end Montage.Yaml
