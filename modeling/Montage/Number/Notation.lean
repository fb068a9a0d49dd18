import Montage.Number.Shortest

/-!
# Written forms of numbers

Three layouts: the plain text of a number, which reads back to it; the general form, with six
significant digits and no zeros at the end; and the fixed form, with a set number of decimal places.
Plain and general text change from positional to scientific notation by the exponent of the leading
digit.

## Main definitions

* `Binary64.text`: the shortest digits, positional from 1e-4 up to below 1e16, an integer with `.0`.
* `Binary64.general`: six significant digits, positional from 1e-4 up to below 1e6.
* `Binary64.fixed`: a fixed number of decimal places.
-/

namespace Montage

/-- `s` filled up with `c` on the left to `width` characters. -/
def padLeft (width : Nat) (c : Char) (s : String) : String :=
  String.ofList (List.replicate (width - s.length) c) ++ s

/-- The decimal digits of a natural number. -/
def digitText (n : Nat) : String := String.ofList (Nat.toDigits 10 n)

/-- The decimal digits of an integer, with its sign if it is negative. -/
def intText (n : Int) : String :=
  if n < 0 then "-" ++ digitText n.natAbs else digitText n.natAbs

namespace Decimal

/-- The exponent of the leading digit. -/
def lead (d : Decimal) : Int := d.exponent + decimalLength d.digits - 1

/-- The digits with a point in place; `whole` is what follows an integer. -/
def positional (d : Decimal) (whole : String) : String :=
  let ds := Nat.toDigits 10 d.digits
  if 0 ≤ d.exponent then
    String.ofList (ds ++ List.replicate d.exponent.toNat '0') ++ whole
  else
    let places := (-d.exponent).toNat
    let padded := List.replicate (places + 1 - ds.length) '0' ++ ds
    String.ofList (padded.take (padded.length - places)) ++ "." ++
      String.ofList (padded.drop (padded.length - places))

/-- One digit, the others after a point, and the exponent with sign and at least two digits. -/
def scientific (d : Decimal) : String :=
  let ds := Nat.toDigits 10 d.digits
  let rest := if ds.length = 1 then "" else "." ++ String.ofList (ds.drop 1)
  let sign := if d.lead < 0 then "-" else "+"
  String.ofList (ds.take 1) ++ rest ++ "e" ++ sign ++ padLeft 2 '0' (digitText d.lead.natAbs)

end Decimal

namespace Binary64

/-- The shortest text that reads back. -/
def text : Binary64 → String
  | nan => "nan"
  | infinite negative => if negative then "-inf" else "inf"
  | negZero => "-0.0"
  | finite v =>
    if v = 0 then "0.0"
    else
      let d := Decimal.shortest (magnitude v)
      let body := if d.lead < -4 || 16 ≤ d.lead then d.scientific else d.positional ".0"
      if v < 0 then "-" ++ body else body

/-- Six significant digits of a positive number. -/
def significant (v : Rat) : Decimal :=
  let top := decade v
  Decimal.trim ⟨(roundHalfEven (v / power 10 (top - 5))).toNat, top - 5⟩

/-- Six significant digits without zeros at the end. -/
def general : Binary64 → String
  | nan => "nan"
  | infinite negative => if negative then "-inf" else "inf"
  | negZero => "-0"
  | finite v =>
    if v = 0 then "0"
    else
      let d := significant (magnitude v)
      let body := if d.lead < -4 || 6 ≤ d.lead then d.scientific else d.positional ""
      if v < 0 then "-" ++ body else body

/-- Exactly `places` digits after the point. -/
def fixed (places : Nat) (x : Binary64) : String :=
  match x with
  | nan => "nan"
  | infinite negative => if negative then "-inf" else "inf"
  | x =>
    let v := magnitude (x.toRat?.getD 0)
    let n := (roundHalfEven (v * (Nat.pow 10 places : Rat))).toNat
    let body :=
      if places = 0 then digitText n else Decimal.positional ⟨n, -(places : Int)⟩ ""
    if x.isNegative then "-" ++ body else body

end Binary64

end Montage
