import Montage.Number.Binary64

/-!
# The shortest decimal that reads back

A number of the binary format stands for the interval of rationals that round to it. Among the
decimals in that interval those with the fewest digits are the shortest, and the nearest of these
is taken.

## Main definitions

* `Montage.Decimal`: digits and an exponent of ten.
* `Decimal.shortest`: the shortest decimal that rounds to a positive number of the format.
-/

namespace Montage

/-- The decimal number `digits * 10 ^ exponent`. -/
structure Decimal where
  digits : Nat
  exponent : Int
  deriving DecidableEq, Inhabited

namespace Decimal

/-- The value of a decimal. -/
def toRat (d : Decimal) : Rat := (d.digits : Rat) * power 10 d.exponent

/-- Take up to `fuel` zeros off the end of the digits. -/
def trimFor : Nat → Decimal → Decimal
  | 0, d => d
  | fuel + 1, d =>
    if d.digits % 10 = 0 then trimFor fuel ⟨d.digits / 10, d.exponent + 1⟩ else d

/-- The same number without zeros at the end of its digits. -/
def trim (d : Decimal) : Decimal :=
  if d.digits = 0 then ⟨0, 0⟩ else trimFor (decimalLength d.digits) d

/-- `q` rounds to `v`: it lies within half a unit of the last place, the ends included for an even
last place. Below a power of two the unit is half as large. -/
def roundsTo (v q : Rat) : Bool :=
  let unit := power 2 (Binary64.quantum v)
  let place := (v / unit).floor
  let above := v + unit / 2
  let below :=
    if place = Int.pow 2 52 && Binary64.quantum v != -1074 then v - unit / 4 else v - unit / 2
  if place % 2 = 0 then below ≤ q && q ≤ above else below < q && q < above

/-- The nearest of the decimals of exponent `k` beside `v` that round to `v`. -/
def neighbour? (v : Rat) (k : Int) : Option Nat :=
  let scaled := v / power 10 k
  let low := scaled.floor.toNat
  let fits (n : Nat) : Bool := roundsTo v (toRat ⟨n, k⟩)
  let near := (roundHalfEven scaled).toNat
  if fits near then some near
  else if fits low then some low
  else if fits (low + 1) then some (low + 1)
  else none

/-- The first hit with `count` digits or more; `fuel` more counts are tried. -/
def search (v : Rat) (top : Int) : Nat → Nat → Decimal
  | 0, count => ⟨(roundHalfEven (v / power 10 (top - count + 1))).toNat, top - count + 1⟩
  | fuel + 1, count =>
    let k := top - count + 1
    match neighbour? v k with
    | some n => ⟨n, k⟩
    | none => search v top fuel (count + 1)

/-- The shortest decimal that rounds to the positive number `v` of the binary format. Seventeen
digits always suffice. -/
def shortest (v : Rat) : Decimal := (search v (decade v) 16 1).trim

end Decimal

end Montage
