import Montage.Number.Rounding

/-!
# Binary floating point of 64 bits

A number of the format is an exact rational, a negative zero, an infinity or not a number. Every
operation computes with exact rationals and rounds once, to the nearest number of the format, half
to even; a result beyond the range becomes infinite.

## Main definitions

* `Montage.Binary64`: the numbers.
* `Binary64.nearest`: rounding of a rational into the format.
* `Binary64.add`, `mul`, `div`, `mod`: the arithmetic; `mod` takes the sign of the divisor.
* `Binary64.roundPlaces`: the nearest number with so many decimal places.
-/

namespace Montage

/-- A binary floating-point number of 64 bits. A `finite` zero is the positive one. -/
inductive Binary64
  | finite (value : Rat)
  | negZero
  | infinite (negative : Bool)
  | nan
  deriving DecidableEq, Inhabited

namespace Binary64

/-- The exponent of the last binary place that the format keeps of a positive `q`. -/
def quantum (q : Rat) : Int := max (binade q - 52) (-1074)

/-- A zero of the given sign. -/
def zero (negative : Bool) : Binary64 := if negative then negZero else finite 0

/-- The number of the format nearest to `q`. -/
def nearest (q : Rat) : Binary64 :=
  if q = 0 then finite 0
  else
    let unit := power 2 (quantum (magnitude q))
    let v := (roundHalfEven (q / unit) : Rat) * unit
    if power 2 1024 ≤ magnitude v then infinite (q < 0)
    else if v = 0 then zero (q < 0)
    else finite v

instance : OfNat Binary64 n := ⟨finite (n : Rat)⟩

/-- The exact value of a number that is neither infinite nor absent. -/
def toRat? : Binary64 → Option Rat
  | finite v => some v
  | negZero => some 0
  | _ => none

/-- The sign bit. -/
def isNegative : Binary64 → Bool
  | finite v => v < 0
  | negZero => true
  | infinite n => n
  | nan => false

/-- The number is a zero of either sign. -/
def isZero : Binary64 → Bool
  | finite v => v = 0
  | negZero => true
  | _ => false

/-- The number is an integer. -/
def isInteger : Binary64 → Bool
  | finite v => v.den = 1
  | negZero => true
  | _ => false

protected def neg : Binary64 → Binary64
  | finite v => if v = 0 then negZero else finite (-v)
  | negZero => finite 0
  | infinite n => infinite !n
  | nan => nan

protected def add : Binary64 → Binary64 → Binary64
  | nan, _ | _, nan => nan
  | infinite m, infinite n => if m = n then infinite m else nan
  | infinite m, _ | _, infinite m => infinite m
  | negZero, negZero => negZero
  | negZero, y => y
  | x, negZero => x
  | finite v, finite w => nearest (v + w)

protected def sub (x y : Binary64) : Binary64 := x.add y.neg

protected def mul (x y : Binary64) : Binary64 :=
  let negative := x.isNegative != y.isNegative
  match x, y with
  | nan, _ | _, nan => nan
  | infinite _, y => if y.isZero then nan else infinite negative
  | x, infinite _ => if x.isZero then nan else infinite negative
  | negZero, _ | _, negZero => zero negative
  | finite v, finite w => if v * w = 0 then zero negative else nearest (v * w)

protected def div (x y : Binary64) : Binary64 :=
  let negative := x.isNegative != y.isNegative
  match x, y with
  | nan, _ | _, nan => nan
  | infinite _, infinite _ => nan
  | infinite _, _ => infinite negative
  | _, infinite _ => zero negative
  | negZero, y => if y.isZero then nan else zero negative
  | finite v, negZero => if v = 0 then nan else infinite negative
  | finite v, finite w =>
    if w = 0 then (if v = 0 then nan else infinite negative)
    else if v = 0 then zero negative
    else nearest (v / w)

/-- The remainder of floor division by a finite divisor: it lies between zero and the divisor. -/
protected def mod : Binary64 → Rat → Binary64
  | finite v, w =>
    let rest := v - w * (v / w).floor
    if rest = 0 then zero (w < 0) else nearest rest
  | negZero, w => zero (w < 0)
  | _, _ => nan

instance : Neg Binary64 := ⟨Binary64.neg⟩
instance : Add Binary64 := ⟨Binary64.add⟩
instance : Sub Binary64 := ⟨Binary64.sub⟩
instance : Mul Binary64 := ⟨Binary64.mul⟩
instance : Div Binary64 := ⟨Binary64.div⟩

/-- `x < y`, which is false wherever one of them is not a number. -/
def blt : Binary64 → Binary64 → Bool
  | nan, _ | _, nan => false
  | infinite m, infinite n => m && !n
  | infinite m, _ => m
  | _, infinite n => !n
  | finite v, finite w => v < w
  | finite v, negZero => v < 0
  | negZero, finite w => 0 < w
  | negZero, negZero => false

/-- Equality of values: the two zeros are equal, and what is not a number equals nothing. -/
def beq : Binary64 → Binary64 → Bool
  | nan, _ | _, nan => false
  | infinite m, infinite n => m = n
  | infinite _, _ | _, infinite _ => false
  | x, y => x.toRat? = y.toRat?

/-- `x ≤ y`. -/
def ble (x y : Binary64) : Bool := x.blt y || x.beq y

instance : LT Binary64 := ⟨fun x y => x.blt y = true⟩
instance : LE Binary64 := ⟨fun x y => x.ble y = true⟩
instance (x y : Binary64) : Decidable (x < y) := inferInstanceAs (Decidable (_ = true))
instance (x y : Binary64) : Decidable (x ≤ y) := inferInstanceAs (Decidable (_ = true))
instance : BEq Binary64 := ⟨beq⟩

/-- The nearest number with `places` decimal places, half to even on the exact value. The sign of
a zero result is the sign of `x`. -/
def roundPlaces (places : Nat) (x : Binary64) : Binary64 :=
  match x with
  | finite v =>
    let scale : Rat := (Nat.pow 10 places : Rat)
    let n := roundHalfEven (v * scale)
    if n = 0 then zero (v < 0) else nearest ((n : Rat) / scale)
  | x => x

/-- The first unless the second exceeds it. -/
def larger (x y : Binary64) : Binary64 := if x < y then y else x

/-- The first unless the second is below it. -/
def smaller (x y : Binary64) : Binary64 := if y < x then y else x

/-- The integer part of `v`, toward zero. -/
def truncate (v : Rat) : Int := if v < 0 then -(-v).floor else v.floor

end Binary64

end Montage
