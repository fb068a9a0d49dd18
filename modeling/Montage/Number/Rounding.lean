/-!
# Rounding of rational numbers

Exact rationals are brought to a grid by rounding half to even. Powers of two and of ten measure the
grid: `binade` and `decade` find the greatest power that a positive rational reaches.

## Main definitions

* `Montage.roundHalfEven`: the nearest integer, the even one of two.
* `Montage.power`: a power with an integer exponent.
* `Montage.binade`, `Montage.decade`: the exponent of the leading binary and decimal digit.
-/

namespace Montage

/-- The integer nearest to `q`; of two that are equally near, the even one. -/
def roundHalfEven (q : Rat) : Int :=
  let below := q.floor
  let rest := q - below
  if rest < 1 / 2 then below
  else if 1 / 2 < rest then below + 1
  else if below % 2 = 0 then below
  else below + 1

/-- `base` to the power `k`. -/
def power (base : Nat) (k : Int) : Rat :=
  if 0 ≤ k then (base.pow k.toNat : Rat) else mkRat 1 (base.pow (-k).toNat)

/-- The greatest `k` with `2 ^ k ≤ q`, for positive `q`. -/
def binade (q : Rat) : Int :=
  let guess : Int := (Nat.log2 q.num.natAbs : Int) - Nat.log2 q.den
  if power 2 guess ≤ q then guess else guess - 1

/-- How many decimal digits write `n`. -/
def decimalLength (n : Nat) : Nat := (Nat.toDigits 10 n).length

/-- The greatest `k` with `10 ^ k ≤ q`, for positive `q`. -/
def decade (q : Rat) : Int :=
  let guess : Int := (decimalLength q.num.natAbs : Int) - decimalLength q.den
  if power 10 guess ≤ q then guess else guess - 1

/-- `q` without its sign. -/
def magnitude (q : Rat) : Rat := if q < 0 then -q else q

end Montage
