import Montage.Fault

/-!
# Numbers

A number is an integer of any size or a binary floating-point number. The two print differently even
where they are equal, so the distinction is kept. Comparison is exact; arithmetic on two integers is
exact, and any other takes place in the binary format.

## Main definitions

* `Montage.Number`: the numbers.
* `Number.toReal?`: the nearest binary number, unless an integer is beyond its range.
* `Number.text`, `Number.general`: the plain and the general form.
-/

namespace Montage

/-- An integer or a binary floating-point number. -/
inductive Number
  | int (n : Int)
  | real (x : Binary64)
  deriving DecidableEq, Inhabited

namespace Number

instance : OfNat Number n := ⟨int n⟩

/-- The plain form. -/
def text : Number → String
  | int n => intText n
  | real x => x.text

/-- The exact value, for comparison. -/
def exact : Number → Binary64
  | int n => .finite n
  | real x => x

/-- The nearest binary number, infinite beyond the range. -/
def toReal : Number → Binary64
  | int n => .nearest n
  | real x => x

/-- An integer to which no finite binary number is nearest. -/
def beyondReal : Number → Bool
  | int n => match Binary64.nearest n with
    | .infinite _ => true
    | _ => false
  | real _ => false

/-- The nearest binary number, or a fault where an integer is beyond the range. -/
def toReal? (n : Number) : Except Fault Binary64 :=
  if n.beyondReal then .error (.range .integerBeyondReal) else .ok n.toReal

/-- The value is an integer, whichever of the two forms it has. -/
def isZero (n : Number) : Bool := n.exact.isZero

instance : LT Number := ⟨fun x y => x.exact < y.exact⟩
instance : LE Number := ⟨fun x y => x.exact ≤ y.exact⟩
instance (x y : Number) : Decidable (x < y) := inferInstanceAs (Decidable (x.exact < y.exact))
instance (x y : Number) : Decidable (x ≤ y) := inferInstanceAs (Decidable (x.exact ≤ y.exact))
instance : BEq Number := ⟨fun x y => x.exact == y.exact⟩

protected def add : Number → Number → Number
  | int m, int n => int (m + n)
  | x, y => real (x.toReal + y.toReal)

protected def sub : Number → Number → Number
  | int m, int n => int (m - n)
  | x, y => real (x.toReal - y.toReal)

protected def mul : Number → Number → Number
  | int m, int n => int (m * n)
  | x, y => real (x.toReal * y.toReal)

instance : Add Number := ⟨Number.add⟩
instance : Sub Number := ⟨Number.sub⟩
instance : Mul Number := ⟨Number.mul⟩

/-- The general form with six significant digits, or a fault where an integer is beyond the binary
range. -/
def general (n : Number) : Except Fault String := n.toReal?.map Binary64.general

end Number

/-- The integer part of a binary number. -/
def Binary64.toInt : Binary64 → Except Fault Int
  | .finite v => .ok (Binary64.truncate v)
  | .negZero => .ok 0
  | .infinite _ => .error (.range .integerOfInfinity)
  | .nan => .error (.value .integerOfNan)

/-- The integer nearest to a binary number, half to even. -/
def Binary64.round : Binary64 → Except Fault Int
  | .finite v => .ok (roundHalfEven v)
  | .negZero => .ok 0
  | .infinite _ => .error (.range .integerOfInfinity)
  | .nan => .error (.value .integerOfNan)

/-- The integer part of a number. -/
def Number.toInt : Number → Except Fault Int
  | int n => .ok n
  | real x => x.toInt

/-- The integer nearest to a number, half to even. -/
def Number.round : Number → Except Fault Int
  | int n => .ok n
  | real x => x.round

end Montage
