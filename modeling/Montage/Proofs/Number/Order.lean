import Mathlib.Algebra.Order.Field.Rat
import Mathlib.Order.WithBot
import Montage.Number.Basic

/-!
# The order of numbers

Numbers are compared by their exact values. Each number but the one that is none has a place on the
line of the rationals with both infinities, and a comparison of two numbers is the comparison of
their places. Integers and binary numbers with one value share a place, and so do the two zeros.

## Main definitions

* `Binary64.place`, `Number.place`: where a number lies.
* `Number.IsOrdered`: the number has a place of its own.
* `Number.value`, `Number.IsFinite`: the exact value, and the numbers that have one.

## Main statements

* `Number.lt_iff`, `Number.le_iff`, `Number.beq_iff`: comparisons are comparisons of places.
-/
namespace Montage

/-- The rationals with both infinities. -/
abbrev Line := WithBot (WithTop ℚ)

namespace Binary64

/-- Where a binary number lies. What is not a number is put at zero. -/
def place : Binary64 → Line
  | finite v => ((v : WithTop ℚ) : Line)
  | infinite true => ⊥
  | infinite false => ⊤
  | negZero | nan => 0

theorem place_of_isZero {x : Binary64} (h : x.isZero = true) : x.place = 0 := by
  cases x with
  | finite v => rw [of_decide_eq_true h, place, WithTop.coe_zero, WithBot.coe_zero]
  | negZero => rfl
  | infinite _ => cases h
  | nan => rfl

private theorem coe_lt_top (v : ℚ) : ((v : WithTop ℚ) : Line) < ⊤ :=
  WithBot.coe_lt_coe.mpr (WithTop.coe_lt_top v)

variable {x y : Binary64}

theorem lt_iff (hx : x ≠ nan) (hy : y ≠ nan) : x < y ↔ x.place < y.place := by
  change x.blt y = true ↔ _
  match x, y with
  | nan, _ => exact absurd rfl hx
  | _, nan => exact absurd rfl hy
  | infinite true, infinite true | infinite false, infinite false | infinite false, infinite true
  | infinite true, infinite false | infinite true, finite _ | infinite true, negZero
  | infinite false, finite _ | infinite false, negZero | finite _, infinite true
  | negZero, infinite true | finite _, finite _ | finite _, negZero | negZero, finite _
  | negZero, negZero => simp [blt, place]
  | finite v, infinite false => simp [blt, place, coe_lt_top v]
  | negZero, infinite false => simpa [blt, place] using coe_lt_top 0

theorem beq_iff (hx : x ≠ nan) (hy : y ≠ nan) : (x == y) = true ↔ x.place = y.place := by
  change x.beq y = true ↔ _
  match x, y with
  | nan, _ => exact absurd rfl hx
  | _, nan => exact absurd rfl hy
  | infinite true, infinite true | infinite false, infinite false | infinite false, infinite true
  | infinite true, infinite false | infinite true, finite _ | infinite true, negZero
  | finite _, infinite true | negZero, infinite true | finite _, finite _ | negZero, negZero
  | finite _, negZero => simp [beq, place, toRat?]
  | negZero, finite v => simp [beq, place, toRat?, eq_comm]
  | finite v, infinite false => simp [beq, place, (coe_lt_top v).ne]
  | infinite false, finite v => simp [beq, place, (coe_lt_top v).ne']
  | negZero, infinite false => simpa [beq, place] using (coe_lt_top 0).ne
  | infinite false, negZero => simpa [beq, place] using (coe_lt_top 0).ne'

theorem le_iff (hx : x ≠ nan) (hy : y ≠ nan) : x ≤ y ↔ x.place ≤ y.place := by
  change (x.blt y || x.beq y) = true ↔ _
  rw [Bool.or_eq_true, le_iff_lt_or_eq]
  exact or_congr (lt_iff hx hy) (beq_iff hx hy)

theorem ne_nan_of_le (h : x ≤ y) : x ≠ nan ∧ y ≠ nan := by
  refine ⟨fun hx => ?_, fun hy => ?_⟩
  · subst hx
    cases y <;> cases h
  · subst hy
    cases x <;> cases h

theorem ne_nan_of_lt (h : x < y) : x ≠ nan ∧ y ≠ nan :=
  ne_nan_of_le (Bool.or_eq_true_iff.mpr (.inl h))

theorem place_le_of_le (h : x ≤ y) : x.place ≤ y.place :=
  (le_iff (ne_nan_of_le h).1 (ne_nan_of_le h).2).mp h

theorem place_lt_of_lt (h : x < y) : x.place < y.place :=
  (lt_iff (ne_nan_of_lt h).1 (ne_nan_of_lt h).2).mp h

end Binary64

namespace Number

/-- Where a number lies. -/
def place (n : Number) : Line := n.exact.place

/-- The number can be compared: it is an integer, or a binary number and not none. -/
def IsOrdered (n : Number) : Prop := n.exact ≠ .nan

instance (n : Number) : Decidable n.IsOrdered := inferInstanceAs (Decidable (_ ≠ _))

/-- The exact value of a number, zero where there is none. -/
def value (n : Number) : ℚ := n.exact.toRat?.getD 0

/-- The number has an exact value. -/
def IsFinite (n : Number) : Prop := n.exact.toRat?.isSome

instance (n : Number) : Decidable n.IsFinite := inferInstanceAs (Decidable (_ = true))

variable {m n : Number}

theorem isOrdered_int (k : Int) : (int k).IsOrdered := by simp [IsOrdered, exact]

theorem toReal_of_not_isOrdered (h : ¬n.IsOrdered) : n.toReal = .nan := by
  cases n with
  | int k => exact absurd (isOrdered_int k) h
  | real x => exact not_not.mp h

theorem lt_iff (hm : m.IsOrdered) (hn : n.IsOrdered) : m < n ↔ m.place < n.place :=
  Binary64.lt_iff hm hn

theorem le_iff (hm : m.IsOrdered) (hn : n.IsOrdered) : m ≤ n ↔ m.place ≤ n.place :=
  Binary64.le_iff hm hn

theorem beq_iff (hm : m.IsOrdered) (hn : n.IsOrdered) : (m == n) = true ↔ m.place = n.place :=
  Binary64.beq_iff hm hn

theorem not_lt_iff (hm : m.IsOrdered) (hn : n.IsOrdered) : ¬m < n ↔ n ≤ m := by
  rw [lt_iff hm hn, le_iff hn hm, not_lt]

theorem not_le_iff (hm : m.IsOrdered) (hn : n.IsOrdered) : ¬m ≤ n ↔ n < m := by
  rw [le_iff hm hn, lt_iff hn hm, not_le]

theorem place_eq_value (h : n.IsFinite) : n.place = ((n.value : WithTop ℚ) : Line) := by
  rw [IsFinite] at h
  rw [place, value]
  cases hx : n.exact <;> simp [hx, Binary64.toRat?] at h <;> rfl

theorem place_lt_iff (hm : m.IsFinite) (hn : n.IsFinite) :
    m.place < n.place ↔ m.value < n.value := by
  rw [place_eq_value hm, place_eq_value hn, WithBot.coe_lt_coe, WithTop.coe_lt_coe]

theorem place_le_iff (hm : m.IsFinite) (hn : n.IsFinite) :
    m.place ≤ n.place ↔ m.value ≤ n.value := by
  rw [place_eq_value hm, place_eq_value hn, WithBot.coe_le_coe, WithTop.coe_le_coe]

theorem place_eq_zero_iff (h : n.IsFinite) : n.place = 0 ↔ n.value = 0 := by
  rw [place_eq_value h]
  exact WithBot.coe_eq_zero.trans WithTop.coe_eq_zero

theorem IsFinite.isOrdered (h : n.IsFinite) : n.IsOrdered := by
  intro hnan
  rw [IsFinite, hnan] at h
  cases h

theorem lt_iff_value (hm : m.IsFinite) (hn : n.IsFinite) : m < n ↔ m.value < n.value :=
  (lt_iff hm.isOrdered hn.isOrdered).trans (place_lt_iff hm hn)

theorem le_iff_value (hm : m.IsFinite) (hn : n.IsFinite) : m ≤ n ↔ m.value ≤ n.value :=
  (le_iff hm.isOrdered hn.isOrdered).trans (place_le_iff hm hn)

theorem beq_iff_value (hm : m.IsFinite) (hn : n.IsFinite) :
    (m == n) = true ↔ m.value = n.value := by
  rw [beq_iff hm.isOrdered hn.isOrdered, place_eq_value hm, place_eq_value hn, WithBot.coe_inj,
    WithTop.coe_inj]

/-- A number that is not zero has a value of its own. -/
theorem isFinite_of_value_pos (h : 0 < n.value) : n.IsFinite := by
  rw [value] at h
  rw [IsFinite]
  cases hexact : n.exact.toRat? with
  | some v => rfl
  | none =>
      rw [hexact] at h
      exact absurd h (lt_irrefl 0)

end Number

end Montage
