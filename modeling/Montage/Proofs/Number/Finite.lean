import Mathlib.Tactic
import Montage.Proofs.Number.Exact
import Montage.Proofs.Outcome

/-!
# Numbers that have an exact value

An infinite number and the one that is none have no integer near them, so to round them is a fault.
Rounding into the binary format at most doubles the size of a rational, so sums and products of
moderate numbers stay finite.

## Main definitions

* `Binary64.IsFinite`: the numbers that have an exact value.
* `Binary64.Within`: the numbers of a bounded size.

## Main statements

* `Number.isOk_round_iff`, `Number.isOk_toInt_iff`: which numbers have an integer near them.
* `Binary64.within_nearest`: the size of a rational that is rounded.
* `Binary64.Within.add`, `Binary64.Within.mul`: sums and products of numbers of a bounded size.
-/
namespace Montage

theorem abs_roundHalfEven_le (q : ℚ) : |(roundHalfEven q : ℚ)| ≤ 2 * |q| := by
  have hfloor : (q.floor : ℚ) ≤ q := Rat.floor_le q
  have hnext : q < q.floor + 1 := by exact_mod_cast Rat.lt_floor_add_one q
  rw [roundHalfEven]
  generalize q.floor = n at hfloor hnext ⊢
  rcases le_or_gt 0 n with hn | hn
  · have hn' : (0 : ℚ) ≤ n := by exact_mod_cast hn
    have hodd : ¬n % 2 = 0 → (1 : ℚ) ≤ n := fun h => by
      exact_mod_cast (by omega : 1 ≤ n)
    rw [abs_of_nonneg (hn'.trans hfloor), abs_le]
    split_ifs with hbelow habove heven
    · constructor <;> linarith
    · push_cast
      constructor <;> linarith
    · constructor <;> linarith
    · have hone := hodd heven
      push_cast
      constructor <;> linarith
  · have hn' : (n : ℚ) ≤ -1 := by exact_mod_cast (by omega : n ≤ -1)
    have hq : q < 0 := by linarith
    rw [abs_of_neg hq, abs_le]
    split_ifs <;> push_cast <;> constructor <;> linarith

namespace Binary64

/-- The number has an exact value. -/
def IsFinite (x : Binary64) : Prop := x.toRat?.isSome = true

instance (x : Binary64) : Decidable x.IsFinite := inferInstanceAs (Decidable (_ = true))

/-- The number has an exact value, of the size `b` at most. -/
def Within (b : ℚ) (x : Binary64) : Prop := ∃ v ∈ x.toRat?, |v| ≤ b

variable {x y : Binary64} {a b : ℚ}

theorem isOk_toInt_iff : x.toInt.isOk = true ↔ x.IsFinite := by
  cases x <;> simp [toInt, IsFinite, toRat?]

theorem isOk_round_iff : x.round.isOk = true ↔ x.IsFinite := by
  cases x <;> simp [round, IsFinite, toRat?]

theorem within_finite {v : ℚ} : (finite v).Within b ↔ |v| ≤ b := by
  simp [Within, toRat?]

theorem within_zero (negative : Bool) (hb : 0 ≤ b) : (zero negative).Within b := by
  refine ⟨0, ?_, by simpa using hb⟩
  cases negative <;> rfl

/-- Rounding at most doubles the size of a rational. -/
theorem within_nearest {q : ℚ} (hq : |q| ≤ b) (hb : b ≤ 2 ^ 100) :
    (nearest q).Within (2 * b) := by
  have hunit := power_pos (quantum (magnitude q))
  have hv : |(roundHalfEven (q / power 2 (quantum (magnitude q))) : ℚ) *
      power 2 (quantum (magnitude q))| ≤ 2 * b := by
    rw [abs_mul, abs_of_pos hunit]
    calc |(roundHalfEven (q / power 2 (quantum (magnitude q))) : ℚ)| *
          power 2 (quantum (magnitude q))
        ≤ 2 * |q / power 2 (quantum (magnitude q))| * power 2 (quantum (magnitude q)) := by
          gcongr
          exact abs_roundHalfEven_le _
      _ = 2 * |q| := by
          rw [abs_div, abs_of_pos hunit, mul_assoc, div_mul_cancel₀ _ hunit.ne']
      _ ≤ 2 * b := by gcongr
  have hnonneg : 0 ≤ 2 * b := (abs_nonneg _).trans hv
  have hlarge : 2 * b < power 2 1024 := by
    calc 2 * b ≤ 2 ^ 101 := by linarith
      _ < (2 : ℚ) ^ (1024 : Int) := by
        rw [← zpow_natCast]
        exact zpow_lt_zpow_right₀ one_lt_two (by decide)
      _ = power 2 1024 := (power_eq_zpow 2 1024).symm
  rw [nearest]
  split_ifs with hzero
  · exact within_finite.mpr (by simpa using hnonneg)
  · dsimp only
    rw [magnitude_eq_abs (_ * _), if_neg (hv.trans_lt hlarge).not_ge]
    split_ifs
    · exact within_zero _ hnonneg
    · exact within_finite.mpr hv

namespace Within

theorem isFinite (h : x.Within b) : x.IsFinite := by
  obtain ⟨v, hv, -⟩ := h
  exact Option.isSome_iff_exists.mpr ⟨v, hv⟩

/-- **The sum** of two numbers of a bounded size. -/
theorem add (hx : x.Within a) (hy : y.Within b) (hab : a + b ≤ 2 ^ 100) :
    (x + y).Within (2 * (a + b)) := by
  obtain ⟨v, hv, hva⟩ := hx
  obtain ⟨w, hw, hwb⟩ := hy
  have ha : 0 ≤ a := (abs_nonneg v).trans hva
  have hb : 0 ≤ b := (abs_nonneg w).trans hwb
  cases x with
  | nan | infinite => cases hv
  | negZero =>
      cases y with
      | nan | infinite => cases hw
      | negZero => exact within_zero true (by positivity)
      | finite u =>
          obtain rfl := Option.some.inj hw
          exact within_finite.mpr (by linarith)
  | finite t =>
      obtain rfl := Option.some.inj hv
      cases y with
      | nan | infinite => cases hw
      | negZero => exact within_finite.mpr (by linarith)
      | finite u =>
          obtain rfl := Option.some.inj hw
          exact within_nearest ((abs_add_le t u).trans (add_le_add hva hwb)) hab

/-- **The product** of two numbers of a bounded size. -/
theorem mul (hx : x.Within a) (hy : y.Within b) (hab : a * b ≤ 2 ^ 100) :
    (x * y).Within (2 * (a * b)) := by
  obtain ⟨v, hv, hva⟩ := hx
  obtain ⟨w, hw, hwb⟩ := hy
  have ha : 0 ≤ a := (abs_nonneg v).trans hva
  have hb : 0 ≤ b := (abs_nonneg w).trans hwb
  have hzero (negative : Bool) : (zero negative).Within (2 * (a * b)) :=
    within_zero negative (by positivity)
  cases x with
  | nan | infinite => cases hv
  | negZero =>
      cases y with
      | nan | infinite => cases hw
      | negZero => exact hzero (negZero.isNegative != negZero.isNegative)
      | finite u => exact hzero (negZero.isNegative != (finite u).isNegative)
  | finite t =>
      obtain rfl := Option.some.inj hv
      cases y with
      | nan | infinite => cases hw
      | negZero => exact hzero ((finite t).isNegative != negZero.isNegative)
      | finite u =>
          obtain rfl := Option.some.inj hw
          change (if t * u = 0 then zero _ else nearest (t * u)).Within _
          split_ifs
          · exact hzero _
          · refine within_nearest ?_ hab
            rw [abs_mul]
            exact mul_le_mul hva hwb (abs_nonneg u) ha

end Within

/-- A number between zero and one has a size of at most one. -/
theorem within_one (h₀ : 0 ≤ x) (h₁ : x ≤ 1) : x.Within 1 := by
  have hlow := place_le_of_le h₀
  have hhigh := place_le_of_le h₁
  cases x with
  | finite v =>
      have hlow' : (0 : ℚ) ≤ v := WithTop.coe_le_coe.mp (WithBot.coe_le_coe.mp hlow)
      have hhigh' : v ≤ (1 : ℚ) := WithTop.coe_le_coe.mp (WithBot.coe_le_coe.mp hhigh)
      exact within_finite.mpr (by rwa [abs_of_nonneg hlow'])
  | negZero => exact within_zero true zero_le_one
  | infinite negative =>
      cases negative with
      | false => cases h₁
      | true => cases h₀
  | nan => exact absurd rfl (ne_nan_of_le h₀).2

end Binary64

namespace Number

variable {n : Number}

theorem isOk_round_iff : n.round.isOk = true ↔ n.IsFinite := by
  cases n with
  | int k => exact iff_of_true rfl rfl
  | real x => exact Binary64.isOk_round_iff

theorem isOk_toInt_iff : n.toInt.isOk = true ↔ n.IsFinite := by
  cases n with
  | int k => exact iff_of_true rfl rfl
  | real x => exact Binary64.isOk_toInt_iff

/-- A number between two integers has an exact value. -/
theorem isFinite_of_between {a b : Int} (hlow : .int a ≤ n) (hhigh : n ≤ .int b) :
    n.IsFinite := by
  cases n with
  | int k => rfl
  | real x =>
      cases x with
      | finite v => rfl
      | negZero => rfl
      | infinite negative =>
          cases negative with
          | false => cases hhigh
          | true => cases hlow
      | nan => exact absurd rfl (Binary64.ne_nan_of_le hlow).2

end Number

end Montage
