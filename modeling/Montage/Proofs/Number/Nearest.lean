import Mathlib.Algebra.Order.Field.Power
import Mathlib.Tactic.Positivity
import Montage.Proofs.Number.Order

/-!
# Rounding keeps signs

The number of the format nearest to an integer lies on the same side of zero as the integer. The
grid on which a rational from one on is rounded is no coarser than the rational itself, so that
rounding leaves at least one unit of it.

## Main statements

* `power_binade_le`: the leading binary digit of a positive rational is a lower bound of it.
* `Binary64.place_nearest_pos`: a rational from one on is rounded to a positive number.
* `Number.place_toReal_pos`, `Number.place_toReal_nonneg`: rounding keeps a number above zero.
-/
namespace Montage

theorem power_eq_zpow (base : Nat) (k : Int) : power base k = (base : ℚ) ^ k := by
  rw [power, Nat.pow_eq, Nat.pow_eq]
  split_ifs with hk
  · obtain ⟨n, rfl⟩ := Int.eq_ofNat_of_zero_le hk
    simp
  · obtain ⟨n, rfl⟩ : ∃ n : Nat, k = -n := ⟨(-k).toNat, by omega⟩
    simp [Rat.mkRat_eq_div]

theorem power_mono {j k : Int} (h : j ≤ k) : power 2 j ≤ power 2 k := by
  rw [power_eq_zpow, power_eq_zpow]
  exact zpow_le_zpow_right₀ (by norm_num) h

theorem power_pos (k : Int) : 0 < power 2 k := by
  rw [power_eq_zpow]
  positivity

/-- The leading binary digit of a positive rational is a lower bound of it. -/
theorem power_binade_le {q : ℚ} (hq : 0 < q) : power 2 (binade q) ≤ q := by
  unfold binade
  dsimp only
  split_ifs with hguess
  · exact hguess
  · -- the numerator reaches its power of two, and the denominator stays below the next one
    have hnum : (2 : ℚ) ^ q.num.natAbs.log2 ≤ q.num.natAbs := by
      exact_mod_cast Nat.log2_self_le (by simpa using hq.ne')
    have hden : (q.den : ℚ) ≤ 2 ^ (q.den.log2 + 1) := by
      exact_mod_cast Nat.lt_log2_self.le
    have hquot : (q.num.natAbs : ℚ) / q.den = q := by
      rw [Nat.cast_natAbs, abs_of_pos (Rat.num_pos.mpr hq), Rat.num_div_den]
    calc power 2 (q.num.natAbs.log2 - q.den.log2 - 1)
        = (2 : ℚ) ^ q.num.natAbs.log2 / 2 ^ (q.den.log2 + 1) := by
          rw [power_eq_zpow, sub_sub, Nat.cast_ofNat, zpow_sub₀ two_ne_zero]
          norm_cast
      _ ≤ q.num.natAbs / q.den := by gcongr
      _ = q := hquot

theorem floor_le_roundHalfEven (q : ℚ) : q.floor ≤ roundHalfEven q := by
  unfold roundHalfEven
  dsimp only
  split_ifs <;> omega

theorem one_le_roundHalfEven {q : ℚ} (h : 1 ≤ q) : 1 ≤ roundHalfEven q :=
  (Rat.le_floor_iff.mpr (by simpa using h)).trans (floor_le_roundHalfEven q)

namespace Binary64

theorem power_quantum_le {q : ℚ} (h : 1 ≤ q) : power 2 (quantum q) ≤ q := by
  rw [quantum]
  rcases le_total (binade q - 52) (-1074) with hle | hle
  · rw [max_eq_right hle]
    calc power 2 (-1074) ≤ power 2 0 := power_mono (by norm_num)
      _ = 1 := by rfl
      _ ≤ q := h
  · rw [max_eq_left hle]
    calc power 2 (binade q - 52) ≤ power 2 (binade q) := power_mono (by omega)
      _ ≤ q := power_binade_le (zero_lt_one.trans_le h)

/-- A rational from one on is rounded to a positive number. -/
theorem place_nearest_pos {q : ℚ} (h : 1 ≤ q) : 0 < (nearest q).place := by
  have hq : 0 < q := zero_lt_one.trans_le h
  have hunit := power_pos (quantum q)
  have hv : 0 < (roundHalfEven (q / power 2 (quantum q)) : ℚ) * power 2 (quantum q) := by
    have hone := one_le_roundHalfEven ((one_le_div hunit).mpr (power_quantum_le h))
    exact mul_pos (Int.cast_pos.mpr (zero_lt_one.trans_le hone)) hunit
  have hmag : magnitude q = q := if_neg hq.not_gt
  rw [nearest, if_neg hq.ne', hmag]
  dsimp only
  split_ifs with hbig hzero
  · rw [decide_eq_false hq.not_gt]
    exact WithBot.coe_lt_coe.mpr (WithTop.coe_lt_top 0)
  · exact absurd hzero hv.ne'
  · exact WithBot.coe_lt_coe.mpr (WithTop.coe_lt_coe.mpr hv)

theorem nearest_ne_nan (q : ℚ) : nearest q ≠ nan := by
  rw [nearest]
  dsimp only
  split_ifs <;> simp [zero]
  split <;> simp

end Binary64

namespace Number

variable {n : Number}

theorem place_toReal_pos (h : 0 < n.place) : 0 < n.toReal.place := by
  cases n with
  | real x => exact h
  | int k =>
      have hk : (0 : ℚ) < k := WithTop.coe_lt_coe.mp (WithBot.coe_lt_coe.mp h)
      have hone : (1 : ℚ) ≤ k := by exact_mod_cast hk
      exact Binary64.place_nearest_pos hone

theorem place_toReal_nonneg (h : 0 ≤ n.place) : 0 ≤ n.toReal.place := by
  rcases h.eq_or_lt with hzero | hpos
  · cases n with
    | real x => exact h
    | int k =>
        have hk : (0 : ℚ) = k := WithTop.coe_injective (WithBot.coe_injective hzero)
        obtain rfl : k = 0 := by exact_mod_cast hk.symm
        exact le_rfl
  · exact (place_toReal_pos hpos).le

end Number

end Montage
