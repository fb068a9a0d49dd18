import Montage.Proofs.Number.Nearest

/-!
# Small integers are exact

An integer of at most 53 binary digits is a number of the format, so rounding leaves it as it is.
The grid on which it is rounded is no coarser than the integers.

## Main statements

* `Binary64.nearest_intCast`: rounding keeps a small integer.
* `Number.place_toReal_of_small`: a number whose integers are small stays in its place.
-/
namespace Montage

theorem roundHalfEven_intCast (k : Int) : roundHalfEven (k : ℚ) = k := by
  simp [roundHalfEven]

theorem power_natCast (n : Nat) : power 2 n = ((2 ^ n : Nat) : ℚ) := by
  simp [power]

/-- The leading binary digit of a rational below a power of two lies below that power. -/
theorem binade_lt {q : ℚ} (hq : 0 < q) {n : Nat} (h : q < 2 ^ n) : binade q < n := by
  have hpow : power 2 (binade q) < power 2 n := by
    rw [power_natCast, Nat.cast_pow, Nat.cast_ofNat]
    exact (power_binade_le hq).trans_lt h
  by_contra hle
  exact (power_mono (not_lt.mp hle)).not_gt hpow

theorem magnitude_eq_abs (q : ℚ) : magnitude q = |q| := by
  rw [magnitude]
  split_ifs with hq
  · exact (abs_of_neg hq).symm
  · exact (abs_of_nonneg (not_lt.mp hq)).symm

namespace Binary64

/-- The unit in which a small integer is rounded divides it. -/
theorem exists_div_quantum {k : Int} (hk : k ≠ 0) (h : |k| < 2 ^ 53) :
    ∃ m : Int, (k : ℚ) / power 2 (quantum |(k : ℚ)|) = m := by
  have hpos : (0 : ℚ) < |(k : ℚ)| := abs_pos.mpr (Int.cast_ne_zero.mpr hk)
  have hlt : |(k : ℚ)| < 2 ^ 53 := by exact_mod_cast h
  have hquantum : quantum |(k : ℚ)| ≤ 0 := by
    have := binade_lt hpos hlt
    rw [quantum]
    omega
  obtain ⟨n, hn⟩ : ∃ n : Nat, quantum |(k : ℚ)| = -n := ⟨(-quantum |(k : ℚ)|).toNat, by omega⟩
  refine ⟨k * 2 ^ n, ?_⟩
  rw [hn, power_eq_zpow, zpow_neg, zpow_natCast, div_inv_eq_mul]
  push_cast
  rfl

/-- Rounding keeps a small integer. -/
theorem nearest_intCast {k : Int} (h : |k| < 2 ^ 53) : nearest (k : ℚ) = finite k := by
  by_cases hk : k = 0
  · subst hk
    rfl
  have hq : (k : ℚ) ≠ 0 := Int.cast_ne_zero.mpr hk
  obtain ⟨m, hm⟩ := exists_div_quantum hk h
  have hunit : power 2 (quantum |(k : ℚ)|) ≠ 0 := (power_pos _).ne'
  have hv : (roundHalfEven ((k : ℚ) / power 2 (quantum |(k : ℚ)|)) : ℚ) *
      power 2 (quantum |(k : ℚ)|) = k := by
    rw [hm, roundHalfEven_intCast, ← hm, div_mul_cancel₀ _ hunit]
  have hbig : ¬power 2 1024 ≤ |(k : ℚ)| := by
    have hlt : |(k : ℚ)| < power 2 (53 : Nat) := by
      rw [power_natCast]
      exact_mod_cast h
    exact (hlt.trans_le (power_mono (by decide))).not_ge
  rw [nearest, if_neg hq, magnitude_eq_abs]
  dsimp only
  rw [hv, magnitude_eq_abs, if_neg hbig, if_neg hq]

end Binary64

/-- A number whose integers are small stays in its place when it is rounded. -/
theorem Number.place_toReal_of_small {n : Number} (h : ∀ k, n = .int k → |k| < 2 ^ 53) :
    n.toReal.place = n.place := by
  cases n with
  | real x => rfl
  | int k => rw [toReal, Binary64.nearest_intCast (h k rfl), place, exact]

end Montage
