import Montage.Proofs.Number.Finite

/-!
# Numbers of the format

A rational is a number of the format if rounding leaves it as it is. Such a rational is a multiple of
its own unit, the last binary place that the format keeps of it. Of all numbers of the format the
one that a rational is rounded to is the nearest one.

## Main definitions

* `Binary64.IsStored`: the finite numbers of the format.
* `Binary64.unit`: the last place that the format keeps of a rational.

## Main statements

* `Binary64.nearest_eq_self_iff`: the rationals that rounding leaves as they are.
* `Binary64.nearest_nearest`: rounding leads into the format.
* `Binary64.abs_sub_le_of_nearest`: no number of the format is nearer than the one rounded to.
* `Binary64.le_of_nearest`: rounding keeps the order of positive rationals.
* `Binary64.toRat?_roundPlaces_eq_floor_iff`: the numbers of which decimal places leave an integer.
-/
namespace Montage

/-! ## The leading binary digit -/

/-- A positive rational lies below the power of two after its leading binary digit. -/
theorem lt_power_binade {q : ℚ} (hq : 0 < q) : q < power 2 (binade q + 1) := by
  unfold binade
  dsimp only
  split_ifs with hguess
  · have hnum : (q.num.natAbs : ℚ) < 2 ^ (q.num.natAbs.log2 + 1) := by
      exact_mod_cast Nat.lt_log2_self
    have hden : (2 : ℚ) ^ q.den.log2 ≤ q.den := by
      exact_mod_cast Nat.log2_self_le q.den_nz
    have hquot : (q.num.natAbs : ℚ) / q.den = q := by
      rw [Nat.cast_natAbs, abs_of_pos (Rat.num_pos.mpr hq), Rat.num_div_den]
    calc q = q.num.natAbs / q.den := hquot.symm
      _ < 2 ^ (q.num.natAbs.log2 + 1) / q.den := by gcongr
      _ ≤ 2 ^ (q.num.natAbs.log2 + 1) / 2 ^ q.den.log2 := by gcongr
      _ = power 2 (q.num.natAbs.log2 - q.den.log2 + 1) := by
          rw [power_eq_zpow, sub_add_eq_add_sub, Nat.cast_ofNat, zpow_sub₀ two_ne_zero]
          norm_cast
  · rw [sub_add_cancel]
    exact not_le.mp hguess

/-- The leading binary digit lies below a power of two just if the rational does. -/
theorem binade_lt_iff {q : ℚ} (hq : 0 < q) {k : Int} : binade q < k ↔ q < power 2 k := by
  constructor
  · intro h
    exact (lt_power_binade hq).trans_le (power_mono (by omega))
  · intro h
    by_contra hle
    exact (h.trans_le (power_mono (not_lt.mp hle))).not_ge (power_binade_le hq)

theorem power_add (j k : Int) : power 2 (j + k) = power 2 j * power 2 k := by
  rw [power_eq_zpow, power_eq_zpow, power_eq_zpow, Nat.cast_ofNat, zpow_add₀ two_ne_zero]

/-- A power of two is a multiple of any lower one. -/
theorem exists_power_eq {j k : Int} (h : j ≤ k) : ∃ m : Int, power 2 k = m * power 2 j := by
  obtain ⟨n, rfl⟩ : ∃ n : Nat, k = n + j := ⟨(k - j).toNat, by omega⟩
  refine ⟨(2 ^ n : Nat), ?_⟩
  rw [power_add, power_natCast]
  push_cast
  rfl

/-! ## Rounding to integers -/

/-- The integer rounded to is no farther than the integers on both sides. -/
theorem abs_sub_roundHalfEven_le_sides (q : ℚ) :
    |q - roundHalfEven q| ≤ q - q.floor ∧ |q - roundHalfEven q| ≤ q.floor + 1 - q := by
  have hfloor : (q.floor : ℚ) ≤ q := Rat.floor_le q
  have hnext : q < q.floor + 1 := by exact_mod_cast Rat.lt_floor_add_one q
  have hbelow : |q - q.floor| = q - q.floor := abs_of_nonneg (by linarith)
  have habove : |q - (q.floor + 1 : Int)| = q.floor + 1 - q := by
    rw [abs_sub_comm, abs_of_nonneg] <;> push_cast <;> linarith
  unfold roundHalfEven
  dsimp only
  split_ifs with hlow hhigh heven
  · rw [hbelow]
    constructor <;> linarith
  · rw [habove]
    constructor <;> linarith
  · rw [hbelow]
    constructor <;> linarith
  · rw [habove]
    constructor <;> linarith

/-- No integer is nearer than the one rounded to. -/
theorem abs_sub_roundHalfEven_le (q : ℚ) (m : Int) : |q - roundHalfEven q| ≤ |q - m| := by
  obtain ⟨hbelow, habove⟩ := abs_sub_roundHalfEven_le_sides q
  rcases le_or_gt m q.floor with hm | hm
  · have hm' : (m : ℚ) ≤ q.floor := by exact_mod_cast hm
    calc |q - roundHalfEven q| ≤ q - m := by linarith
      _ ≤ |q - m| := le_abs_self _
  · have hm' : (q.floor : ℚ) + 1 ≤ m := by exact_mod_cast hm
    calc |q - roundHalfEven q| ≤ -(q - m) := by linarith
      _ ≤ |q - m| := neg_le_abs _

theorem abs_sub_roundHalfEven_le_half (q : ℚ) : |q - roundHalfEven q| ≤ 1 / 2 := by
  obtain ⟨hbelow, habove⟩ := abs_sub_roundHalfEven_le_sides q
  linarith

/-- Integers on both sides of a rational stay there when it is rounded. -/
theorem roundHalfEven_between {q : ℚ} {a b : Int} (hlow : a ≤ q) (hhigh : q ≤ b) :
    a ≤ roundHalfEven q ∧ roundHalfEven q ≤ b := by
  obtain ⟨hbelow, habove⟩ := abs_le.mp (abs_sub_roundHalfEven_le_half q)
  have hlow' : ((a - 1 : Int) : ℚ) < roundHalfEven q := by
    push_cast
    linarith
  have hhigh' : (roundHalfEven q : ℚ) < (b + 1 : Int) := by
    push_cast
    linarith
  have hlow'' := Int.cast_lt.mp hlow'
  have hhigh'' := Int.cast_lt.mp hhigh'
  omega

/-- Rounding to integers keeps the order. -/
theorem roundHalfEven_mono {p q : ℚ} (h : p ≤ q) : roundHalfEven p ≤ roundHalfEven q := by
  rcases h.eq_or_lt with rfl | hlt
  · exact le_rfl
  · by_contra hgt
    have hgt' : (roundHalfEven q : ℚ) < roundHalfEven p := by exact_mod_cast not_le.mp hgt
    have hp := sq_le_sq.mpr (abs_sub_roundHalfEven_le p (roundHalfEven q))
    have hq := sq_le_sq.mpr (abs_sub_roundHalfEven_le q (roundHalfEven p))
    -- added up, the two say that the product of both distances is not positive
    have hprod := mul_pos (sub_pos.mpr hlt) (sub_pos.mpr hgt')
    linarith

theorem roundHalfEven_zero : roundHalfEven 0 = 0 := by
  exact_mod_cast roundHalfEven_intCast 0

theorem roundHalfEven_nonpos {q : ℚ} (h : q ≤ 0) : roundHalfEven q ≤ 0 :=
  (roundHalfEven_mono h).trans_eq roundHalfEven_zero

theorem roundHalfEven_nonneg {q : ℚ} (h : 0 ≤ q) : 0 ≤ roundHalfEven q :=
  roundHalfEven_zero.symm.trans_le (roundHalfEven_mono h)

/-- A rational at most one half away from an even integer is rounded to it. -/
theorem roundHalfEven_eq_of_even {q : ℚ} {k : Int} (hk : k % 2 = 0) (hlow : k - 1 / 2 ≤ q)
    (hhigh : q ≤ k + 1 / 2) : roundHalfEven q = k := by
  unfold roundHalfEven
  dsimp only
  rcases le_or_gt (k : ℚ) q with hle | hlt
  · have hfloor : q.floor = k := Int.floor_eq_iff.mpr ⟨hle, by linarith⟩
    rw [hfloor, if_neg (by linarith : ¬1 / 2 < q - k), if_pos hk, ite_self]
  · have hbelow : ((k - 1 : Int) : ℚ) = k - 1 := by push_cast; rfl
    have hfloor : q.floor = k - 1 := by
      change ⌊q⌋ = k - 1
      rw [Int.floor_eq_iff, hbelow]
      constructor <;> linarith
    rw [hfloor, if_neg (by rw [hbelow]; linarith), if_neg (by omega : ¬(k - 1) % 2 = 0), ite_self,
      Int.sub_add_cancel]

/-- A rational more than one half above an integer is rounded to one above it. -/
theorem lt_roundHalfEven {q : ℚ} {k : Int} (h : k + 1 / 2 < q) : k < roundHalfEven q := by
  have hnear := abs_le.mp (abs_sub_roundHalfEven_le_half q)
  have hlt : (k : ℚ) < roundHalfEven q := by linarith
  exact_mod_cast hlt

namespace Binary64

/-! ## Units -/

/-- The last place that the format keeps of a rational. -/
def unit (q : ℚ) : ℚ := power 2 (quantum |q|)

variable {q r v w : ℚ}

theorem unit_pos (q : ℚ) : 0 < unit q := power_pos _

/-- What a rational is rounded to is a multiple of its unit, and in the range of the format. -/
theorem eq_of_nearest (h : nearest q = finite r) :
    r = roundHalfEven (q / unit q) * unit q ∧ |r| < power 2 1024 := by
  rw [nearest] at h
  split_ifs at h with hzero
  · obtain rfl := finite.inj h
    rw [hzero, zero_div, roundHalfEven_zero]
    exact ⟨by simp, by simpa using power_pos 1024⟩
  · dsimp only at h
    rw [magnitude_eq_abs, magnitude_eq_abs] at h
    change (if power 2 1024 ≤ |(roundHalfEven (q / unit q) : ℚ) * unit q| then _ else
      if (roundHalfEven (q / unit q) : ℚ) * unit q = 0 then _ else
        finite ((roundHalfEven (q / unit q) : ℚ) * unit q)) = _ at h
    split_ifs at h with hbig hnone
    · rw [zero] at h
      split_ifs at h
      obtain rfl := finite.inj h
      exact ⟨hnone.symm, by simpa using power_pos 1024⟩
    · obtain rfl := finite.inj h
      exact ⟨rfl, not_le.mp hbig⟩

/-- **The rationals that rounding leaves as they are**: the multiples of their own unit in the range
of the format. -/
theorem nearest_eq_self_iff :
    nearest v = finite v ↔ (∃ m : Int, v = m * unit v) ∧ |v| < power 2 1024 := by
  constructor
  · intro h
    obtain ⟨hv, hrange⟩ := eq_of_nearest h
    exact ⟨⟨_, hv⟩, hrange⟩
  · rintro ⟨⟨m, hm⟩, hrange⟩
    by_cases hv : v = 0
    · subst hv
      rfl
    have hround : (roundHalfEven (v / unit v) : ℚ) * unit v = v := by
      have hquot : v / unit v = m := (div_eq_iff (unit_pos v).ne').mpr hm
      rw [hquot, roundHalfEven_intCast, ← hm]
    rw [unit] at hround
    rw [nearest, if_neg hv, magnitude_eq_abs]
    dsimp only
    rw [hround, magnitude_eq_abs, if_neg hrange.not_ge, if_neg hv]

/-! ## Rounding leads into the format -/

theorem quantum_ge (q : ℚ) : -1074 ≤ quantum q := le_max_right _ _

/-- A multiple of a place, of 53 digits at most, is a multiple of its own unit. -/
theorem exists_eq_mul_unit {k m : Int} (hk : -1074 ≤ k) (hw : w = m * power 2 k)
    (hm : |m| < 2 ^ 53) : ∃ m' : Int, w = m' * unit w := by
  by_cases hzero : w = 0
  · exact ⟨0, by rw [hzero]; simp⟩
  have hquantum : quantum |w| ≤ k := by
    have hbinade : binade |w| < 53 + k := by
      refine (binade_lt_iff (abs_pos.mpr hzero)).mpr ?_
      rw [hw, abs_mul, abs_of_pos (power_pos k), power_add]
      refine mul_lt_mul_of_pos_right ?_ (power_pos k)
      have hpow : power 2 53 = ((2 ^ 53 : Int) : ℚ) := power_natCast 53
      rw [hpow]
      exact_mod_cast hm
    rw [quantum]
    omega
  obtain ⟨n, hn⟩ := exists_power_eq hquantum
  refine ⟨m * n, ?_⟩
  calc w = m * (n * power 2 (quantum |w|)) := by rw [← hn]; exact hw
    _ = (m * n : Int) * unit w := by rw [unit]; push_cast; ring

/-- A rational has 53 digits at most before its unit. -/
theorem abs_div_unit_lt (hq : q ≠ 0) : |q / unit q| < 2 ^ 53 := by
  have hbound : |q| < power 2 (53 + quantum |q|) := by
    refine (binade_lt_iff (abs_pos.mpr hq)).mp ?_
    rw [quantum]
    omega
  have hpow : power 2 53 = ((2 ^ 53 : Nat) : ℚ) := power_natCast 53
  rw [abs_div, abs_of_pos (unit_pos q), div_lt_iff₀ (unit_pos q)]
  rw [power_add, hpow] at hbound
  exact_mod_cast hbound

/-- **Rounding leads into the format.** -/
theorem nearest_nearest (h : nearest q = finite w) : nearest w = finite w := by
  obtain ⟨hw, hrange⟩ := eq_of_nearest h
  refine nearest_eq_self_iff.mpr ⟨?_, hrange⟩
  by_cases hq : q = 0
  · subst hq
    exact ⟨0, by rw [← finite.inj h]; simp⟩
  have hk := quantum_ge |q|
  have hdigits : |roundHalfEven (q / unit q)| ≤ 2 ^ 53 := by
    have hlt := abs_lt.mp (abs_div_unit_lt hq)
    have hnear := abs_le.mp (abs_sub_roundHalfEven_le_half (q / unit q))
    have hhigh : (roundHalfEven (q / unit q) : ℚ) < (2 ^ 53 + 1 : Int) := by
      push_cast
      linarith
    have hlow : ((-2 ^ 53 - 1 : Int) : ℚ) < roundHalfEven (q / unit q) := by
      push_cast
      linarith
    have hhigh' := Int.cast_lt.mp hhigh
    have hlow' := Int.cast_lt.mp hlow
    exact abs_le.mpr ⟨by omega, by omega⟩
  rcases hdigits.lt_or_eq with hlt | heq
  · exact exists_eq_mul_unit hk hw hlt
  · -- a power of two, which has one digit less before the next place
    obtain ⟨m, hm⟩ : (2 : Int) ∣ roundHalfEven (q / unit q) := by
      rw [← dvd_abs, heq]
      exact ⟨2 ^ 52, by norm_num⟩
    have hw' : w = m * power 2 (1 + quantum |q|) := by
      rw [hw, hm, power_add, unit]
      push_cast
      rw [mul_comm (2 : ℚ) m, mul_assoc]
      rfl
    refine exists_eq_mul_unit (by omega) hw' ?_
    rw [hm, abs_mul, abs_of_pos two_pos] at heq
    omega

/-! ## Nearest numbers -/

/-- A number of the format that reaches no lower place than `q` does is a multiple of the unit of
`q`. -/
theorem exists_eq_mul_unit_of_le (hw : nearest w = finite w) (h : quantum |q| ≤ quantum |w|) :
    ∃ m : Int, w = m * unit q := by
  obtain ⟨⟨m, hm⟩, -⟩ := nearest_eq_self_iff.mp hw
  obtain ⟨n, hn⟩ := exists_power_eq h
  refine ⟨m * n, ?_⟩
  calc w = m * (n * power 2 (quantum |q|)) := by rw [← hn]; exact hm
    _ = (m * n : Int) * unit q := by rw [unit]; push_cast; ring

/-- No multiple of its unit is nearer to a rational than the number it is rounded to. -/
theorem abs_sub_le_of_multiple (h : nearest q = finite r) (m : Int) :
    |q - r| ≤ |q - m * unit q| := by
  have hscale : ∀ k : Int, |q - k * unit q| = |q / unit q - k| * unit q := by
    intro k
    rw [← abs_of_pos (unit_pos q), ← abs_mul, abs_of_pos (unit_pos q), sub_mul,
      div_mul_cancel₀ _ (unit_pos q).ne']
  rw [(eq_of_nearest h).1, hscale, hscale]
  exact mul_le_mul_of_nonneg_right (abs_sub_roundHalfEven_le _ m) (unit_pos q).le

/-- **The nearest number**: no other number of the format is nearer to a positive rational than the
one that it is rounded to. -/
theorem abs_sub_le_of_nearest (hq : 0 < q) (h : nearest q = finite r) (hw : nearest w = finite w)
    (h₀ : 0 ≤ w) : |q - r| ≤ |q - w| := by
  rcases le_or_gt (quantum |q|) (quantum |w|) with hle | hlt
  · obtain ⟨m, hm⟩ := exists_eq_mul_unit_of_le hw hle
    rw [hm]
    exact abs_sub_le_of_multiple h m
  · -- the power of two below `q` is a multiple of its unit, and lies between `w` and `q`
    have hquantum : quantum |q| = binade q - 52 := by
      have hdef : quantum |q| = max (binade q - 52) (-1074) := by rw [quantum, abs_of_pos hq]
      have hge := quantum_ge |w|
      omega
    have hbelow : power 2 (binade q) ≤ q := power_binade_le hq
    have hbetween : w ≤ power 2 (binade q) := by
      rcases h₀.eq_or_lt with hzero | hpos
      · rw [← hzero]
        exact (power_pos _).le
      · refine ((binade_lt_iff hpos).mp ?_).le
        rw [hquantum, quantum, abs_of_pos hpos] at hlt
        omega
    have hmultiple : power 2 (binade q) = (2 ^ 52 : Int) * unit q := by
      have hpow : power 2 52 = ((2 ^ 52 : Int) : ℚ) := power_natCast 52
      rw [unit, hquantum, ← hpow, ← power_add]
      congr 1
      omega
    calc |q - r| ≤ |q - power 2 (binade q)| := by
          rw [hmultiple]
          exact abs_sub_le_of_multiple h _
      _ = q - power 2 (binade q) := abs_of_nonneg (by linarith)
      _ ≤ q - w := by linarith
      _ ≤ |q - w| := le_abs_self _

/-- Rounding leads from no rational below zero. -/
theorem nonneg_of_nearest (hq : 0 < q) (h : nearest q = finite r) : 0 ≤ r := by
  have hfloor : 0 ≤ (q / unit q).floor := Int.floor_nonneg.mpr (div_pos hq (unit_pos q)).le
  rw [(eq_of_nearest h).1]
  refine mul_nonneg ?_ (unit_pos q).le
  exact_mod_cast hfloor.trans (floor_le_roundHalfEven _)

/-- Rounding leads from no rational above zero. -/
theorem nonpos_of_nearest (hq : q ≤ 0) (h : (nearest q).toRat? = some r) : r ≤ 0 := by
  cases hnearest : nearest q with
  | nan | infinite =>
      rw [hnearest] at h
      cases h
  | negZero =>
      rw [hnearest] at h
      exact (Option.some.inj h).symm.le
  | finite v =>
      rw [hnearest] at h
      obtain rfl := Option.some.inj h
      have hround : roundHalfEven (q / unit q) ≤ 0 :=
        roundHalfEven_nonpos (div_nonpos_of_nonpos_of_nonneg hq (unit_pos q).le)
      rw [(eq_of_nearest hnearest).1]
      exact mul_nonpos_of_nonpos_of_nonneg (by exact_mod_cast hround) (unit_pos q).le

/-- **Rounding keeps the order** of two positive rationals in the range of the format. -/
theorem le_of_nearest {s : ℚ} (hq : 0 < q) (hqs : q ≤ s) (hv : nearest q = finite v)
    (hw : nearest s = finite w) : v ≤ w := by
  rcases hqs.eq_or_lt with rfl | hlt
  · exact (finite.inj (hv.symm.trans hw)).le
  · by_contra hwv
    have hwv := not_le.mp hwv
    have hs : 0 < s := hq.trans hlt
    have hqv : (q - v) ^ 2 ≤ (q - w) ^ 2 := sq_le_sq.mpr
      (abs_sub_le_of_nearest hq hv (nearest_nearest hw) (nonneg_of_nearest hs hw))
    have hsw : (s - w) ^ 2 ≤ (s - v) ^ 2 := sq_le_sq.mpr
      (abs_sub_le_of_nearest hs hw (nearest_nearest hv) (nonneg_of_nearest hq hv))
    -- added up, the two say that the product of both distances is not positive
    have hprod : 0 < (s - q) * (v - w) := mul_pos (sub_pos.mpr hlt) (sub_pos.mpr hwv)
    linarith

/-! ## Decimal places -/

/-- The integer part of a number of the format is one as well: from `2 ^ 53` on there are no
fractions. -/
theorem nearest_floor (hv : nearest v = finite v) (h₀ : 0 ≤ v) :
    nearest (⌊v⌋ : ℚ) = finite (⌊v⌋ : ℚ) := by
  have hfloor : 0 ≤ ⌊v⌋ := Int.floor_nonneg.mpr h₀
  rcases lt_or_ge v (2 ^ 53) with hlt | hge
  · have hsmall : ⌊v⌋ < 2 ^ 53 := Int.floor_lt.mpr (by push_cast; exact hlt)
    exact nearest_intCast (by rwa [abs_of_nonneg hfloor])
  · have hpos : 0 < v := lt_of_lt_of_le (by positivity) hge
    have hquantum : 0 ≤ quantum |v| := by
      have hpow : power 2 53 = ((2 ^ 53 : Nat) : ℚ) := power_natCast 53
      have hbinade : ¬binade v < 53 := by
        rw [binade_lt_iff hpos, hpow]
        push_cast
        exact hge.not_gt
      rw [abs_of_pos hpos, quantum]
      omega
    obtain ⟨⟨m, hm⟩, -⟩ := nearest_eq_self_iff.mp hv
    obtain ⟨n, hn⟩ := exists_power_eq hquantum
    have hinteger : v = (m * n : Int) := by
      rw [hm, unit, hn, show power 2 0 = 1 from rfl]
      push_cast
      ring
    rw [hinteger, Int.floor_intCast, ← hinteger]
    exact hv

/-- Rounding a positive rational leads to no negative zero. -/
theorem nearest_eq_of_toRat? (hq : 0 < q) (h : (nearest q).toRat? = some r) :
    nearest q = finite r := by
  rw [nearest, if_neg hq.ne'] at h ⊢
  dsimp only at h ⊢
  split_ifs at h ⊢ with hbig hzero
  · cases h
  · rw [decide_eq_false hq.not_gt] at h ⊢
    obtain rfl := Option.some.inj h
    rfl
  · obtain rfl := Option.some.inj h
    rfl

theorem roundPlaces_of_nonneg (places : Nat) (h₀ : 0 ≤ v) :
    (finite v).roundPlaces places =
      if roundHalfEven (v * 10 ^ places) = 0 then finite 0
      else nearest (roundHalfEven (v * 10 ^ places) / 10 ^ places) := by
  rw [roundPlaces, Nat.pow_eq, decide_eq_false h₀.not_gt]
  push_cast
  rfl

theorem fract_mul_pow (v : ℚ) (places : Nat) :
    Int.fract v * 10 ^ places = v * 10 ^ places - (⌊v⌋ * 10 ^ places : Int) := by
  rw [Int.fract]
  push_cast
  ring

variable {places : Nat}

/-- What exceeds an integer by half a unit of the last place at most is rounded to the integer. -/
theorem toRat?_roundPlaces_of_fract_le (hplaces : places ≠ 0) (hv : nearest v = finite v)
    (h₀ : 0 ≤ v) (h : Int.fract v ≤ 1 / 2 / 10 ^ places) :
    ((finite v).roundPlaces places).toRat? = some (⌊v⌋ : ℚ) := by
  have hscale : (0 : ℚ) < 10 ^ places := by positivity
  have hround : roundHalfEven (v * 10 ^ places) = ⌊v⌋ * 10 ^ places := by
    rw [le_div_iff₀ hscale, fract_mul_pow] at h
    have heven : ⌊v⌋ * 10 ^ places % 2 = 0 :=
      Int.emod_eq_zero_of_dvd ((dvd_pow (by decide : (2 : Int) ∣ 10) hplaces).mul_left _)
    have hbelow : (⌊v⌋ : ℚ) * 10 ^ places ≤ v * 10 ^ places :=
      mul_le_mul_of_nonneg_right (Int.floor_le v) hscale.le
    refine roundHalfEven_eq_of_even heven ?_ (by linarith)
    push_cast
    linarith
  rw [roundPlaces_of_nonneg places h₀, hround]
  split_ifs with hzero
  · have hfloor : ⌊v⌋ = 0 := by simpa using hzero
    rw [hfloor]
    rfl
  · push_cast
    rw [mul_div_cancel_right₀ _ hscale.ne', nearest_floor hv h₀]
    rfl

/-- What exceeds an integer by more is rounded to a decimal above it, and `v` itself is nearer to
that decimal than the integer. -/
theorem fract_le_of_toRat?_roundPlaces (hv : nearest v = finite v) (h₀ : 0 ≤ v)
    (h : ((finite v).roundPlaces places).toRat? = some (⌊v⌋ : ℚ)) :
    Int.fract v ≤ 1 / 2 / 10 ^ places := by
  have hscale : (0 : ℚ) < 10 ^ places := by positivity
  by_contra hfar
  rw [le_div_iff₀ hscale, fract_mul_pow] at hfar
  have hlt : ⌊v⌋ * 10 ^ places < roundHalfEven (v * 10 ^ places) := lt_roundHalfEven (by linarith)
  have hfloor : 0 ≤ ⌊v⌋ * 10 ^ places := mul_nonneg (Int.floor_nonneg.mpr h₀) (by positivity)
  have hhalf := abs_sub_roundHalfEven_le_half (v * 10 ^ places)
  rw [roundPlaces_of_nonneg places h₀, if_neg (by omega)] at h
  generalize roundHalfEven (v * 10 ^ places) = n at h hlt hhalf
  have hpos : (0 : ℚ) < n / 10 ^ places := by
    refine div_pos ?_ hscale
    exact_mod_cast hfloor.trans_lt hlt
  have hcloser : |(n : ℚ) / 10 ^ places - ⌊v⌋| ≤ |(n : ℚ) / 10 ^ places - v| :=
    abs_sub_le_of_nearest hpos (nearest_eq_of_toRat? hpos h) hv h₀
  have habove : 1 / 10 ^ places ≤ |(n : ℚ) / 10 ^ places - ⌊v⌋| := by
    refine le_trans ?_ (le_abs_self _)
    have hone : (⌊v⌋ : ℚ) * 10 ^ places + 1 ≤ n := by exact_mod_cast hlt
    rw [div_sub' hscale.ne', div_le_div_iff_of_pos_right hscale]
    linarith
  have hnear : |(n : ℚ) / 10 ^ places - v| ≤ 1 / 2 / 10 ^ places := by
    rw [div_sub' hscale.ne', abs_div, abs_of_pos hscale, div_le_div_iff_of_pos_right hscale,
      mul_comm, abs_sub_comm]
    exact hhalf
  have hdouble : 1 / 2 / 10 ^ places < 1 / (10 : ℚ) ^ places := by
    rw [div_lt_div_iff_of_pos_right hscale]
    norm_num
  linarith

/-- **Decimal places and integer parts.** Rounded to decimal places, a number of the format keeps
its integer part and nothing else just if it exceeds that by no more than half a unit of the last
place. -/
theorem toRat?_roundPlaces_eq_floor_iff (hplaces : places ≠ 0) (hv : nearest v = finite v)
    (h₀ : 0 ≤ v) : ((finite v).roundPlaces places).toRat? = some (⌊v⌋ : ℚ) ↔
      Int.fract v ≤ 1 / 2 / 10 ^ places :=
  ⟨fract_le_of_toRat?_roundPlaces hv h₀, toRat?_roundPlaces_of_fract_le hplaces hv h₀⟩

/-! ## Stored numbers -/

/-- The number is a finite one of the format; a negative zero counts. -/
def IsStored (x : Binary64) : Prop := ∃ v ∈ x.toRat?, nearest v = finite v

/-- What a rational is rounded to is stored, unless it is beyond the range of the format. -/
theorem isStored_nearest (h : (nearest q).IsFinite) : (nearest q).IsStored := by
  cases hq : nearest q with
  | finite w => exact ⟨w, rfl, nearest_nearest hq⟩
  | negZero => exact ⟨0, rfl, rfl⟩
  | infinite negative =>
      rw [hq] at h
      cases h
  | nan =>
      rw [hq] at h
      cases h

end Binary64

theorem Number.isStored_toReal {k : Int} (h : (Number.int k).beyondReal = false) :
    (Number.int k).toReal.IsStored := by
  refine Binary64.isStored_nearest ?_
  rw [beyondReal] at h
  cases hreal : Binary64.nearest k with
  | finite v => rfl
  | negZero => rfl
  | infinite negative =>
      rw [hreal] at h
      cases h
  | nan => exact absurd hreal (Binary64.nearest_ne_nan k)

end Montage
