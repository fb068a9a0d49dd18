import Montage.Proofs.Caption.Times

/-!
# The form of a written time

An exact time is written as hours, and minutes, seconds and hundredths of a second in two digits
each. It is rounded to hundredths before it is divided, so a part that is full is carried over into
the next one, and what is written is the nearest hundredth of the time, half to even. Hence a later
time is written as no earlier one. A number of seconds is written as the exact time of which it has
the hundredfold.

## Main definitions

* `Timestamp.IsPair`: two digits that write a number.
* `Timestamp.IsClock`: the written form of a time, with its parts in their ranges.

## Main statements

* `Timestamp.isClock_text`: a time with its parts in their ranges is written in this form.
* `natCast_centiseconds`: the hundredths of an exact time.
* `timestamp_eq_exactTimestamp`: numbers are written as exact times.
* `exactTimestamp_isClock`: how an exact time is written.
-/
namespace Montage

variable {n : Nat} {p q r : ℚ} {x : Binary64} {seconds : Number}

namespace Timestamp

/-- Two digits that write the number. -/
structure IsPair (cs : List Char) (n : Nat) : Prop where
  length : cs.length = 2
  read : number? cs = some n

/-- The text writes the time: its hours without zeros before them, and pairs of digits for its
minutes, seconds and hundredths, which are less than one of the next part. -/
structure IsClock (t : Timestamp) (cs : List Char) : Prop where
  parts : ∃ minutes seconds hundredths,
    cs = Nat.toDigits 10 t.hours ++ ':' :: (minutes ++ ':' :: (seconds ++ '.' :: hundredths)) ∧
      IsPair minutes t.minutes ∧ IsPair seconds t.seconds ∧ IsPair hundredths t.hundredths
  minutes : t.minutes < 60
  seconds : t.seconds < 60
  hundredths : t.hundredths < 100

theorem isPair_twoDigits (h : n < 100) : IsPair (twoDigits n).toList n where
  length := by
    have hdigits : (Nat.toDigits 10 n).length ≤ 2 := Nat.toDigits_length 10 n 2 (by decide) h
    rw [twoDigits, padLeft, String.toList_append, String.toList_ofList, digitText,
      String.toList_ofList, List.length_append, List.length_replicate, String.length_ofList]
    omega
  read := number?_twoDigits n

/-- **A time is written** in parts, if these are in their ranges. -/
theorem isClock_text {t : Timestamp} (hminutes : t.minutes < 60) (hseconds : t.seconds < 60)
    (hhundredths : t.hundredths < 100) : t.IsClock t.text.toList where
  parts := by
    refine ⟨_, _, _, ?_, isPair_twoDigits (by omega), isPair_twoDigits (by omega),
      isPair_twoDigits hhundredths⟩
    simp [text, digitText]
  minutes := hminutes
  seconds := hseconds
  hundredths := hhundredths

/-- What is left of a division is less than one of the next part. -/
theorem isClock_text_ofCentiseconds (n : Nat) :
    (ofCentiseconds n).IsClock (ofCentiseconds n).text.toList := by
  refine isClock_text ?_ ?_ ?_ <;> simp only [ofCentiseconds] <;> omega

end Timestamp

/-! ## Exact hundredths -/

/-- A time before zero has no hundredths. -/
theorem centiseconds_eq_toNat (q : ℚ) : centiseconds q = (roundHalfEven (100 * q)).toNat := by
  rw [centiseconds, mul_comm]
  split_ifs with hq
  · have hneg : roundHalfEven (100 * q) ≤ 0 := roundHalfEven_nonpos (by linarith)
    rw [mul_zero, roundHalfEven_zero, Int.toNat_of_nonpos hneg]
    rfl
  · rfl

/-- **The hundredths of an exact time**, counted from zero. -/
theorem natCast_centiseconds (q : ℚ) :
    (centiseconds q : ℤ) = roundHalfEven (100 * max q 0) := by
  have hfrom : (if q < 0 then 0 else q) = max q 0 := by
    split_ifs with hq
    · exact (max_eq_right hq.le).symm
    · exact (max_eq_left (not_lt.mp hq)).symm
  have hnonneg : 0 ≤ roundHalfEven (100 * max q 0) :=
    roundHalfEven_nonneg (mul_nonneg (by norm_num) (le_max_right q 0))
  rw [centiseconds, hfrom, mul_comm, Int.toNat_of_nonneg hnonneg]

/-- The hundredths of a later time are no fewer. -/
theorem centiseconds_mono (h : q ≤ r) : centiseconds q ≤ centiseconds r := by
  rw [centiseconds_eq_toNat, centiseconds_eq_toNat]
  exact Int.toNat_le_toNat (roundHalfEven_mono (by linarith))

/-! ## Numbers of seconds -/

theorem Binary64.round_of_toRat? (h : x.toRat? = some q) : x.round = .ok (roundHalfEven q) := by
  cases x with
  | nan | infinite => cases h
  | negZero =>
      obtain rfl := Option.some.inj h
      rw [roundHalfEven_zero]
      rfl
  | finite v =>
      obtain rfl := Option.some.inj h
      rfl

theorem Number.round_of_exact (h : seconds.exact.toRat? = some q) :
    seconds.round = .ok (roundHalfEven q) := by
  cases seconds with
  | int k =>
      obtain rfl := Option.some.inj h
      rw [roundHalfEven_intCast]
      rfl
  | real x => exact Binary64.round_of_toRat? h

/-- The hundredfold of a number below zero is not above it. -/
theorem Number.nonpos_of_mul_hundred (hneg : seconds < .real 0)
    (h : (seconds * 100).exact.toRat? = some q) : q ≤ 0 := by
  cases seconds with
  | int k =>
      have hk : (k : ℚ) < 0 := of_decide_eq_true hneg
      have hproduct : ((k * 100 : Int) : ℚ) = q := Option.some.inj h
      rw [← hproduct]
      push_cast
      linarith
  | real x =>
      have hundred : (Number.int 100).toReal = .finite (100 : Int) :=
        Binary64.nearest_intCast (by decide)
      have hproduct : (Number.real x * 100).exact = x.mul (.finite (100 : Int)) := by
        rw [← hundred]
        rfl
      rw [hproduct] at h
      cases x with
      | nan | infinite => cases h
      | negZero => exact (Option.some.inj h).symm.le
      | finite v =>
          have hv : v < 0 := of_decide_eq_true hneg
          have hne : v * (100 : Int) ≠ 0 := mul_ne_zero hv.ne (by norm_num)
          rw [Binary64.mul, if_neg hne] at h
          exact Binary64.nonpos_of_nearest (by push_cast; linarith) h

/-- **A number of seconds** is written as the exact time of which it has the hundredfold. -/
theorem timestamp_eq_exactTimestamp (h : (seconds * 100).exact.toRat? = some (100 * q)) :
    timestamp seconds = .ok (exactTimestamp q) := by
  have hzero : (Number.real 0 * 100).round = .ok 0 := by decide +kernel
  rw [timestamp, exactTimestamp, centiseconds_eq_toNat]
  split_ifs with hneg
  · have hnone : roundHalfEven (100 * q) ≤ 0 :=
      roundHalfEven_nonpos (Number.nonpos_of_mul_hundred hneg h)
    rw [hzero, Int.toNat_of_nonpos hnone]
    rfl
  · rw [Number.round_of_exact h]
    rfl

/-- **An exact time** is written in hours, minutes, seconds and hundredths, which are read back as
the hundredths nearest to the time, half to even, or as none for a time before zero; so a later time
is not read back as an earlier one. A number of seconds is written so as well, as the time of which
it has the hundredfold. -/
theorem exactTimestamp_isClock (q : ℚ) :
    (∃ t, Timestamp.IsClock t (exactTimestamp q).toList ∧
      Timestamp.ofText? (exactTimestamp q).toList = some t ∧
      (t.toCentiseconds : ℤ) = roundHalfEven (100 * max q 0)) ∧
    (∀ r, q ≤ r → ∃ s t, Timestamp.ofText? (exactTimestamp q).toList = some s ∧
      Timestamp.ofText? (exactTimestamp r).toList = some t ∧
      s.toCentiseconds ≤ t.toCentiseconds) ∧
    ∀ seconds : Number, (seconds * 100).exact.toRat? = some (100 * q) →
      timestamp seconds = .ok (exactTimestamp q) := by
  refine ⟨⟨_, Timestamp.isClock_text_ofCentiseconds _, Timestamp.ofText?_text _, ?_⟩,
    fun r hle => ⟨_, _, Timestamp.ofText?_text _, Timestamp.ofText?_text _, ?_⟩,
    fun seconds => timestamp_eq_exactTimestamp⟩
  · rw [Timestamp.toCentiseconds_ofCentiseconds, natCast_centiseconds]
  · rw [Timestamp.toCentiseconds_ofCentiseconds, Timestamp.toCentiseconds_ofCentiseconds]
    exact centiseconds_mono hle

/-- Half a hundredth before a full minute is carried up to the minutes, also where the number of
seconds is only near to the exact time and has its hundredfold. -/
theorem exactTimestamp_carry :
    (Timestamp.ofText? (exactTimestamp (11999 / 200)).toList = some ⟨0, 1, 0, 0⟩ ∧
      ∃ t, Timestamp.IsClock t (exactTimestamp (11999 / 200)).toList ∧
        Timestamp.ofText? (exactTimestamp (11999 / 200)).toList = some t ∧
        (t.toCentiseconds : ℤ) = roundHalfEven (100 * max (11999 / 200) 0)) ∧
    ((11999 / 200 : ℚ) ≤ 60 ∧
      ∃ s t, Timestamp.ofText? (exactTimestamp (11999 / 200)).toList = some s ∧
        Timestamp.ofText? (exactTimestamp 60).toList = some t ∧
        s.toCentiseconds ≤ t.toCentiseconds) ∧
    ((Number.real (.nearest (11999 / 200)) * 100).exact.toRat? = some (100 * (11999 / 200)) ∧
      timestamp (.real (.nearest (11999 / 200))) = .ok (exactTimestamp (11999 / 200))) := by
  obtain ⟨hclock, hmono, hnumber⟩ := exactTimestamp_isClock (11999 / 200)
  have hle : (11999 / 200 : ℚ) ≤ 60 := by norm_num
  have hproduct : (Number.real (.nearest (11999 / 200)) * 100).exact.toRat? =
      some (100 * (11999 / 200)) := by decide +kernel
  exact ⟨⟨by decide +kernel, hclock⟩, ⟨hle, hmono 60 hle⟩, hproduct, hnumber _ hproduct⟩

end Montage
