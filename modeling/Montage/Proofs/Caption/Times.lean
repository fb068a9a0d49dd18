import Montage.Proofs.Caption.Listing
import Montage.Proofs.Number.Stored

/-!
# Times that are written

A written time is read back: its hours, minutes, seconds and hundredths of a second are found again
between the marks, and together they are as many hundredths as were written. Of two times the later
one is never written as an earlier one, but both may be written alike.

## Main definitions

* `Timestamp.ofText?`: the time that a text writes.
* `Timestamp.IsLater`: a text that writes a later time than another one.

## Main statements

* `Timestamp.ofText?_text`: a written time is read back.
* `isLater_timestamp_iff`: writing keeps the order of times that are not written alike.
-/
namespace Montage

/-! ## Reading a time -/

namespace Timestamp

/-- The number that digits write. -/
def number? (cs : List Char) : Option Nat :=
  if !cs.isEmpty && cs.all Char.isDigit then some (Nat.ofDigitChars 10 cs 0) else none

/-- The time that a text writes. -/
def ofText? (cs : List Char) : Option Timestamp :=
  match cs.splitOn ':' with
  | [hours, minutes, rest] => match rest.splitOn '.' with
    | [seconds, hundredths] => do
      return ⟨← number? hours, ← number? minutes, ← number? seconds, ← number? hundredths⟩
    | _ => none
  | _ => none

/-- The second text writes a later time than the first. -/
def IsLater (s t : List Char) : Prop :=
  ∃ m n, ofText? s = some m ∧ ofText? t = some n ∧ m.toCentiseconds < n.toCentiseconds

variable {cs : List Char} {mark : Char} {n : Nat}

/-- The number is read from its digits, be there zeros before them. -/
theorem number?_zeros_append (zeros n : Nat) :
    number? (List.replicate zeros '0' ++ Nat.toDigits 10 n) = some n := by
  have hdigits : ∀ c ∈ List.replicate zeros '0' ++ Nat.toDigits 10 n, c.isDigit = true := by
    intro c hc
    rcases List.mem_append.mp hc with hc | hc
    · rw [List.eq_of_mem_replicate hc]
      rfl
    · exact Nat.isDigit_of_mem_toDigits (by decide) (by decide) hc
  have hwritten : (!(List.replicate zeros '0' ++ Nat.toDigits 10 n).isEmpty &&
      (List.replicate zeros '0' ++ Nat.toDigits 10 n).all Char.isDigit) = true :=
    Bool.and_eq_true_iff.mpr ⟨by simp, List.all_eq_true.mpr hdigits⟩
  rw [number?, if_pos hwritten, Nat.ofDigitChars_append, Nat.ofDigitChars_replicate_zero,
    Nat.mul_zero, Nat.ofDigitChars_ten_toDigits]

theorem number?_digitText (n : Nat) : number? (digitText n).toList = some n := by
  rw [digitText, String.toList_ofList]
  exact number?_zeros_append 0 n

theorem number?_twoDigits (n : Nat) : number? (twoDigits n).toList = some n := by
  rw [twoDigits, padLeft, String.toList_append, String.toList_ofList, digitText,
    String.toList_ofList]
  exact number?_zeros_append _ n

/-- What is read as a number has no marks. -/
theorem notMem_of_number? (h : number? cs = some n) (hmark : mark.isDigit = false) :
    mark ∉ cs := by
  intro hmem
  rw [number?] at h
  split_ifs at h with hwritten
  have hdigits := List.all_eq_true.mp (Bool.and_eq_true_iff.mp hwritten).2
  rw [hdigits mark hmem] at hmark
  cases hmark

/-- A text is cut at its first mark. -/
theorem splitOn_append_cons (h : mark ∉ cs) (rest : List Char) :
    (cs ++ mark :: rest).splitOn mark = cs :: rest.splitOn mark := by
  have hplain : ∀ c ∈ cs, (c == mark) = false := by
    refine fun c hc => beq_false_of_ne ?_
    rintro rfl
    exact h hc
  exact List.splitOnP_append_cons_of_forall_mem hplain _ (beq_self_eq_true mark) rest

/-- **A written time** is read back. -/
theorem ofText?_text (t : Timestamp) : ofText? t.text.toList = some t := by
  have htext : t.text.toList = (digitText t.hours).toList ++ ':' :: ((twoDigits t.minutes).toList ++
      ':' :: ((twoDigits t.seconds).toList ++ '.' :: (twoDigits t.hundredths).toList)) := by
    simp [text]
  have hhours := number?_digitText t.hours
  have hminutes := number?_twoDigits t.minutes
  have hseconds := number?_twoDigits t.seconds
  have hhundredths := number?_twoDigits t.hundredths
  have hrest : ':' ∉ (twoDigits t.seconds).toList ++ '.' :: (twoDigits t.hundredths).toList := by
    simp [notMem_of_number? hseconds, notMem_of_number? hhundredths]
  rw [ofText?, htext, splitOn_append_cons (notMem_of_number? hhours rfl),
    splitOn_append_cons (notMem_of_number? hminutes rfl), List.splitOn_eq_singleton hrest]
  dsimp only
  rw [splitOn_append_cons (notMem_of_number? hseconds rfl),
    List.splitOn_eq_singleton (notMem_of_number? hhundredths rfl)]
  dsimp only
  rw [hhours, hminutes, hseconds, hhundredths]
  rfl

theorem text_injective : Function.Injective text := by
  intro t t' h
  have hread := ofText?_text t
  rw [h, ofText?_text] at hread
  exact (Option.some.inj hread).symm

theorem isLater_text_iff {t t' : Timestamp} :
    IsLater t.text.toList t'.text.toList ↔ t.toCentiseconds < t'.toCentiseconds := by
  simp [IsLater, ofText?_text]

/-- The parts of a time are as many hundredths of a second as were divided. -/
@[simp] theorem toCentiseconds_ofCentiseconds (n : Nat) :
    (ofCentiseconds n).toCentiseconds = n := by
  simp only [ofCentiseconds, toCentiseconds]
  omega

end Timestamp

/-! ## The order of written times -/

variable {x y : Binary64} {s t : String} {v w : ℚ}

/-- **A time is written** by its hundredths of a second. -/
theorem timestamp_eq_ok_iff : timestamp (.real x) = .ok t ↔
    ∃ n, (hundredthsOf x).round = .ok n ∧ t = (Timestamp.ofCentiseconds n.toNat).text := by
  rw [timestamp_real, Outcome.map_eq_ok]
  simp only [eq_comm]

/-- A time up to zero counts as zero. -/
theorem round_hundredthsOf_of_le (hx : x.toRat? = some v) (hv : v ≤ 0) :
    (hundredthsOf x).round = .ok 0 := by
  have hzero : (0 * 100 : Binary64).round = .ok 0 := by decide +kernel
  cases x with
  | nan | infinite => cases hx
  | negZero => decide +kernel
  | finite u =>
      obtain rfl := Option.some.inj hx
      rw [hundredthsOf]
      split_ifs with hneg
      · exact hzero
      · have hnonneg : 0 ≤ u := not_lt.mp fun h => hneg (decide_eq_true h)
        rw [le_antisymm hv hnonneg]
        exact hzero

theorem hundredthsOf_of_pos (hx : x.toRat? = some v) (hv : 0 < v) :
    hundredthsOf x = .nearest (v * 100) := by
  cases x with
  | nan | infinite => cases hx
  | negZero =>
      obtain rfl := Option.some.inj hx
      exact absurd hv (lt_irrefl 0)
  | finite u =>
      obtain rfl := Option.some.inj hx
      have hneg : ¬Number.real (.finite u) < .real 0 := fun h => hv.not_gt (of_decide_eq_true h)
      rw [hundredthsOf, if_neg hneg]
      exact if_neg (by positivity)

/-- The hundredths of a later time are no fewer. -/
theorem le_of_round_hundredthsOf {m n : Int} (hx : x.toRat? = some v) (hy : y.toRat? = some w)
    (hle : v ≤ w) (hm : (hundredthsOf x).round = .ok m) (hn : (hundredthsOf y).round = .ok n) :
    m.toNat ≤ n.toNat := by
  rcases le_or_gt v 0 with hv | hv
  · have hzero := Except.ok.inj (hm.symm.trans (round_hundredthsOf_of_le hx hv))
    simp [hzero]
  · have hnearest : ∀ {u : ℚ} {k : Int}, 0 < u → (Binary64.nearest (u * 100)).round = .ok k →
        ∃ r, Binary64.nearest (u * 100) = .finite r ∧ roundHalfEven r = k := by
      intro u k hu hk
      have hfinite := Binary64.isOk_round_iff.mp (Outcome.isOk_iff.mpr ⟨k, hk⟩)
      obtain ⟨r, hr⟩ := Option.isSome_iff_exists.mp hfinite
      have hr := Binary64.nearest_eq_of_toRat? (by positivity) hr
      rw [hr] at hk
      exact ⟨r, hr, Except.ok.inj hk⟩
    rw [hundredthsOf_of_pos hx hv] at hm
    rw [hundredthsOf_of_pos hy (hv.trans_le hle)] at hn
    obtain ⟨a, ha, rfl⟩ := hnearest hv hm
    obtain ⟨b, hb, rfl⟩ := hnearest (hv.trans_le hle) hn
    have hab : a ≤ b := Binary64.le_of_nearest (by positivity) (by linarith) ha hb
    exact Int.toNat_le_toNat (roundHalfEven_mono hab)

/-- **The later of two times** is written as a later one just if it is not written alike. -/
theorem isLater_timestamp_iff (hx : x.toRat? = some v) (hy : y.toRat? = some w) (hle : v ≤ w)
    (hs : timestamp (.real x) = .ok s) (ht : timestamp (.real y) = .ok t) :
    Timestamp.IsLater s.toList t.toList ↔ s ≠ t := by
  obtain ⟨m, hm, rfl⟩ := timestamp_eq_ok_iff.mp hs
  obtain ⟨n, hn, rfl⟩ := timestamp_eq_ok_iff.mp ht
  have hmn : m.toNat ≤ n.toNat := le_of_round_hundredthsOf hx hy hle hm hn
  rw [Timestamp.isLater_text_iff, Timestamp.toCentiseconds_ofCentiseconds,
    Timestamp.toCentiseconds_ofCentiseconds]
  constructor
  · intro hlt heq
    have hsame := congrArg Timestamp.toCentiseconds (Timestamp.text_injective heq)
    simp only [Timestamp.toCentiseconds_ofCentiseconds] at hsame
    omega
  · intro hne
    refine lt_of_le_of_ne hmn fun hsame => hne ?_
    rw [hsame]

end Montage
