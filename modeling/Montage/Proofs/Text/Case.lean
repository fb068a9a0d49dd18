import Mathlib.Tactic
import Montage.Text.Blank
import Montage.Text.Case
import Montage.Text.Digit

/-!
# Characters without case

A character that is in none of the runs of capital letters, nor among the small letters that these
runs lead to, is the lower-case form of itself and of nothing else. So a text in lower case has it
in the same places as the text itself. Digits are of this kind.

## Main definitions

* `Text.IsCaseless`: the characters without case.

## Main statements

* `Text.mem_lower_iff`: a text in lower case has the caseless characters that it has.
* `Text.allDigits_lower`: a text in lower case is made of digits just if the text is, and it is the
  same text.
-/
namespace Montage.Text

/-- The code points from `r.1` to `r.2` are neither in the run of capital letters nor among the
small letters that it leads to. -/
def liesApart (r : Nat × Nat) (run : Nat × Nat × Nat × Int) : Bool :=
  (Nat.blt r.2 run.1 || Nat.blt run.2.1 r.1) &&
    (Nat.blt r.2 (run.1 + run.2.2.2).toNat || Nat.blt (run.2.1 + run.2.2.2).toNat r.1)

/-- The character is no letter with two cases, and no other character leads to it in lower case. -/
structure IsCaseless (c : Char) : Prop where
  alpha : c.isAlpha = false
  code : c.toNat ≠ 0
  runs : ∀ run ∈ lowerRuns, liesApart (c.toNat, c.toNat) run = true
  special : c ∉ ['\u0130', '\u0307', '\u03A3', '\u03C2', '\u03C3']

variable {c d : Char} {cs : List Char}

theorem liesApart_iff {r : Nat × Nat} {run : Nat × Nat × Nat × Int} :
    liesApart r run = true ↔ (r.2 < run.1 ∨ run.2.1 < r.1) ∧
      (r.2 < (run.1 + run.2.2.2).toNat ∨ (run.2.1 + run.2.2.2).toNat < r.1) := by
  simp only [liesApart, Bool.and_eq_true, Bool.or_eq_true, Nat.blt_eq]

/-- A number that is no code stands for the character zero. -/
theorem toNat_ofNat_or (n : Nat) : (Char.ofNat n).toNat = n ∨ (Char.ofNat n).toNat = 0 := by
  by_cases h : n.isValidChar
  · exact .inl (by rw [Char.ofNat, dif_pos h]; rfl)
  · exact .inr (by rw [Char.ofNat, dif_neg h]; rfl)

/-- No character but a caseless one itself has it as its lower-case form. -/
theorem lowerChar_eq_iff (hc : IsCaseless c) : lowerChar d = c ↔ d = c := by
  rw [lowerChar]
  split
  · next hd =>
    have hlower : ∀ n < 0x80, (Char.ofNat n).toLower = Char.ofNat n ∨
        (Char.ofNat n).isAlpha = true ∧ (Char.ofNat n).toLower.isAlpha = true := by
      decide +kernel
    have hchar := hlower d.toNat hd
    rw [Char.ofNat_toNat] at hchar
    rcases hchar with hsame | ⟨halpha, halpha'⟩
    · rw [hsame]
    · refine iff_of_false ?_ ?_
      · rintro rfl
        rw [hc.alpha] at halpha'
        cases halpha'
      · rintro rfl
        rw [hc.alpha] at halpha
        cases halpha
  · split
    · next lo hi step shift hrun =>
      obtain ⟨hcapital, hsmall⟩ := liesApart_iff.mp (hc.runs _ (List.mem_of_find?_eq_some hrun))
      have hmatch := List.find?_some hrun
      simp only [Bool.and_eq_true, decide_eq_true_eq] at hcapital hsmall hmatch
      refine iff_of_false ?_ ?_
      · rintro rfl
        have hcode := hc.code
        rcases toNat_ofNat_or (Int.toNat (d.toNat + shift)) with hnat | hnat <;> omega
      · rintro rfl
        omega
    · rfl

theorem mem_lowerAt_iff (hc : IsCaseless c) {before after : List Char} :
    c ∈ lowerAt before d after ↔ d = c := by
  have hspecial := hc.special
  simp only [List.mem_cons, List.not_mem_nil, or_false, not_or] at hspecial
  obtain ⟨hdotted, hdot, hsigma, hfinal, hmedial⟩ := hspecial
  have hi : c ≠ 'i' := by
    rintro rfl
    exact absurd hc.alpha (by decide)
  rw [lowerAt]
  split
  · next hd =>
    subst hd
    simp [hi, hdot, Ne.symm hdotted]
  · split
    · next hd =>
      subst hd
      split <;> simp [hfinal, hmedial, Ne.symm hsigma]
    · rw [List.mem_singleton, eq_comm, lowerChar_eq_iff hc]

theorem mem_lowerAfter_iff (hc : IsCaseless c) {before : List Char} :
    c ∈ lowerAfter before cs ↔ c ∈ cs := by
  induction cs generalizing before with
  | nil => rfl
  | cons d cs ih => rw [lowerAfter, List.mem_append, mem_lowerAt_iff hc, ih, List.mem_cons, eq_comm]

/-- **A text in lower case** has the caseless characters that the text has. -/
theorem mem_lower_iff (hc : IsCaseless c) : c ∈ lower cs ↔ c ∈ cs := mem_lowerAfter_iff hc

/-- A caseless character is its own lower-case form. -/
theorem lowerAt_of_isCaseless (hc : IsCaseless c) (before after : List Char) :
    lowerAt before c after = [c] := by
  have hspecial := hc.special
  simp only [List.mem_cons, not_or] at hspecial
  rw [lowerAt, if_neg hspecial.1, if_neg hspecial.2.2.1, (lowerChar_eq_iff hc).mpr rfl]

/-- A text is its own lower-case form if its characters are, wherever they stand. -/
theorem lower_eq_self_of_forall (h : ∀ c ∈ cs, ∀ before after, lowerAt before c after = [c]) :
    lower cs = cs := by
  have hafter : ∀ before, lowerAfter before cs = cs := by
    induction cs with
    | nil => exact fun _ => rfl
    | cons c cs ih =>
        intro before
        obtain ⟨hc, hcs⟩ := List.forall_mem_cons.mp h
        rw [lowerAfter, hc, ih hcs]
        rfl
  exact hafter []

/-- **A text of caseless characters** is its own lower-case form. -/
theorem lower_eq_self (h : ∀ c ∈ cs, IsCaseless c) : lower cs = cs :=
  lower_eq_self_of_forall fun c hc => lowerAt_of_isCaseless (h c hc)

/-! ## Ranges of caseless characters -/

/-- The code points from `r.1` to `r.2` are those of caseless characters. -/
def isCaselessRange (r : Nat × Nat) : Bool :=
  Nat.blt 0 r.1 &&
    ((Nat.blt r.2 0x41 || Nat.blt 0x5A r.1) && (Nat.blt r.2 0x61 || Nat.blt 0x7A r.1)) &&
    (lowerRuns.all fun run => liesApart r run) &&
    [0x130, 0x307, 0x3A3, 0x3C2, 0x3C3].all fun n => Nat.blt n r.1 || Nat.blt r.2 n

/-- The letters of the first codes. -/
theorem isAlpha_iff : c.isAlpha = true ↔
    (0x41 ≤ c.toNat ∧ c.toNat ≤ 0x5A) ∨ 0x61 ≤ c.toNat ∧ c.toNat ≤ 0x7A := by
  have hupper : c.isUpper = decide (65 ≤ c.val ∧ c.val ≤ 90) := rfl
  have hlower : c.isLower = (decide (97 ≤ c.val) && decide (c.val ≤ 122)) := rfl
  have halpha : c.isAlpha = (c.isUpper || c.isLower) := rfl
  simp only [halpha, hupper, hlower, Bool.or_eq_true, Bool.and_eq_true, decide_eq_true_eq,
    UInt32.le_iff_toNat_le]
  exact Iff.rfl

theorem isCaseless_of_isCaselessRange {r : Nat × Nat} (hr : isCaselessRange r = true)
    (hc : r.1 ≤ c.toNat ∧ c.toNat ≤ r.2) : IsCaseless c := by
  simp only [isCaselessRange, Bool.and_eq_true, Bool.or_eq_true, Nat.blt_eq, List.all_eq_true] at hr
  obtain ⟨⟨⟨hcode, hupper, hlower⟩, hruns⟩, hspecial⟩ := hr
  refine ⟨?_, by omega, ?_, ?_⟩
  · refine Bool.eq_false_iff.mpr fun hletter => ?_
    rw [isAlpha_iff] at hletter
    omega
  · intro run hrun
    have hapart := liesApart_iff.mp (hruns run hrun)
    refine liesApart_iff.mpr ⟨?_, ?_⟩ <;> omega
  · intro hmem
    have hcode' : c.toNat ∈ [0x130, 0x307, 0x3A3, 0x3C2, 0x3C3] :=
      List.mem_map.mpr ⟨c, hmem, rfl⟩
    have := hspecial c.toNat hcode'
    omega

/-! ## Digits -/

/-- The code points of all digits. -/
def digitRanges : RangeTable := decimalDigits ++ otherDigits

/-- A digit lies in one of the tables of digits. -/
theorem exists_range_of_isDigit (h : isDigit c = true) :
    ∃ r ∈ digitRanges, r.1 ≤ c.toNat ∧ c.toNat ≤ r.2 := by
  rw [isDigit, Bool.or_eq_true] at h
  rcases h with h | h
  · rw [isDecimalDigit, digitValue?] at h
    split_ifs at h with hascii hlow
    · refine ⟨(0x30, 0x39), by decide, ?_⟩
      simp only [Char.isDigit, Bool.and_eq_true, decide_eq_true_eq] at hascii
      exact ⟨hascii.1, hascii.2⟩
    · cases h
    · rw [Option.isSome_map] at h
      obtain ⟨r, hr⟩ := Option.isSome_iff_exists.mp h
      have hrange := List.find?_some hr
      simp only [Bool.and_eq_true, decide_eq_true_eq] at hrange
      exact ⟨r, List.mem_append_left _ (List.mem_of_find?_eq_some hr), hrange⟩
  · obtain ⟨r, hr, hrange⟩ := List.any_eq_true.mp h
    simp only [Bool.and_eq_true, decide_eq_true_eq] at hrange
    exact ⟨r, List.mem_append_right _ hr, hrange⟩

/-- No digit is a blank. -/
theorem isBlank_of_isDigit (h : isDigit c = true) : isBlank c = false := by
  obtain ⟨r, hr, hrange⟩ := exists_range_of_isDigit h
  have hapart : ∀ r ∈ digitRanges, ∀ b ∈ blanks, r.2 < b.1 ∨ b.2 < r.1 := by decide +kernel
  refine Bool.eq_false_iff.mpr fun hblank => ?_
  obtain ⟨b, hb, hmatch⟩ := List.any_eq_true.mp hblank
  simp only [Bool.and_eq_true, decide_eq_true_eq] at hmatch
  have := hapart r hr b hb
  omega

/-- **Digits** are caseless. -/
theorem isCaseless_of_isDigit (h : isDigit c = true) : IsCaseless c := by
  obtain ⟨r, hr, hrange⟩ := exists_range_of_isDigit h
  have hranges : digitRanges.all isCaselessRange = true := by decide +kernel
  exact isCaseless_of_isCaselessRange (List.all_eq_true.mp hranges r hr) hrange

/-- A text of digits is its own lower-case form. -/
theorem lower_eq_of_allDigits (h : allDigits cs = true) : lower cs = cs := by
  rw [allDigits, Bool.and_eq_true, List.all_eq_true] at h
  exact lower_eq_self fun c hc => isCaseless_of_isDigit (h.2 c hc)

/-- Every character of a text has a part in the lower-case form. -/
theorem exists_lowerAt_subset (h : d ∈ cs) (before : List Char) :
    ∃ before' after, lowerAt before' d after ⊆ lowerAfter before cs := by
  induction cs generalizing before with
  | nil => cases h
  | cons c cs ih =>
      rw [lowerAfter]
      rcases List.mem_cons.mp h with rfl | h
      · exact ⟨before, cs, List.subset_append_left _ _⟩
      · obtain ⟨before', after, hpart⟩ := ih h (c :: before)
        exact ⟨before', after, List.Subset.trans hpart (List.subset_append_right _ _)⟩

theorem lowerAt_ne_nil (before : List Char) (c : Char) (after : List Char) :
    lowerAt before c after ≠ [] := by
  rw [lowerAt]
  split_ifs <;> exact List.cons_ne_nil _ _

/-- **A text in lower case is made of digits** just if the text itself is. -/
theorem allDigits_lower : allDigits (lower cs) = allDigits cs := by
  refine Bool.eq_iff_iff.mpr ⟨fun h => ?_, fun h => by rwa [lower_eq_of_allDigits h]⟩
  rw [allDigits, Bool.and_eq_true, List.all_eq_true] at h ⊢
  obtain ⟨hne, hdigits⟩ := h
  constructor
  · cases cs with
    | nil => exact hne
    | cons c cs => rfl
  · intro d hd
    obtain ⟨before, after, hpart⟩ := exists_lowerAt_subset hd []
    obtain ⟨c, hc⟩ := List.exists_mem_of_ne_nil _ (lowerAt_ne_nil before d after)
    have hdigit := hdigits c (hpart hc)
    rwa [(mem_lowerAt_iff (isCaseless_of_isDigit hdigit)).mp hc]

end Montage.Text
