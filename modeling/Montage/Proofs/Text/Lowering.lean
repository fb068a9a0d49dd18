import Montage.Proofs.Text.Case

/-!
# Lower case piece by piece

A letter in lower case is its own lower-case form, so a text in lower case is. Only a sigma depends
on what is around it, and what it depends on ends at the first character that is neither a cased
letter nor passed over. So the lower-case form of a text is put together from those of the pieces
between such characters.

## Main definitions

* `Text.IsLowered`: the characters that no letter of the tables has as a lower-case form.
* `Text.IsBreak`: the characters beyond which a sigma does not look.

## Main statements

* `Text.lower_lower`: a text in lower case is its own lower-case form.
* `Text.head?_lower_eq_iff`, `Text.getLast?_lower_eq_iff`: the ends of a text in lower case.
* `Text.lower_append_break`: the lower-case form of two pieces with a break between them.
-/
namespace Montage.Text

/-- The code point is one of the capital letters of a run. -/
def inRun (run : Nat × Nat × Nat × Int) (n : Nat) : Bool :=
  decide (run.1 ≤ n) && decide (n ≤ run.2.1) && (n - run.1) % run.2.2.1 == 0

/-- The small letters of one run are not among the capital letters of another: they lie apart, or
the letters of both are every other one, and those of the one are between those of the other. -/
def leadsApart (run other : Nat × Nat × Nat × Int) : Bool :=
  Nat.blt (run.2.1 + run.2.2.2).toNat other.1 || (Nat.blt other.2.1 (run.1 + run.2.2.2).toNat ||
    (run.2.2.1 == 2 || run.1 == run.2.1) && Nat.blt 0 (run.1 + run.2.2.2).toNat &&
      other.2.2.1 == 2 && ((run.1 + run.2.2.2).toNat + other.1) % 2 == 1)

/-- The character is no letter with a lower-case form of its own. -/
structure IsLowered (c : Char) : Prop where
  undotted : c ≠ '\u0130'
  runs : ∀ run ∈ lowerRuns, inRun run c.toNat = false

/-- The character is no letter, and is not passed over when the neighbours of a sigma are looked
at. -/
structure IsBreak (c : Char) : Prop where
  caseless : IsCaseless c
  uncased : casedLetters.contains c = false
  seen : caseIgnorables.contains c = false

variable {c d : Char} {cs xs ys : List Char} {n : Nat} {run : Nat × Nat × Nat × Int}

/-! ## Letters in lower case -/

theorem inRun_iff : inRun run n = true ↔
    (run.1 ≤ n ∧ n ≤ run.2.1) ∧ (n - run.1) % run.2.2.1 = 0 := by
  simp only [inRun, Bool.and_eq_true, decide_eq_true_eq, beq_iff_eq]

/-- The small letter of a capital one is no capital letter. -/
theorem inRun_of_leadsApart {other : Nat × Nat × Nat × Int} (h : leadsApart run other = true)
    (hn : inRun run n = true) : inRun other (n + run.2.2.2).toNat = false := by
  obtain ⟨hrange, hstep⟩ := inRun_iff.mp hn
  refine Bool.eq_false_iff.mpr fun hother => ?_
  obtain ⟨hrange', hstep'⟩ := inRun_iff.mp hother
  simp only [leadsApart, Bool.or_eq_true, Bool.and_eq_true, Nat.blt_eq, beq_iff_eq] at h
  obtain hbelow | habove | ⟨⟨⟨hpaired, hpos⟩, htwo⟩, hodd⟩ := h
  · omega
  · omega
  · rw [htwo] at hstep'
    rcases hpaired with hsecond | hsingle
    · rw [hsecond] at hstep
      omega
    · omega

theorem lowerChar_of_isLowered (h : IsLowered c) : lowerChar c = c := by
  rw [lowerChar]
  split_ifs with hascii
  · have hsmall : ∀ n < 0x80, inRun (0x41, 0x5A, 1, 32) n = false →
        (Char.ofNat n).toLower = Char.ofNat n := by decide +kernel
    have hchar := hsmall c.toNat hascii (h.runs _ List.mem_cons_self)
    rwa [Char.ofNat_toNat] at hchar
  · split
    · next lo hi step shift hrun =>
      have hmatch := List.find?_some hrun
      exact absurd hmatch (Bool.eq_false_iff.mp (h.runs _ (List.mem_of_find?_eq_some hrun)))
    · rfl

theorem lowerAt_of_isLowered (h : IsLowered c) (before after : List Char) :
    lowerAt before c after = [c] := by
  have hsigma : c ≠ '\u03A3' := by
    rintro rfl
    exact absurd (h.runs (0x3A3, 0x3AB, 1, 32) (by decide +kernel)) (by decide)
  rw [lowerAt, if_neg h.undotted, if_neg hsigma, lowerChar_of_isLowered h]

/-- Of the first codes all are in lower case but those of the capital letters. -/
theorem isLowered_of_ascii (h : c.toNat < 0x80) (hsmall : c.toNat < 0x41 ∨ 0x5A < c.toNat) :
    IsLowered c where
  undotted := by
    rintro rfl
    exact absurd h (by decide)
  runs run hrun := by
    have hcapitals : ∀ run ∈ lowerRuns, run.1 = 0x41 ∧ run.2.1 = 0x5A ∨ 0x80 ≤ run.1 := by
      decide +kernel
    refine Bool.eq_false_iff.mpr fun hin => ?_
    have := hcapitals run hrun
    have := (inRun_iff.mp hin).1
    omega

/-- **The lower-case form of a character** is in lower case. -/
theorem isLowered_lowerChar (hc : c ≠ '\u0130') : IsLowered (lowerChar c) := by
  rw [lowerChar]
  split_ifs with hascii
  · have hlower : ∀ n < 0x80, (Char.ofNat n).toLower.toNat < 0x80 ∧
        ((Char.ofNat n).toLower.toNat < 0x41 ∨ 0x5A < (Char.ofNat n).toLower.toNat) := by
      decide +kernel
    have hchar := hlower c.toNat hascii
    rw [Char.ofNat_toNat] at hchar
    exact isLowered_of_ascii hchar.1 hchar.2
  · split
    · next lo hi step shift hrun =>
      have hmem := List.mem_of_find?_eq_some hrun
      have hmatch := List.find?_some hrun
      have hin : inRun (lo, hi, step, shift) c.toNat = true := hmatch
      -- A sum that is no code stands for the character zero, which is no letter.
      rcases toNat_ofNat_or (c.toNat + shift).toNat with hcode | hzero
      · have hruns : (lowerRuns.all fun run => lowerRuns.all fun other => leadsApart run other) =
            true := by decide +kernel
        have hundotted : ∀ run ∈ lowerRuns,
            run.2.1 + run.2.2.2 < 0x130 ∨ 0x130 < run.1 + run.2.2.2 := by decide +kernel
        refine ⟨?_, fun other hother => ?_⟩
        · intro hdotted
          rw [hdotted] at hcode
          have hcapital : (lo ≤ c.toNat ∧ c.toNat ≤ hi) ∧ _ := inRun_iff.mp hin
          have hapart : hi + shift < 0x130 ∨ 0x130 < lo + shift := hundotted _ hmem
          have hdot : (Char.toNat '\u0130' : Int) = 0x130 := rfl
          omega
        · rw [hcode]
          exact inRun_of_leadsApart
            (List.all_eq_true.mp (List.all_eq_true.mp hruns _ hmem) other hother) hin
      · exact isLowered_of_ascii (by omega) (by omega)
    · next hnone =>
      refine ⟨hc, fun run hrun => ?_⟩
      have hmatch := List.find?_eq_none.mp hnone run hrun
      exact Bool.eq_false_iff.mpr hmatch

/-- Each part of a text in lower case is in lower case. -/
theorem isLowered_of_mem_lowerAt {before after : List Char} (h : d ∈ lowerAt before c after) :
    IsLowered d := by
  have hdot : IsLowered '\u0307' := ⟨by decide, by decide +kernel⟩
  have hsigmas : IsLowered '\u03C2' ∧ IsLowered '\u03C3' :=
    ⟨⟨by decide, by decide +kernel⟩, ⟨by decide, by decide +kernel⟩⟩
  rw [lowerAt] at h
  split_ifs at h with hdotted hsigma hfinal
  · rcases List.mem_pair.mp h with rfl | rfl
    · exact isLowered_of_ascii (by decide) (by decide)
    · exact hdot
  · exact List.mem_singleton.mp h ▸ hsigmas.1
  · exact List.mem_singleton.mp h ▸ hsigmas.2
  · exact List.mem_singleton.mp h ▸ isLowered_lowerChar hdotted

theorem isLowered_of_mem_lowerAfter {before : List Char} (h : d ∈ lowerAfter before cs) :
    IsLowered d := by
  induction cs generalizing before with
  | nil => cases h
  | cons c cs ih =>
      rw [lowerAfter] at h
      rcases List.mem_append.mp h with h | h
      · exact isLowered_of_mem_lowerAt h
      · exact ih h

/-- **A text in lower case** is its own lower-case form. -/
theorem lower_lower (cs : List Char) : lower (lower cs) = lower cs :=
  lower_eq_self_of_forall fun _ hc => lowerAt_of_isLowered (isLowered_of_mem_lowerAfter hc)

/-! ## The ends of a text -/

/-- **A text in lower case** starts with a caseless character just if the text does. -/
theorem head?_lower_eq_iff (hc : IsCaseless c) :
    (lower cs).head? = some c ↔ cs.head? = some c := by
  cases cs with
  | nil => rfl
  | cons d cs =>
      have hhead : (lower (d :: cs)).head? = (lowerAt [] d cs).head? :=
        List.head?_append_of_ne_nil _ (lowerAt_ne_nil [] d cs)
      rw [hhead, List.head?_cons, Option.some_inj]
      constructor
      · intro h
        exact (mem_lowerAt_iff hc).mp (List.mem_of_head? h)
      · rintro rfl
        rw [lowerAt_of_isCaseless hc, List.head?_cons]

/-- **A text in lower case** ends with a caseless character just if the text does. -/
theorem getLast?_lower_eq_iff (hc : IsCaseless c) :
    (lower cs).getLast? = some c ↔ cs.getLast? = some c := by
  have hafter : ∀ before, (lowerAfter before cs).getLast? = some c ↔ cs.getLast? = some c := by
    induction cs with
    | nil => exact fun _ => Iff.rfl
    | cons d cs ih =>
        intro before
        rw [lowerAfter]
        cases cs with
        | nil =>
            rw [lowerAfter, List.append_nil, List.getLast?_singleton, Option.some_inj]
            constructor
            · intro h
              exact (mem_lowerAt_iff hc).mp (List.mem_of_getLast? h)
            · rintro rfl
              rw [lowerAt_of_isCaseless hc, List.getLast?_singleton]
        | cons e cs =>
            have hne : lowerAfter (d :: before) (e :: cs) ≠ [] :=
              List.append_ne_nil_of_left_ne_nil (lowerAt_ne_nil _ e cs) _
            rw [List.getLast?_append_of_ne_nil _ hne, ih, List.getLast?_cons_cons]
  exact hafter []

/-! ## Pieces between breaks -/

theorem meetsCased_append_break (hc : IsBreak c) :
    meetsCased (xs ++ c :: ys) = meetsCased xs := by
  induction xs with
  | nil =>
      have hstop : (c :: ys).dropWhile caseIgnorables.contains = c :: ys :=
        List.dropWhile_cons_of_neg (by rw [hc.seen]; exact Bool.false_ne_true)
      rw [List.nil_append, meetsCased, hstop]
      exact hc.uncased
  | cons d xs ih =>
      cases hd : caseIgnorables.contains d with
      | true => simpa [meetsCased, List.dropWhile_cons, hd] using ih
      | false => simp [meetsCased, hd]

/-- What stands before a break has no part in the lower-case form of what follows it. -/
theorem lowerAfter_append_break (hc : IsBreak c) (before : List Char) :
    lowerAfter (xs ++ c :: before) cs = lowerAfter xs cs := by
  induction cs generalizing xs with
  | nil => rfl
  | cons d cs ih =>
      rw [lowerAfter, lowerAfter, ← List.cons_append, ih, lowerAt, lowerAt,
        meetsCased_append_break hc]

/-- **The lower-case form of two pieces** with a break between them. -/
theorem lower_append_break (hc : IsBreak c) (xs ys : List Char) :
    lower (xs ++ c :: ys) = lower xs ++ c :: lower ys := by
  have hafter : ∀ before, lowerAfter before (xs ++ c :: ys) =
      lowerAfter before xs ++ c :: lower ys := by
    induction xs with
    | nil =>
        intro before
        change lowerAt before c ys ++ lowerAfter (c :: before) ys = c :: lower ys
        have hfresh : lowerAfter ([] ++ c :: before) ys = lowerAfter [] ys :=
          lowerAfter_append_break hc before
        rw [lowerAt_of_isCaseless hc.caseless]
        exact congrArg (c :: ·) hfresh
    | cons d xs ih =>
        intro before
        rw [List.cons_append, lowerAfter, lowerAfter, ih, List.append_assoc, lowerAt, lowerAt,
          meetsCased_append_break hc]
  exact hafter []

end Montage.Text
