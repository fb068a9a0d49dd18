import Montage.Number.Numeral
import Montage.Proofs.Text.Case
import Montage.Proofs.Text.Cleaning

/-!
# Numerals between blanks

Reading a numeral ignores margins around it, which are blanks; but not every blank is one, and where
another blank stands before or after the numeral nothing is read. So what is read of a text is read
of the trimmed text as well.

## Main statements

* `Numeral.integer_strip`: an integer that a text writes is written by the trimmed text.
-/
namespace Montage

open Text

variable {c : Char} {cs : List Char} {s : String}

namespace Text

theorem isBlank_of_isDecimalDigit (h : isDecimalDigit c = true) : isBlank c = false :=
  isBlank_of_isDigit (by rw [isDigit, h]; rfl)

/-- Trimming takes the blanks around a trimmed text. -/
theorem strip_append_of_blank {before after : List Char} (h : IsTrimmed cs)
    (hbefore : ∀ c ∈ before, isBlank c = true) (hafter : ∀ c ∈ after, isBlank c = true) :
    strip (before ++ (cs ++ after)) = cs := by
  have hleft : stripLeft (before ++ (cs ++ after)) = stripLeft (cs ++ after) :=
    List.dropWhile_append_of_pos hbefore
  have hrest : stripRight (stripLeft (cs ++ after)) = cs := by
    cases cs with
    | nil =>
        have hnil : stripLeft ([] ++ after) = [] := List.dropWhile_eq_nil_iff.mpr hafter
        rw [hnil]
        rfl
    | cons c cs =>
        have hafter' : ∀ c ∈ after.reverse, isBlank c = true :=
          fun c hc => hafter c (List.mem_reverse.mp hc)
        have hright : stripLeft (after.reverse ++ (c :: cs).reverse) = (c :: cs).reverse := by
          have hdrop : stripLeft (after.reverse ++ (c :: cs).reverse) =
              stripLeft (c :: cs).reverse := List.dropWhile_append_of_pos hafter'
          rw [hdrop]
          refine stripLeft_eq_self fun d hd => h.last d ?_
          rwa [List.head?_reverse] at hd
        rw [List.cons_append, stripLeft_of_not_blank (h.head c rfl), ← List.cons_append, stripRight,
          List.reverse_append, hright, List.reverse_reverse]
  rw [strip, hleft, hrest]

end Text

namespace Numeral

/-- A run of digits to the end of a text is made of digits and underscores. -/
theorem isDecimalDigit_or_of_digitRun {after : Bool} (h : (digitRun after cs).2 = []) :
    ∀ c ∈ cs, isDecimalDigit c = true ∨ c = '_' := by
  induction cs generalizing after with
  | nil => exact nofun
  | cons c cs ih =>
      rw [digitRun] at h
      refine List.forall_mem_cons.mpr ?_
      cases hvalue : digitValue? c with
      | some d =>
          rw [hvalue] at h
          exact ⟨.inl (by rw [isDecimalDigit, hvalue]; rfl), ih h⟩
      | none =>
          rw [hvalue] at h
          dsimp only at h
          split_ifs at h with hmark
          simp only [Bool.and_eq_true, decide_eq_true_eq] at hmark
          exact ⟨.inr hmark.1.1, ih h⟩

/-- What a sign is taken off is the rest, or the rest after the sign. -/
theorem eq_of_sign (cs : List Char) :
    cs = (sign cs).2 ∨ ∃ c ∈ ['-', '+'], cs = c :: (sign cs).2 := by
  unfold sign
  split <;> simp

/-- An integer is written without blanks. -/
theorem isBlank_of_integer {m : Int} (h : integer s = .ok m) :
    ∀ c ∈ trim s.toList, isBlank c = false := by
  have hend : (digits (sign (trim s.toList)).2).2 = [] := by
    rw [integer] at h
    dsimp only at h
    split_ifs at h with hbad hlong hrest
    all_goals simpa using hrest
  have hplain : ∀ c ∈ (sign (trim s.toList)).2, isBlank c = false := by
    intro c hc
    rcases isDecimalDigit_or_of_digitRun hend c hc with hdigit | rfl
    · exact isBlank_of_isDecimalDigit hdigit
    · decide
  rcases eq_of_sign (trim s.toList) with heq | ⟨c, hc, heq⟩
  · rwa [heq]
  · rw [heq]
    refine List.forall_mem_cons.mpr ⟨?_, hplain⟩
    fin_cases hc <;> decide

/-- Around what is left of a text there are margins. -/
theorem exists_trim_append (cs : List Char) : ∃ before after, cs = before ++ (trim cs ++ after) ∧
    (∀ c ∈ before, isMargin c = true) ∧ ∀ c ∈ after, isMargin c = true := by
  refine ⟨cs.takeWhile isMargin,
    ((cs.dropWhile isMargin).reverse.takeWhile isMargin).reverse, ?_, ?_, ?_⟩
  · rw [trim, ← List.reverse_append, List.takeWhile_append_dropWhile, List.reverse_reverse,
      List.takeWhile_append_dropWhile]
  · exact fun c hc => List.mem_takeWhile_imp hc
  · exact fun c hc => List.mem_takeWhile_imp (List.mem_reverse.mp hc)

theorem isBlank_of_isMargin (h : isMargin c = true) : isBlank c = true := by
  rw [isMargin, Bool.and_eq_true] at h
  exact h.1

/-- A text without blanks is trimmed, and has no margins. -/
theorem strip_eq_trim (h : ∀ c ∈ trim cs, isBlank c = false) : strip cs = trim cs := by
  obtain ⟨before, after, heq, hbefore, hafter⟩ := exists_trim_append cs
  have htrimmed : IsTrimmed (trim cs) :=
    ⟨fun c hc => h c (List.mem_of_mem_head? hc), fun c hc => h c (List.mem_of_mem_getLast? hc)⟩
  conv_lhs => rw [heq]
  exact strip_append_of_blank htrimmed (fun c hc => isBlank_of_isMargin (hbefore c hc))
    fun c hc => isBlank_of_isMargin (hafter c hc)

theorem trim_eq_self (h : ∀ c ∈ cs, isBlank c = false) : trim cs = cs := by
  have hdrop : ∀ {cs : List Char}, (∀ c ∈ cs, isBlank c = false) → cs.dropWhile isMargin = cs := by
    intro cs h
    cases cs with
    | nil => rfl
    | cons c cs =>
        refine List.dropWhile_cons_of_neg ?_
        rw [isMargin, h c List.mem_cons_self]
        exact Bool.false_ne_true
  rw [trim, hdrop h, hdrop fun c hc => h c (List.mem_reverse.mp hc), List.reverse_reverse]

/-- **An integer that a text writes** is written by the trimmed text. -/
theorem integer_strip {m : Int} (h : integer s = .ok m) : integer s.strip = .ok m := by
  have hblank := isBlank_of_integer h
  have htrim : trim s.strip.toList = trim s.toList := by
    rw [String.strip, String.toList_ofList, strip_eq_trim hblank, trim_eq_self hblank]
  rw [integer] at h ⊢
  rw [htrim]
  dsimp only at h ⊢
  split_ifs at h ⊢
  all_goals exact h

end Numeral

end Montage
