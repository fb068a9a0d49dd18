import Mathlib.Data.List.TakeWhile
import Mathlib.Tactic
import Montage.Catalog.Sanitize

/-!
# Trimmed and cleaned texts

Cleaning drops what a text may not hold, then the blanks around the rest, then what is beyond the
length limit. The last step comes after the trimming, so that a text that is cut may end in a blank;
and a text may have nothing but what is dropped. Apart from these two cases a cleaned text is one
that cleaning leaves as it is.

## Main definitions

* `Text.IsTrimmed`: a text without blanks around it.
* `IsClean`: a text as cleaning should leave it.
* `OutlastsCleaning`: what a text has to see to by itself.

## Main statements

* `Text.strip_eq_self_iff`: a text is trimmed just if trimming leaves it as it is.
* `isClean_sanitize_iff`: when a cleaned text is clean.
-/
namespace Montage

variable {c : Char} {cs : List Char} {s : String}

namespace Text

/-- The text neither starts nor ends with a blank. -/
structure IsTrimmed (cs : List Char) : Prop where
  head : ∀ c, cs.head? = some c → isBlank c = false
  last : ∀ c, cs.getLast? = some c → isBlank c = false

theorem mem_stripLeft_iff (hc : isBlank c = false) : c ∈ stripLeft cs ↔ c ∈ cs := by
  have hblank : c ∉ cs.takeWhile isBlank := fun hmem => by
    rw [List.mem_takeWhile_imp hmem] at hc
    cases hc
  have hparts : c ∈ cs.takeWhile isBlank ++ cs.dropWhile isBlank ↔ c ∈ cs.dropWhile isBlank :=
    List.mem_append.trans (or_iff_right hblank)
  rw [List.takeWhile_append_dropWhile] at hparts
  exact hparts.symm

theorem mem_strip_iff (hc : isBlank c = false) : c ∈ strip cs ↔ c ∈ cs := by
  rw [strip, stripRight, List.mem_reverse, mem_stripLeft_iff hc, List.mem_reverse,
    mem_stripLeft_iff hc]

theorem mem_of_mem_strip (h : c ∈ strip cs) : c ∈ cs := by
  have hleft : ∀ {cs : List Char}, c ∈ stripLeft cs → c ∈ cs :=
    fun hc => List.dropWhile_sublist _ |>.subset hc
  rw [strip, stripRight, List.mem_reverse] at h
  exact hleft (List.mem_reverse.mp (hleft h))

theorem head_stripLeft (h : (stripLeft cs).head? = some c) : isBlank c = false := by
  have hhead := List.head?_dropWhile_not isBlank cs
  rw [show cs.dropWhile isBlank = stripLeft cs from rfl, h] at hhead
  exact hhead

/-- What is left of a text ends as the text does. -/
theorem getLast?_stripLeft (h : (stripLeft cs).getLast? = some c) : cs.getLast? = some c := by
  obtain ⟨dropped, heq⟩ : stripLeft cs <:+ cs := List.dropWhile_suffix isBlank
  rw [← heq, List.getLast?_append, h]
  rfl

theorem stripLeft_eq_self (h : ∀ c, cs.head? = some c → isBlank c = false) :
    stripLeft cs = cs := by
  cases cs with
  | nil => rfl
  | cons c cs => exact stripLeft_of_not_blank (h c rfl)

theorem isTrimmed_strip (cs : List Char) : IsTrimmed (strip cs) where
  head c h := by
    rw [strip, stripRight, List.head?_reverse] at h
    have hlast := getLast?_stripLeft h
    rw [List.getLast?_reverse] at hlast
    exact head_stripLeft hlast
  last c h := by
    rw [strip, stripRight, List.getLast?_reverse] at h
    exact head_stripLeft h

/-- **A text is trimmed** just if trimming leaves it as it is. -/
theorem strip_eq_self_iff : strip cs = cs ↔ IsTrimmed cs := by
  constructor
  · intro h
    exact h ▸ isTrimmed_strip cs
  · intro h
    have hright : stripLeft cs.reverse = cs.reverse := by
      refine stripLeft_eq_self fun c hc => h.last c ?_
      rwa [List.head?_reverse] at hc
    rw [strip, stripLeft_eq_self h.head, stripRight, hright, List.reverse_reverse]

/-- A trimmed text that is cut is trimmed unless it is cut after a blank. -/
theorem IsTrimmed.take_iff (h : IsTrimmed cs) (n : Nat) :
    IsTrimmed (cs.take (n + 1)) ↔ ∀ c, cs[n]? = some c → isBlank c = false := by
  have hhead : (cs.take (n + 1)).head? = cs.head? := by
    rw [List.head?_take, if_neg n.succ_ne_zero]
  have hlast : (cs.take (n + 1)).getLast? = cs[n]?.or cs.getLast? := by
    rw [List.getLast?_take, if_neg n.succ_ne_zero, Nat.add_sub_cancel]
  constructor
  · intro hcut c hc
    refine hcut.last c ?_
    rw [hlast, hc, Option.some_or]
  · intro hcut
    refine ⟨fun c hc => h.head c (hhead ▸ hc), fun c hc => ?_⟩
    rw [hlast] at hc
    cases hget : cs[n]? with
    | some d =>
        rw [hget, Option.some_or] at hc
        exact Option.some.inj hc ▸ hcut d hget
    | none =>
        rw [hget, Option.none_or] at hc
        exact h.last c hc

end Text

/-! ## Cleaned texts -/

theorem isKept_iff : isKept c = true ↔ c ≠ '<' ∧ c ≠ '>' ∧ isDroppedControl c = false := by
  simp only [isKept, Bool.and_eq_true, Bool.not_eq_true', decide_eq_true_eq]
  tauto

theorem isKept_of_mem_cleaned (h : c ∈ cleaned cs) : isKept c = true :=
  (List.mem_filter.mp (Text.mem_of_mem_strip h)).2

theorem toList_sanitize (s : String) :
    (sanitize s).toList = (cleaned s.toList).take maxTextLength := by
  rw [sanitize, String.toList_ofList]

/-- A cleaned text is made of characters that may stay. -/
theorem isKept_of_mem_sanitize (h : c ∈ (sanitize s).toList) : isKept c = true := by
  rw [toList_sanitize] at h
  exact isKept_of_mem_cleaned (List.mem_of_mem_take h)

theorem length_sanitize_le (s : String) : (sanitize s).length ≤ maxTextLength := by
  rw [sanitize, String.length_ofList]
  exact List.length_take_le _ _

/-- The text shows something, is not too long, holds nothing that is dropped, has no blanks around
it, and is left as it is when it is cleaned. -/
structure IsClean (s : String) : Prop where
  shown : s.isBlank = false
  length : s.length ≤ maxTextLength
  kept : ∀ c ∈ s.toList, c ≠ '<' ∧ c ≠ '>' ∧ isDroppedControl c = false
  trimmed : s.strip = s
  stable : sanitize s = s

/-- Something that shows is left of the text when it is cleaned, and the text is not cut after a
blank. -/
structure OutlastsCleaning (s : String) : Prop where
  shown : ∃ c ∈ s.toList, isKept c = true ∧ Text.isBlank c = false
  cut : ∀ c, (cleaned s.toList)[maxTextLength - 1]? = some c → Text.isBlank c = false

/-- Cleaning leaves a text as it is that has nothing to be dropped. -/
theorem sanitize_eq_self (hkept : ∀ c ∈ s.toList, isKept c = true)
    (htrimmed : Text.IsTrimmed s.toList) (hlength : s.length ≤ maxTextLength) :
    sanitize s = s := by
  rw [sanitize, cleaned, List.filter_eq_self.mpr hkept, Text.strip_eq_self_iff.mpr htrimmed,
    List.take_of_length_le hlength, String.ofList_toList]

/-- A cleaned text is blank just if nothing that shows may stay. -/
theorem isBlank_sanitize_eq_false_iff :
    (sanitize s).isBlank = false ↔ ∃ c ∈ s.toList, isKept c = true ∧ Text.isBlank c = false := by
  rw [String.isBlank, List.all_eq_false]
  constructor
  · intro ⟨c, hc, hshown⟩
    rw [toList_sanitize] at hc
    have hmem := Text.mem_of_mem_strip (List.mem_of_mem_take hc)
    obtain ⟨hs, hkept⟩ := List.mem_filter.mp hmem
    exact ⟨c, hs, hkept, Bool.eq_false_of_not_eq_true hshown⟩
  · intro ⟨c, hc, hkept, hshown⟩
    have hmem : c ∈ cleaned s.toList :=
      (Text.mem_strip_iff hshown).mpr (List.mem_filter.mpr ⟨hc, hkept⟩)
    -- The first character that is left is not blank, and the cut keeps it.
    obtain ⟨d, rest, hleft⟩ := List.exists_cons_of_ne_nil (List.ne_nil_of_mem hmem)
    have hd : Text.isBlank d = false :=
      (Text.isTrimmed_strip _).head d (by rw [show Text.strip _ = _ from hleft]; rfl)
    refine ⟨d, ?_, by rw [hd]; exact Bool.false_ne_true⟩
    rw [toList_sanitize, hleft]
    exact List.mem_cons_self

/-- **A cleaned text is clean** just if something that shows is left of it and it is not cut after a
blank. -/
theorem isClean_sanitize_iff : IsClean (sanitize s) ↔ OutlastsCleaning s := by
  have htrimmed : Text.IsTrimmed (sanitize s).toList ↔
      ∀ c, (cleaned s.toList)[maxTextLength - 1]? = some c → Text.isBlank c = false := by
    rw [toList_sanitize]
    exact (Text.isTrimmed_strip _).take_iff (maxTextLength - 1)
  have hstrip : (sanitize s).strip = sanitize s ↔ Text.IsTrimmed (sanitize s).toList := by
    rw [← Text.strip_eq_self_iff, String.strip, ← String.toList_inj, String.toList_ofList]
  constructor
  · intro h
    exact ⟨isBlank_sanitize_eq_false_iff.mp h.shown, htrimmed.mp (hstrip.mp h.trimmed)⟩
  · intro h
    have hends := htrimmed.mpr h.cut
    exact {
      shown := isBlank_sanitize_eq_false_iff.mpr h.shown
      length := length_sanitize_le s
      kept := fun c hc => isKept_iff.mp (isKept_of_mem_sanitize hc)
      trimmed := hstrip.mpr hends
      stable := sanitize_eq_self (fun c hc => isKept_of_mem_sanitize hc) hends
        (length_sanitize_le s) }

end Montage
