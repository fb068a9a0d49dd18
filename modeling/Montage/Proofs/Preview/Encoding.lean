import Mathlib.Data.List.TakeWhile
import Mathlib.Tactic
import Montage.Preview.Compile
import Montage.Proofs.Number.Spelling
import Montage.Proofs.Outcome
import Montage.Proofs.Text.Case
import Montage.Proofs.Text.Cleaning

/-!
# Values in a preview URL

In a URL commas separate the parameters of a step, and slashes the steps. Texts and numbers are
written without either. A colour keeps the ones that it was given with, since neither stripping nor
lower case takes them away.

## Main definitions

* `IsUnbroken`: the texts without a separator.

## Main statements

* `isUnbroken_overlayText`: a text over the picture is written without separators.
* `isUnbroken_serviceColor_iff`: a colour has those that it was given with.
-/
namespace Montage

/-- The characters that separate the steps of a URL and the parameters of a step. -/
def separators : List Char := [',', '/']

/-- The text has no separator. -/
def IsUnbroken (s : String) : Prop := ∀ c ∈ separators, c ∉ s.toList

instance (s : String) : Decidable (IsUnbroken s) := List.decidableBAll _ separators

@[simp] theorem isUnbroken_append {s t : String} :
    IsUnbroken (s ++ t) ↔ IsUnbroken s ∧ IsUnbroken t := by
  simp only [IsUnbroken, String.toList_append, List.mem_append, not_or, forall_and]

theorem IsNumeral.isUnbroken {s : String} (h : IsNumeral s) : IsUnbroken s := by
  intro c hc hmem
  have hnumeral := h c hmem
  fin_cases hc <;> simp [numeralChar] at hnumeral

/-! ## Texts -/

/-- **A text over the picture** is written without separators, since every octet is. -/
theorem isUnbroken_overlayText (s : String) : IsUnbroken (overlayText s) := by
  have hoctet : ∀ n < 256, IsUnbroken (String.ofList (overlayOctet (UInt8.ofNat n))) := by
    decide +kernel
  intro c hc hmem
  rw [overlayText, String.toList_ofList, List.mem_flatMap] at hmem
  obtain ⟨b, -, hb⟩ := hmem
  refine hoctet b.toNat b.toNat_lt c hc ?_
  rwa [UInt8.ofNat_toNat, String.toList_ofList]

/-! ## Colours -/

theorem isCaseless_of_mem_separators {c : Char} (hc : c ∈ separators) : Text.IsCaseless c := by
  fin_cases hc <;> exact ⟨by decide, by decide, by decide +kernel, by decide⟩

theorem isUnbroken_lowerCase_iff {s : String} : IsUnbroken s.lowerCase ↔ IsUnbroken s := by
  refine forall₂_congr fun c hc => not_congr ?_
  rw [String.lowerCase, String.toList_ofList, Text.mem_lower_iff (isCaseless_of_mem_separators hc)]

theorem isUnbroken_strip_iff {s : String} : IsUnbroken s.strip ↔ IsUnbroken s := by
  refine forall₂_congr fun c hc => not_congr ?_
  have hblank : Text.isBlank c = false := by
    fin_cases hc <;> decide
  rw [String.strip, String.toList_ofList, Text.mem_strip_iff hblank]

/-- **A colour has the separators that it was given with**, whether it is read or not. -/
theorem isUnbroken_serviceColor_iff {s color : String} (h : serviceColor s = .ok color) :
    IsUnbroken color ↔ IsUnbroken s := by
  rw [← isUnbroken_strip_iff (s := s)]
  rw [serviceColor] at h
  generalize s.strip = stripped at h ⊢
  split at h
  · next digits hdigits =>
    have hstripped : stripped = "#" ++ String.ofList digits := by
      rw [← String.toList_inj, hdigits]
      simp
    have hhash : IsUnbroken "#" := by decide +kernel
    have hrgb : IsUnbroken "rgb:" := by decide +kernel
    rw [← Except.ok.inj h, hstripped, isUnbroken_append, isUnbroken_append,
      isUnbroken_lowerCase_iff]
    simp only [hhash, hrgb, true_and]
  · obtain ⟨c, -, rfl⟩ := Outcome.map_eq_ok.mp h
    exact isUnbroken_lowerCase_iff

end Montage
