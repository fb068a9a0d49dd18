import Montage.Filter.Stage

/-!
# The characters of written numbers

Every number is written in letters, digits, points and signs. So no written number has a character
that separates the parts of a longer text.

## Main definitions

* `IsNumeral`: the texts in these characters.

## Main statements

* `exists_eq_of_mem_toDigits`: the digits in any base.
* `isNumeral_text`, `isNumeral_realText`: numbers are written so, exactly or rounded.
-/
namespace Montage

/-- The characters of written numbers: letters and digits, the point, and the signs. -/
def numeralChar (c : Char) : Bool := c.isAlphanum || c = '.' || c = '-' || c = '+'

/-- The text has no other characters than those of written numbers. -/
def IsNumeral (s : String) : Prop := ∀ c ∈ s.toList, numeralChar c = true

instance (s : String) : Decidable (IsNumeral s) := List.decidableBAll _ s.toList

@[simp] theorem isNumeral_append {s t : String} :
    IsNumeral (s ++ t) ↔ IsNumeral s ∧ IsNumeral t := by
  simp [IsNumeral, or_imp, forall_and]

theorem isNumeral_ofList {cs : List Char} :
    IsNumeral (String.ofList cs) ↔ ∀ c ∈ cs, numeralChar c = true := by
  simp [IsNumeral]

theorem numeralChar_of_isDigit {c : Char} (h : c.isDigit = true) : numeralChar c = true := by
  simp [numeralChar, Char.isAlphanum, h]

theorem numeralChar_of_mem_toDigits {n : Nat} {c : Char} (h : c ∈ Nat.toDigits 10 n) :
    numeralChar c = true :=
  numeralChar_of_isDigit (Nat.isDigit_of_mem_toDigits (by decide) (by decide) h)

/-- The digits in a base are those of the numbers below it. -/
theorem exists_eq_of_mem_toDigits {base n : Nat} (hbase : 1 < base) {c : Char}
    (h : c ∈ Nat.toDigits base n) : ∃ k < base, c = Nat.digitChar k := by
  induction n using Nat.strongRecOn with
  | ind n ih =>
      rw [Nat.toDigits_eq_if hbase] at h
      split at h
      · next hn => exact ⟨n, hn, List.mem_singleton.mp h⟩
      · rcases List.mem_append.mp h with h | h
        · exact ih (n / base) (Nat.div_lt_self (by omega) hbase) h
        · exact ⟨n % base, Nat.mod_lt n (by omega), List.mem_singleton.mp h⟩

theorem isNumeral_digitText (n : Nat) : IsNumeral (digitText n) :=
  isNumeral_ofList.mpr fun _ hc => numeralChar_of_mem_toDigits hc

theorem isNumeral_padLeft {s : String} (h : IsNumeral s) (width : Nat) :
    IsNumeral (padLeft width '0' s) := by
  refine isNumeral_append.mpr ⟨isNumeral_ofList.mpr fun c hc => ?_, h⟩
  rw [List.eq_of_mem_replicate hc]
  decide

theorem isNumeral_intText (n : Int) : IsNumeral (intText n) := by
  rw [intText]
  split
  · exact isNumeral_append.mpr ⟨by decide, isNumeral_digitText _⟩
  · exact isNumeral_digitText _

namespace Decimal

/-- Digits with zeros before or after them. -/
private theorem numeralChar_of_mem_padded {n k : Nat} {c : Char}
    (h : c ∈ Nat.toDigits 10 n ∨ c ∈ List.replicate k '0') : numeralChar c = true := by
  rcases h with h | h
  · exact numeralChar_of_mem_toDigits h
  · rw [List.eq_of_mem_replicate h]
    decide

theorem isNumeral_positional {d : Decimal} {whole : String} (h : IsNumeral whole) :
    IsNumeral (d.positional whole) := by
  simp only [positional]
  split
  · refine isNumeral_append.mpr ⟨isNumeral_ofList.mpr fun c hc => ?_, h⟩
    exact numeralChar_of_mem_padded (List.mem_append.mp hc)
  · simp only [isNumeral_append, isNumeral_ofList]
    refine ⟨⟨fun c hc => ?_, by decide⟩, fun c hc => ?_⟩
    · exact numeralChar_of_mem_padded (List.mem_append.mp (List.mem_of_mem_take hc)).symm
    · exact numeralChar_of_mem_padded (List.mem_append.mp (List.mem_of_mem_drop hc)).symm

theorem isNumeral_scientific (d : Decimal) : IsNumeral d.scientific := by
  have hdigits : ∀ c ∈ Nat.toDigits 10 d.digits, numeralChar c = true :=
    fun _ => numeralChar_of_mem_toDigits
  have hrest : IsNumeral (if (Nat.toDigits 10 d.digits).length = 1 then ""
      else "." ++ String.ofList ((Nat.toDigits 10 d.digits).drop 1)) := by
    split
    · decide
    · exact isNumeral_append.mpr ⟨by decide,
        isNumeral_ofList.mpr fun c hc => hdigits c (List.mem_of_mem_drop hc)⟩
  have hsign : IsNumeral (if d.lead < 0 then "-" else "+") := by
    split <;> decide
  have hexponent : IsNumeral (padLeft 2 '0' (digitText d.lead.natAbs)) :=
    isNumeral_padLeft (isNumeral_digitText _) 2
  have hfirst : IsNumeral (String.ofList ((Nat.toDigits 10 d.digits).take 1)) :=
    isNumeral_ofList.mpr fun c hc => hdigits c (List.mem_of_mem_take hc)
  simp only [scientific, isNumeral_append]
  exact ⟨⟨⟨⟨hfirst, hrest⟩, by decide⟩, hsign⟩, hexponent⟩

end Decimal

theorem Binary64.isNumeral_text (x : Binary64) : IsNumeral x.text := by
  cases x with
  | nan => decide
  | infinite negative => cases negative <;> decide
  | negZero => decide
  | finite v =>
      have hbody : ∀ d : Decimal,
          IsNumeral (if d.lead < -4 || 16 ≤ d.lead then d.scientific else d.positional ".0") := by
        intro d
        split
        · exact d.isNumeral_scientific
        · exact Decimal.isNumeral_positional (by decide)
      simp only [text]
      split
      · decide
      · split
        · exact isNumeral_append.mpr ⟨by decide, hbody _⟩
        · exact hbody _

/-- **A number** is written in letters, digits, points and signs. -/
theorem Number.isNumeral_text (n : Number) : IsNumeral n.text := by
  cases n with
  | int n => exact isNumeral_intText n
  | real x => exact x.isNumeral_text

/-- **A rounded number** is written so as well. -/
theorem isNumeral_realText (x : Binary64) : IsNumeral (realText x) := by
  rw [realText]
  split
  · exact isNumeral_intText _
  · exact Binary64.isNumeral_text _

end Montage
