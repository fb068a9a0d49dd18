import Montage.Catalog.Check
import Montage.Proofs.Number.Order
import Montage.Proofs.Outcome

/-!
# Ranges of parameters

A number is checked against the choices and bounds of its parameter. If they admit it, the check
says nothing; otherwise it has one problem, which shows the number. An integer to which no binary
number is near cannot be shown, so the check of such a number fails unless the parameter admits it.

## Main definitions

* `FieldSpec.Admits`: the numbers that a parameter may have.
* `FieldSpec.Regular`: what all parameters of the catalogue have in common.
* `FieldSpec.Judges`: the check is silent, or it shows the number.

## Main statements

* `FieldSpec.judges_rangeProblems`: the check of a number judges it.
* `FieldSpec.isOk_rangeProblems`: when the check gives a result.
* `regular_of_mem_checkedFields`: the parameters of the catalogue are regular.
-/
namespace Montage

namespace Number

variable {n : Number}

theorem general_eq_ok (h : n.beyondReal = false) : n.general = .ok n.toReal.general := by
  simp [general, toReal?, h, Except.map]

theorem isOk_general : n.general.isOk = !n.beyondReal := by
  rw [general, toReal?]
  cases n.beyondReal <;> rfl

/-- Only integers lie beyond the binary range. -/
theorem isOrdered_of_beyondReal (h : n.beyondReal = true) : n.IsOrdered := by
  cases n with
  | int k => exact isOrdered_int k
  | real x => simp [beyondReal] at h

end Number

namespace FieldSpec

/-- The number is one of the choices, if there are any, and lies within the bounds. -/
structure Admits (f : FieldSpec) (n : Number) : Prop where
  choice : f.choices = [] ∨ ∃ c ∈ f.choices, ∃ m ∈ c.number?, (n == m) = true
  minimum : ∀ low ∈ f.minimum, low ≤ n
  maximum : ∀ high ∈ f.maximum, n ≤ high
  above : ∀ bound ∈ f.above, bound < n

/-- Choices and bounds can be shown and compared, choices make bounds needless, and a range that is
closed on both sides needs no other bound. -/
structure Regular (f : FieldSpec) : Prop where
  minimum : ∀ low ∈ f.minimum, low.beyondReal = false ∧ low.IsOrdered
  maximum : ∀ high ∈ f.maximum, high.beyondReal = false ∧ high.IsOrdered
  above : ∀ bound ∈ f.above, bound.beyondReal = false ∧ bound.IsOrdered
  choices : ∀ c ∈ f.choices, ∀ m ∈ c.number?, m.beyondReal = false
  apart : f.choices = [] ∨ f.minimum = none ∧ f.maximum = none ∧ f.above = none
  closed : f.minimum = none ∨ f.maximum = none ∨ f.above = none

instance (f : FieldSpec) : Decidable f.Regular :=
  decidable_of_iff
    ((∀ low ∈ f.minimum, low.beyondReal = false ∧ low.IsOrdered) ∧
      (∀ high ∈ f.maximum, high.beyondReal = false ∧ high.IsOrdered) ∧
      (∀ bound ∈ f.above, bound.beyondReal = false ∧ bound.IsOrdered) ∧
      (∀ c ∈ f.choices, ∀ m ∈ c.number?, m.beyondReal = false) ∧
      (f.choices = [] ∨ f.minimum = none ∧ f.maximum = none ∧ f.above = none) ∧
      (f.minimum = none ∨ f.maximum = none ∨ f.above = none))
    ⟨fun ⟨h₁, h₂, h₃, h₄, h₅, h₆⟩ => ⟨h₁, h₂, h₃, h₄, h₅, h₆⟩,
      fun h => ⟨h.1, h.2, h.3, h.4, h.5, h.6⟩⟩

/-- What a check may say of a number: nothing, or one problem that shows the number. A number that
cannot be compared passes some checks and not others. -/
inductive Judges (f : FieldSpec) (n : Number) : Problems → Prop
  | silent (h : n.IsOrdered → f.Admits n) : Judges f n (.ok [])
  | shown (h : n.IsOrdered → ¬f.Admits n) (msg : String → String) :
      Judges f n (n.general.map fun s => [msg s])

variable {f : FieldSpec} {key : String} {n : Number}

/-- A problem that shows a bound as well shows the number. -/
theorem Judges.bound {b : Number} (h : n.IsOrdered → ¬f.Admits n) (hb : b.beyondReal = false)
    (msg : String → String → String) :
    f.Judges n (do .ok [msg (← b.general) (← n.general)]) := by
  have hshown := Judges.shown h (msg b.toReal.general)
  rw [Number.general_eq_ok hb]
  revert hshown
  cases n.general <;> exact id

theorem any_choice_iff :
    (f.choices.any fun c => (c.number?.map (n == ·)).getD false) = true ↔
      ∃ c ∈ f.choices, ∃ m ∈ c.number?, (n == m) = true := by
  rw [List.any_eq_true]
  refine exists_congr fun c => and_congr_right fun _ => ?_
  cases c.number? <;> simp

theorem judges_choiceProblem (h : f.Regular) (hn : ¬f.Admits n) :
    f.Judges n (choiceProblem key f.choices n) := by
  rw [choiceProblem]
  generalize hshown : (f.choices.mapM _ : Except Fault (List String)) = shown
  have hok : shown.isOk = true := by
    rw [← hshown, Outcome.isOk_mapM]
    intro c hc
    split
    · rename_i m hm
      rw [Number.isOk_general, h.choices c hc m hm]
      rfl
    · rfl
  obtain ⟨names, rfl⟩ := Outcome.isOk_iff.mp hok
  have hproblem := Judges.shown (fun _ => hn)
    fun s => key ++ " must be one of: " ++ ", ".intercalate names ++ " (got " ++ s ++ ")"
  revert hproblem
  cases n.general <;> exact id

/-- Bounds that are not seen to be crossed admit a number that can be compared. -/
theorem admits_of_bounds (h : f.Regular) (hnil : f.choices = []) (hn : n.IsOrdered)
    (hlow : ∀ low ∈ f.minimum, ¬n < low) (hhigh : ∀ high ∈ f.maximum, ¬high < n)
    (habove : ∀ bound ∈ f.above, ¬n ≤ bound) : f.Admits n where
  choice := .inl hnil
  minimum low hmem := (Number.not_lt_iff hn (h.minimum low hmem).2).mp (hlow low hmem)
  maximum high hmem := (Number.not_lt_iff (h.maximum high hmem).2 hn).mp (hhigh high hmem)
  above bound hmem := (Number.not_le_iff hn (h.above bound hmem).2).mp (habove bound hmem)

/-- **The check of a number.** It is silent on a number that the parameter admits, and shows any
other one. -/
theorem judges_rangeProblems (h : f.Regular) : f.Judges n (f.rangeProblems key n) := by
  rw [rangeProblems]
  split_ifs with hchoices hfound
  · obtain ⟨hlow, hhigh, habove⟩ := h.apart.resolve_left (by simpa using hchoices)
    refine .silent fun _ => ⟨.inr (any_choice_iff.mp hfound), ?_, ?_, ?_⟩ <;> simp [*]
  · refine judges_choiceProblem h fun hn => hfound (any_choice_iff.mpr ?_)
    exact hn.choice.resolve_left (by simpa using hchoices)
  · have hnil : f.choices = [] := by simpa using hchoices
    split
    · rename_i low high hlow hhigh
      split_ifs with hin
      · have habove := (h.closed.resolve_left (by simp [hlow])).resolve_left (by simp [hhigh])
        refine .silent fun _ => ⟨.inl hnil, ?_, ?_, ?_⟩ <;> simp [*]
      · rw [Number.general_eq_ok (h.minimum low hlow).1]
        exact .bound (fun _ hn => hin ⟨hn.minimum low hlow, hn.maximum high hhigh⟩)
          (h.maximum high hhigh).1 fun s t =>
            key ++ " must be between " ++ low.toReal.general ++ " and " ++ s ++ " (got " ++ t ++ ")"
    · split
      · rename_i low hlow
        obtain ⟨hlow, hlt⟩ := Option.filter_eq_some_iff.mp hlow
        refine .bound (fun hn hadm => ?_) (h.minimum low hlow).1 fun s t =>
          key ++ " must be >= " ++ s ++ " (got " ++ t ++ ")"
        exact (Number.not_lt_iff hn (h.minimum low hlow).2).mpr (hadm.minimum low hlow)
          (of_decide_eq_true hlt)
      · rename_i high hhigh _
        obtain ⟨hhigh, hlt⟩ := Option.filter_eq_some_iff.mp hhigh
        refine .bound (fun hn hadm => ?_) (h.maximum high hhigh).1 fun s t =>
          key ++ " must be <= " ++ s ++ " (got " ++ t ++ ")"
        exact (Number.not_lt_iff (h.maximum high hhigh).2 hn).mpr (hadm.maximum high hhigh)
          (of_decide_eq_true hlt)
      · rename_i bound hbound _ _
        obtain ⟨hbound, hle⟩ := Option.filter_eq_some_iff.mp hbound
        refine .bound (fun hn hadm => ?_) (h.above bound hbound).1 fun s t =>
          key ++ " must be greater than " ++ s ++ " (got " ++ t ++ ")"
        exact (Number.not_le_iff hn (h.above bound hbound).2).mpr (hadm.above bound hbound)
          (of_decide_eq_true hle)
      · rename_i hlow hhigh habove
        refine .silent fun hn => admits_of_bounds h hnil hn ?_ ?_ ?_
        · exact fun low hmem hlt =>
            hlow low (Option.filter_eq_some_iff.mpr ⟨hmem, decide_eq_true hlt⟩)
        · exact fun high hmem hlt =>
            hhigh high (Option.filter_eq_some_iff.mpr ⟨hmem, decide_eq_true hlt⟩)
        · exact fun bound hmem hle =>
            habove bound (Option.filter_eq_some_iff.mpr ⟨hmem, decide_eq_true hle⟩)

theorem Judges.isOk_iff {p : Problems} (h : f.Judges n p) :
    p.isOk = true ↔ (n.beyondReal = true → f.Admits n) := by
  cases h with
  | silent hadm => exact iff_of_true rfl fun hn => hadm (Number.isOrdered_of_beyondReal hn)
  | shown hadm msg =>
      rw [Outcome.isOk_map, Number.isOk_general, Bool.not_eq_true']
      constructor
      · intro hshown hn
        rw [hshown] at hn
        exact absurd hn Bool.false_ne_true
      · intro hbeyond
        by_contra hn
        rw [Bool.not_eq_false] at hn
        exact hadm (Number.isOrdered_of_beyondReal hn) (hbeyond hn)

/-- The check gives a result unless it has to show an integer beyond the binary range. -/
theorem isOk_rangeProblems (h : f.Regular) :
    (f.rangeProblems key n).isOk = true ↔ (n.beyondReal = true → f.Admits n) :=
  (judges_rangeProblems h).isOk_iff

end FieldSpec

theorem regular_of_mem_checkedFields {k : Kind} : ∀ f ∈ checkedFields k, f.Regular := by
  cases k <;> decide +kernel

end Montage
