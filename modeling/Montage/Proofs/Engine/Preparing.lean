import Montage.Engine.Prepare
import Montage.Proofs.Catalog.Checkable
import Montage.Proofs.Catalog.Cleaning

/-!
# Preparing agrees with checking

A request is checked before its operation is built, and what is built reads the same parameters in
its own way. Both agree on a request if it can be checked and, should it be accepted, its operation
can be built.

## Main definitions

* `Buildable`: the operation of an edit with these parameters can be built.
* `Request.Agrees`: a request is prepared if it is accepted, and refused otherwise.

## Main statements

* `exists_cleaned`: accepted parameters are cleaned, and built after that if they are buildable.
* `agrees_iff`: when preparing agrees with checking.
-/
namespace Montage

/-- The operation of an edit with these parameters can be built: the times of its window are there
and in order, unless the times describe the edit itself, and its numbers are there. -/
structure Buildable (k : Kind) (fs : Fields) : Prop where
  window : k.isBounded = false → fs.HasWindow
  numbers : k.HasNumbers fs

/-- The request is refused. -/
def Failure.IsRefusal (f : Failure) : Prop := ∃ e, f = .edit e ∧ e.kind.isValidation = true

/-- An operation is prepared for the request just if the check finds no problem, and otherwise the
request is refused. -/
structure Request.Agrees (r : Request) : Prop where
  accepts : (∃ o, r.prepare = .ok o) ↔ r.problems = .ok []
  refuses : ∀ f, r.prepare = .error f → f.IsRefusal

variable {k : Kind} {fs gs : Fields} {i : Instruction}

theorem Operation.isOk_ofFields
    (hstart : k.isBounded = false → ∀ x, (fs.get "startTime").toReal = .ok x → 0 ≤ x.place)
    (hfinish : k.isBounded = false →
      ∀ y, (fs.get "endTime").toReal = .ok y → y = .nan ∨ 0 < y.place) :
    (Operation.ofFields k fs none).isOk = true ↔ Buildable k fs := by
  rw [Operation.ofFields]
  cases hk : k.isBounded with
  | true =>
      simp only [Option.isNone_none, Bool.not_true, Bool.and_false, Bool.false_eq_true, if_false]
      rw [Outcome.isOk_bind_bind fun _ _ => rfl, Outcome.isOk_ok, Bool.true_and, Edit.isOk_ofFields]
      refine ⟨fun h => ⟨fun hbounded => ?_, h⟩, Buildable.numbers⟩
      exact absurd (hk.symm.trans hbounded) Bool.false_ne_true.symm
  | false =>
      simp only [Option.isNone_none, Bool.not_false, Bool.and_true, if_true]
      rw [Outcome.isOk_bind_bind fun _ _ => rfl, Bool.and_eq_true, Edit.isOk_ofFields,
        Window.isOk_ofFields (hstart hk) (hfinish hk)]
      exact ⟨fun h => ⟨fun _ => h.1, h.2⟩, fun h => ⟨h.window hk, h.numbers⟩⟩

theorem Fields.Alike.hasWindow_iff (h : fs.Alike k gs) : gs.HasWindow ↔ fs.HasWindow := by
  have hiff : ∀ fs gs : Fields, gs.get "startTime" = fs.get "startTime" →
      gs.get "endTime" = fs.get "endTime" → fs.HasWindow → gs.HasWindow := by
    intro fs gs hstart hfinish hw
    exact ⟨by rw [HasTime, hstart]; exact hw.start, by rw [HasTime, hfinish]; exact hw.finish,
      by rw [hstart, hfinish]; exact hw.order⟩
  exact ⟨hiff gs fs h.start.symm h.finish.symm, hiff fs gs h.start h.finish⟩

theorem Fields.Alike.buildable_iff (h : fs.Alike k gs) : Buildable k gs ↔ Buildable k fs :=
  ⟨fun hb => ⟨fun hk => h.hasWindow_iff.mp (hb.window hk), h.numbers.mp hb.numbers⟩,
    fun hb => ⟨fun hk => h.hasWindow_iff.mpr (hb.window hk), h.numbers.mpr hb.numbers⟩⟩

/-- Accepted parameters are cleaned, and built after that if they are buildable. -/
theorem exists_cleaned (h : fieldProblems k fs = .ok []) :
    ∃ gs, sanitizeParams k fs = .ok gs ∧
      ((Operation.ofFields k gs none).isOk = true ↔ Buildable k fs) := by
  obtain ⟨gs, hgs, halike⟩ := exists_sanitizeParams h
  refine ⟨gs, hgs, ?_⟩
  rw [Operation.isOk_ofFields, halike.buildable_iff]
  · exact fun hk x hx => place_startTime_nonneg hk h (halike.start ▸ hx)
  · exact fun hk y hy => endTime_after_zero hk h (halike.finish ▸ hy)

namespace Request

theorem problems_typed :
    (typed i).problems =
      ((instructionProblems i).mapError Failure.fault).map fun ps => ps.map Value.string := rfl

theorem agrees_of_refusal {r : Request} {e : EditError} (h : r.prepare = .error (.edit e))
    (he : e.kind.isValidation = true) (hproblems : r.problems ≠ .ok []) : r.Agrees where
  accepts := iff_of_false (fun ⟨_, ho⟩ => absurd (ho.symm.trans h) nofun) hproblems
  refuses _ hf := ⟨e, Except.error.inj (hf.symm.trans h), he⟩

/-- The request that an object describes is checked and prepared as such. -/
theorem agrees_untyped_iff (h : Instruction.ofFields fs = .ok i) :
    (untyped (.object fs)).Agrees ↔ (typed i).Agrees := by
  have hinstruction : (untyped (.object fs)).instruction = .ok i := by
    rw [instruction, h]
    rfl
  have hprepare : (untyped (.object fs)).prepare = (typed i).prepare := by
    rw [prepare, prepare, hinstruction]
    rfl
  have hproblems : (untyped (.object fs)).problems = (typed i).problems := by
    rw [problems, problems, hinstruction]
    rfl
  constructor
  · rintro ⟨haccepts, hrefuses⟩
    rw [hprepare] at haccepts hrefuses
    exact ⟨hproblems ▸ haccepts, hrefuses⟩
  · rintro ⟨haccepts, hrefuses⟩
    rw [← hprepare] at haccepts hrefuses
    exact ⟨hproblems ▸ haccepts, hrefuses⟩

end Request

section

variable (hkind : Kind.ofValue? i.operation = some k) (hparams : i.params = .object fs)

include hkind hparams

theorem instructionProblems_eq :
    instructionProblems i = (do
      let found ← fieldProblems k fs
      match found with
      | [] =>
        if i.resource = .image ∧ k.needsTimeline then
          .ok [k.name ++ " cannot be applied to an image"]
        else .ok []
      | found => .ok found) := by
  simp only [instructionProblems, problems]
  rw [hkind, hparams]
  simp only
  congr 1
  funext found
  cases found <;> rfl

theorem isOk_instructionProblems : (instructionProblems i).isOk = true ↔ Checkable k fs := by
  rw [instructionProblems_eq hkind hparams, ← isOk_fieldProblems, Outcome.isOk_bind_of_forall]
  intro found
  cases found with
  | nil =>
      dsimp only
      split_ifs <;> rfl
  | cons p ps => rfl

theorem fieldProblems_of_accepted (h : instructionProblems i = .ok []) :
    fieldProblems k fs = .ok [] := by
  rw [instructionProblems_eq hkind hparams] at h
  obtain ⟨found, hfound, hrest⟩ := Outcome.bind_eq_ok.mp h
  cases found with
  | nil => exact hfound
  | cons p ps => cases hrest

/-- An accepted request is prepared if its operation can be built. -/
theorem exists_prepare (h : instructionProblems i = .ok []) :
    (∃ o, i.prepare = .ok o) ↔ Buildable k fs := by
  have hparse : Kind.parse i.operation = .ok k := by rw [Kind.parse, hkind]
  obtain ⟨gs, hgs, hbuilt⟩ := exists_cleaned (fieldProblems_of_accepted hkind hparams h)
  rw [← hbuilt, Instruction.prepare, hparse, h, hparams]
  simp only [Outcome.mapError_ok, bind, Except.bind, Request.paramFields, hgs]
  cases Operation.ofFields k gs none with
  | ok o => exact iff_of_true ⟨o, rfl⟩ rfl
  | error f =>
      refine iff_of_false ?_ Bool.false_ne_true
      rintro ⟨o, ho⟩
      dsimp only at ho
      split_ifs at ho

theorem agrees_typed_iff :
    (Request.typed i).Agrees ↔
      Checkable k fs ∧ (instructionProblems i = .ok [] → Buildable k fs) := by
  have hparse : Kind.parse i.operation = .ok k := by rw [Kind.parse, hkind]
  rw [← isOk_instructionProblems hkind hparams]
  cases hproblems : instructionProblems i with
  | error f =>
      have hprepare : i.prepare = .error (.fault f) := by
        rw [Instruction.prepare, hparse, hproblems]
        rfl
      refine iff_of_false (fun h => ?_) fun h => Bool.false_ne_true h.1
      obtain ⟨e, he, -⟩ := h.refuses _ hprepare
      cases he
  | ok found =>
      cases found with
      | nil =>
          have hbuild := exists_prepare hkind hparams hproblems
          have haccepted : (Request.typed i).problems = .ok [] := by
            rw [Request.problems_typed, hproblems]
            rfl
          refine ⟨fun h => ⟨rfl, fun _ => hbuild.mp (h.accepts.mpr haccepted)⟩, fun h => ?_⟩
          obtain ⟨o, ho⟩ := hbuild.mpr (h.2 rfl)
          refine ⟨iff_of_true ⟨o, ho⟩ haccepted, fun f hf => ?_⟩
          cases ho.symm.trans hf
      | cons p ps =>
          have hprepare : i.prepare = .error (.edit (refusalOf (p :: ps))) := by
            rw [Instruction.prepare, hparse, hproblems]
            rfl
          have hrefused : (Request.typed i).problems ≠ .ok [] := by
            rw [Request.problems_typed, hproblems]
            rintro ⟨⟩
          refine iff_of_true (Request.agrees_of_refusal hprepare rfl hrefused) ⟨rfl, ?_⟩
          rintro ⟨⟩

end

/-- An object describes a request with an object for its parameters, or is refused with one
problem. -/
theorem Instruction.ofFields_cases (fs : Fields) :
    (∃ msg, Instruction.ofFields fs = .error (.malformed msg)) ∨
      ∃ i ps, Instruction.ofFields fs = .ok i ∧ i.params = .object ps := by
  rw [Instruction.ofFields]
  split
  · exact .inl ⟨_, rfl⟩
  · dsimp only
    split
    · exact .inr ⟨_, _, rfl, rfl⟩
    · split_ifs
      · exact .inl ⟨_, rfl⟩
      · exact .inr ⟨_, _, rfl, rfl⟩

theorem agrees_of_malformed {msg : String} (h : Instruction.ofFields fs = .error (.malformed msg)) :
    (Request.untyped (.object fs)).Agrees := by
  have hinstruction : (Request.untyped (.object fs)).instruction =
      .error (.edit (.malformed msg)) := by
    rw [Request.instruction, h]
    rfl
  have hprepare : (Request.untyped (.object fs)).prepare = .error (.edit (.malformed msg)) := by
    rw [Request.prepare, hinstruction]
    rfl
  refine Request.agrees_of_refusal hprepare rfl ?_
  rw [Request.problems, hinstruction]
  exact nofun

theorem agrees_of_unknown (h : Kind.ofValue? i.operation = none) : (Request.typed i).Agrees := by
  have hprepare : i.prepare = .error (.edit (.unknownOperation i.operation)) := by
    rw [Instruction.prepare, Kind.parse, h]
    rfl
  refine Request.agrees_of_refusal hprepare rfl ?_
  rw [Request.problems_typed]
  simp only [instructionProblems, problems]
  rw [h]
  rintro ⟨⟩

end Montage
