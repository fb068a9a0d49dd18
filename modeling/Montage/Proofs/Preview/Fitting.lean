import Montage.Proofs.Filter.Fitting
import Montage.Proofs.Preview.Windows

/-!
# Edits that fit the preview service

The steps of an edit are written as part of a URL, which has codes for some parameters only. The
steps of most edits have no other parameters, but a colour grade of the settings may list steps of
its own, and name a curve or a colour that cannot be looked up. A size of text that the check has
read without the blanks around it may be unreadable with them. Previewing such an edit is a fault,
and previewing any other edit is none.

## Main definitions

* `Studio.PreviewFits`: the edits whose preview is no fault.
* `Grade.Shows`: the colour grades that have steps.
* `Fields.IsStep`: the steps that a URL has codes for.

## Main statements

* `Studio.contained_previewOperation_iff`: previewing a checked operation yields steps or is refused
  just if its edit fits.
-/
namespace Montage

open Montage.Action

/-! ## What has to fit -/

/-- Every parameter of the step has a code. -/
def Fields.IsStep (step : Fields) : Prop := ∀ f ∈ step, (stepCodes.lookup f.1).isSome = true

instance (step : Fields) : Decidable step.IsStep := inferInstanceAs (Decidable (∀ f ∈ step, _))

/-- The colour of a colour cast is one that the preview service takes. -/
def Tint.IsShown : Tint → Prop
  | .none => True
  | .cast color _ => (serviceColor color).isOk = true
  | .unreadable v => v.isTruthy = false

/-- The colour grade has steps: those that it lists can be written, or its curve can be looked up
and its colour cast is shown. -/
def Grade.Shows (g : Grade) : Prop :=
  match g.preview with
  | some listed => ∀ v ∈ listed, ∃ step, v.asFields = .ok step ∧ Fields.IsStep step
  | none => (g.curve.isTruthy = true → g.curve.isHashable = true) ∧ g.tint.IsShown

/-- A grade that is weakened or strengthened has a colour cast that can be read, and the grade has
steps. -/
structure GradeParams.PreviewFits (g : Grade) (p : GradeParams) : Prop where
  scaled : ∀ x ∈ p.intensity, (x == 1) = false → g.tint.IsReadable
  shows : g.Shows

/-- A size in digits writes an integer, together with the blanks around it. -/
def TextParams.PreviewFits (p : TextParams) : Prop :=
  ∀ t, p.size = .string t → Text.allDigits t.strip.toList = true → (Numeral.integer t).isOk = true

/-- The edits that a studio previews without a fault. -/
def Studio.PreviewFits (s : Studio) : Edit → Prop
  | .colorGrade p => p.PreviewFits (s.looks.grade (.string p.preset)).look
  | .addText p | .customText p => p.PreviewFits
  | _ => True

/-! ## Steps in a URL -/

theorem isOk_stepPart_iff {f : String × Value} :
    (stepPart f).isOk = true ↔ (stepCodes.lookup f.1).isSome = true := by
  rw [stepPart]
  cases stepCodes.lookup f.1 <;> simp

/-- The steps can be written just if all their parameters have codes. -/
theorem Descriptor.isOk_path_iff {d : Descriptor} :
    d.path.isOk = true ↔ ∀ step ∈ d.steps, step.IsStep := by
  have hstep : ∀ step : Fields, (stepText step).isOk = true ↔ step.IsStep := by
    intro step
    rw [stepText, Outcome.isOk_bind_of_forall fun _ => rfl, Outcome.isOk_mapM]
    exact forall₂_congr fun f _ => isOk_stepPart_iff
  rw [path, Outcome.isOk_bind_of_forall fun _ => rfl, Outcome.isOk_mapM]
  exact forall₂_congr fun step _ => hstep step

theorem Fields.isStep_append {fs gs : Fields} : IsStep (fs ++ gs) ↔ fs.IsStep ∧ gs.IsStep :=
  List.forall_mem_append

theorem isStep_effectStep (effect : String) : (effectStep effect).IsStep :=
  List.forall_mem_singleton.mpr rfl

theorem isStep_of_effectSteps {names : List String} :
    ∀ step ∈ effectSteps names, step.IsStep := by
  rw [effectSteps, List.forall_mem_map]
  exact fun name _ => isStep_effectStep name

/-- Effects of the catalogue have steps with codes. -/
theorem isStep_of_steps {e : Effect} {steps : List Fields}
    (h : e ∈ neutralEffect :: (effects ++ filters)) (hsteps : e.steps = .ok steps) :
    ∀ step ∈ steps, step.IsStep := by
  have hall : ∀ e ∈ neutralEffect :: (effects ++ filters), ∀ steps ∈ e.preview,
      ∀ step ∈ steps, step.IsStep := by decide +kernel
  rw [Effect.steps] at hsteps
  split at hsteps
  · next listed hlisted => exact Except.ok.inj hsteps ▸ hall e h listed hlisted
  · cases hsteps

theorem forall_mem_ite {c : Prop} [Decidable c] {xs ys : List Fields} {P : Fields → Prop}
    (hx : ∀ step ∈ xs, P step) (hy : ∀ step ∈ ys, P step) :
    ∀ step ∈ (if c then xs else ys), P step := by
  split_ifs <;> assumption

/-! ## Colour grades -/

theorem Tint.isShown_scaled {t t' : Tint} {x : Binary64} (h : t.scaled (.real x) = .ok t') :
    t'.IsShown ↔ t.IsShown := by
  cases t with
  | none =>
      obtain rfl := Except.ok.inj h
      rfl
  | cast color strength =>
      obtain rfl := Except.ok.inj h
      rfl
  | unreadable v =>
      rw [scaled] at h
      split_ifs at h with htruthy
      obtain rfl := Except.ok.inj h
      exact iff_of_true trivial (Bool.eq_false_iff.mpr htruthy)

namespace Grade

variable {g g' : Grade}

/-- A grade keeps the colour of its cast when it is scaled. -/
theorem shows_scaled {intensity : Option Binary64} (h : g.scaled (intensity.map .real) = .ok g') :
    g'.Shows ↔ g.Shows := by
  rcases eq_or_tint_of_scaled h with rfl | ⟨x, ht, hpreview, hcurve⟩
  · rfl
  · simp only [Shows, hpreview, hcurve, Tint.isShown_scaled ht]

theorem isStep_changeSteps {effect : String} {n : Number} :
    ∀ step ∈ changeSteps effect n, step.IsStep := by
  rw [changeSteps]
  split_ifs
  · exact List.forall_mem_nil _
  · exact List.forall_mem_singleton.mpr (isStep_effectStep _)

/-- A curve has steps unless it is a value that cannot be looked up. -/
theorem isOk_curveSteps_iff {curve : Value} :
    (curveSteps curve).isOk = true ↔ (curve.isTruthy = true → curve.isHashable = true) := by
  unfold curveSteps
  cases htruthy : curve.isTruthy with
  | false => exact iff_of_true rfl nofun
  | true =>
      cases hhash : curve.isHashable with
      | false => exact iff_of_false Bool.false_ne_true (Bool.false_ne_true <| · rfl)
      | true =>
          refine iff_of_true ?_ fun _ => rfl
          cases curve <;> rfl

theorem isStep_of_curveSteps {curve : Value} {steps : List Fields}
    (h : curveSteps curve = .ok steps) : ∀ step ∈ steps, step.IsStep := by
  unfold curveSteps at h
  split_ifs at h
  · obtain rfl := Except.ok.inj h
    exact List.forall_mem_nil _
  · split at h
    · obtain rfl := Except.ok.inj h
      exact isStep_of_effectSteps
    · obtain rfl := Except.ok.inj h
      exact List.forall_mem_nil _

theorem isOk_tintSteps_iff {t : Tint} : (tintSteps t).isOk = true ↔ t.IsShown := by
  cases t with
  | none => exact iff_of_true rfl trivial
  | cast color strength => rw [tintSteps, Outcome.isOk_bind_of_forall fun _ => rfl, Tint.IsShown]
  | unreadable v =>
      rw [tintSteps, Tint.IsShown]
      cases v.isTruthy <;> simp

theorem isStep_of_tintSteps {t : Tint} {steps : List Fields} (h : tintSteps t = .ok steps) :
    ∀ step ∈ steps, step.IsStep := by
  cases t with
  | none =>
      obtain rfl := Except.ok.inj h
      exact List.forall_mem_nil _
  | cast color strength =>
      obtain ⟨c, -, h⟩ := Outcome.bind_eq_ok.mp h
      obtain rfl := Except.ok.inj h
      refine List.forall_mem_singleton.mpr (Fields.isStep_append.mpr ⟨isStep_effectStep _, ?_⟩)
      exact List.forall_mem_singleton.mpr rfl
  | unreadable v =>
      rw [tintSteps] at h
      split_ifs at h
      obtain rfl := Except.ok.inj h
      exact List.forall_mem_nil _

/-- **A grade has steps that can be written** just if it shows. -/
theorem shows_iff : (∃ steps, g.steps = .ok steps ∧ ∀ step ∈ steps, step.IsStep) ↔ g.Shows := by
  rw [steps, Shows]
  cases g.preview with
  | some listed => exact Outcome.exists_mapM_forall
  | none =>
      dsimp only
      rw [← isOk_curveSteps_iff, ← isOk_tintSteps_iff, Outcome.isOk_iff, Outcome.isOk_iff]
      constructor
      · rintro ⟨steps, hsteps, -⟩
        obtain ⟨curve, hcurve, hsteps⟩ := Outcome.bind_eq_ok.mp hsteps
        obtain ⟨tint, htint, -⟩ := Outcome.bind_eq_ok.mp hsteps
        exact ⟨⟨curve, hcurve⟩, tint, htint⟩
      · rintro ⟨⟨curve, hcurve⟩, tint, htint⟩
        -- The steps have codes, part by part, in the order in which the parts are appended.
        refine ⟨_, Outcome.bind_eq_ok.mpr ⟨curve, hcurve, Outcome.bind_eq_ok.mpr
          ⟨tint, htint, rfl⟩⟩, ?_⟩
        have hnone : ∀ step ∈ ([] : List Fields), step.IsStep := List.forall_mem_nil _
        have hone : ∀ effect, ∀ step ∈ [effectStep effect], step.IsStep := fun effect =>
          List.forall_mem_singleton.mpr (isStep_effectStep effect)
        have hchange : ∀ effect n, ∀ step ∈ changeSteps effect n, step.IsStep := fun _ _ =>
          isStep_changeSteps
        simp only [List.forall_mem_append]
        refine ⟨⟨⟨⟨⟨⟨⟨⟨?_, isStep_of_curveSteps hcurve⟩, ?_⟩, hchange _ _⟩, hchange _ _⟩, ?_⟩,
          hchange _ _⟩, hchange _ _⟩, isStep_of_tintSteps htint⟩
        · exact forall_mem_ite (hone _) hnone
        · exact forall_mem_ite (hone _) hnone
        · exact forall_mem_ite hnone (hchange _ _)

end Grade

/-! ## Texts -/

theorem Value.IsTextSize.isOk_previewSize_iff {v : Value} (h : v.IsTextSize) :
    (previewSize v).isOk = true ↔
      ∀ t, v = .string t → Text.allDigits t.strip.toList = true →
        (Numeral.integer t).isOk = true := by
  have hclamped : ∀ v : Value, (previewSize.clamped v).isOk = v.toInt.isOk := fun v => by
    rw [previewSize.clamped, Outcome.isOk_map]
  unfold previewSize
  split
  · exact iff_of_true rfl nofun
  · next t =>
    split_ifs with hdigits
    · rw [hclamped, Value.toInt]
      constructor
      · rintro hok _ ⟨⟩ -
        exact hok
      · exact fun hread => hread t rfl hdigits
    · refine iff_of_true (by split <;> rfl) ?_
      rintro _ ⟨⟩ hread
      exact absurd hread hdigits
  · next hnull hstring =>
    refine iff_of_true ?_ fun t ht => absurd ht (hstring t)
    rw [hclamped]
    cases v with
    | number n => exact h.isOk_toInt n rfl
    | null => exact absurd rfl hnull
    | string t => exact absurd rfl (hstring t)
    | _ => cases h

theorem isOk_colorPart {key t notice : String} {fallback : Fields} :
    (colorPart key (.string t) fallback notice).isOk = true := by
  rw [colorPart]
  cases serviceColor t <;> rfl

theorem Window.HasReals.isOk_windowParts {window : Option Window} (h : ∀ w ∈ window, w.HasReals) :
    (windowParts window).isOk = true := by
  cases window with
  | none => rfl
  | some w =>
      obtain ⟨start, finish⟩ := w
      obtain ⟨⟨x, rfl⟩, hfinish⟩ := h _ rfl
      cases finish with
      | none => rfl
      | some e =>
          obtain ⟨y, rfl⟩ := hfinish e rfl
          rfl

theorem isStep_windowParts {window : Option Window} {parts : Fields}
    (h : windowParts window = .ok parts) : parts.IsStep := by
  rw [windowParts_eq_ok h]
  refine Fields.isStep_append.mpr ⟨?_, ?_⟩
  · cases window with
    | none => exact List.forall_mem_nil _
    | some w => exact List.forall_mem_singleton.mpr rfl
  · cases window.bind Window.finish with
    | none => exact List.forall_mem_nil _
    | some e => exact List.forall_mem_singleton.mpr rfl

variable {σ : Session}

theorem hinges_gravity {position inset : Value} : (gravity position inset).Hinges σ True := by
  unfold gravity
  dsimp only
  split
  · exact hinges_pure
  · exact hinges_warn.after fun _ _ _ _ => hinges_pure

namespace Studio

variable {s : Studio} {p : TextParams} {window : Option Window}

/-- **A text** has steps just if its size can be read. -/
theorem hinges_previewText (h : p.IsChecked) (hw : ∀ w ∈ window, w.HasReals) :
    (s.previewText p window).Hinges σ p.PreviewFits := by
  refine ((hinges_ofFault.congr h.size.isOk_previewSize_iff).andThen fun size σ₁ => ?_)
  refine (hinges_ofFault_of_isOk (isOk_isBold h.style)).after ?_
  intro bold σ₂ _ _
  refine (hinges_ofFault_of_isOk isOk_colorPart).after ?_
  rintro ⟨color, colors⟩ σ₃ - -
  dsimp -zeta only
  extract_lets inset rest
  have hrest : ∀ back σ₄, (rest back).Hinges σ₄ True := fun back σ₄ => by
    refine hinges_gravity.after ?_
    intro place σ₅ _ _
    exact (hinges_ofFault_of_isOk (Window.HasReals.isOk_windowParts hw)).after fun _ _ _ _ =>
      hinges_pure
  split_ifs with htruthy
  · obtain ⟨t, ht, -⟩ := h.background.exists_string htruthy
    rw [ht]
    exact (hinges_ofFault_of_isOk isOk_colorPart).after fun back σ₄ _ _ => hrest back σ₄
  · exact hrest _ _

/-- The steps of a text can be written. -/
theorem PreviewsText.isStep {r : List Fields × List String} (h : PreviewsText s p window r) :
    ∀ step ∈ r.1, step.IsStep := by
  obtain @⟨size, bold, color, back, anchor, bounds, hsize, hcolor, hback, hanchor, hbounds⟩ := h
  have hcolors : Fields.IsStep color.1 := fun f hf => by
    rw [keys_colorPart (by simp) hcolor f hf]
    rfl
  have hbacks : Fields.IsStep back.1 := by
    split_ifs at hback
    · exact fun f hf => by
        rw [keys_colorPart (List.forall_mem_nil _) hback f hf]
        rfl
    · rw [hback]
      exact List.forall_mem_nil _
  have hplace : ∀ inset, Fields.IsStep (anchorStep anchor.1 anchor.2 inset) := fun inset f hf =>
    (by decide : ∀ key ∈ ["gravity", "x", "y"], (stepCodes.lookup key).isSome = true) f.1
      (keys_anchorStep f hf)
  refine List.forall_mem_cons.mpr ⟨?_, List.forall_mem_singleton.mpr ?_⟩
  · exact List.forall_mem_cons.mpr ⟨rfl, Fields.isStep_append.mpr ⟨hcolors, hbacks⟩⟩
  · exact List.forall_mem_cons.mpr
      ⟨rfl, Fields.isStep_append.mpr ⟨hplace _, isStep_windowParts hbounds⟩⟩

end Studio

/-! ## Edits and operations -/

theorem TrimParams.isStep (p : TrimParams) : p.step.IsStep := by
  refine List.forall_mem_cons.mpr ⟨rfl, ?_⟩
  cases p.finish with
  | none => exact List.forall_mem_nil _
  | some e => exact List.forall_mem_singleton.mpr rfl

theorem ZoomParams.isStep {p : ZoomParams} {steps : List Fields} (h : p.steps = .ok steps) :
    ∀ step ∈ steps, step.IsStep := by
  rw [ZoomParams.steps] at h
  split_ifs at h
  obtain rfl := Except.ok.inj h
  exact List.forall_mem_singleton.mpr (by simp [Fields.IsStep, stepCodes])

namespace Action

variable {a : Action (List Fields × List String)} {steps : List Fields} {notices : List String}
  {Q : Prop}

/-- In the session `σ` the action yields steps that can be written, with warnings, or refuses. -/
def Presents (a : Action (List Fields × List String)) (σ : Session) : Prop :=
  a.Contained σ ∧ ∀ r σ', a.exec σ = (.ok r, σ') → ∀ step ∈ r.1, step.IsStep

theorem presents_pure_iff : Presents (pure (steps, notices)) σ ↔ ∀ step ∈ steps, step.IsStep := by
  refine (and_iff_right contained_pure).trans ⟨fun h => h _ _ rfl, ?_⟩
  rintro h _ _ ⟨⟩
  exact h

theorem presents_refuse {e : EditError} : Presents (refuse e) σ := ⟨contained_refuse, nofun⟩

theorem presents_bind {α : Type} {a : Action α} {f : α → Action (List Fields × List String)} :
    (a >>= f).Presents σ ↔ a.Contained σ ∧ ∀ x σ', a.exec σ = (.ok x, σ') → (f x).Presents σ' := by
  rw [Presents, contained_bind, exec_bind]
  rcases h : a.exec σ with ⟨r, σ'⟩
  cases r with
  | error e => simp
  | ok x => simp [Presents, and_assoc]

/-- Steps that may be refused, with warnings. -/
theorem presents_ofEdit {r : Except EditError (List Fields)}
    (h : ∀ steps, r = .ok steps → ∀ step ∈ steps, step.IsStep) :
    Presents (ofEdit r >>= fun steps => pure (steps, notices)) σ := by
  refine presents_bind.mpr ⟨contained_ofEdit, fun steps σ' hsteps => presents_pure_iff.mpr ?_⟩
  exact h steps (Outcome.mapError_eq_ok.mp (congrArg Prod.fst hsteps))

/-- What may be a fault, and steps after it. -/
theorem presents_ofFault_iff {α : Type} {r : Except Fault α}
    {f : α → Action (List Fields × List String)} :
    (ofFault r >>= f).Presents σ ↔ ∃ x, r = .ok x ∧ (f x).Presents σ := by
  rw [presents_bind, hinges_ofFault.contained_iff]
  cases r with
  | error e => exact iff_of_false (fun h => Bool.false_ne_true h.1) nofun
  | ok x =>
      constructor
      · exact fun h => ⟨x, rfl, h.2 x σ rfl⟩
      · rintro ⟨_, ⟨⟩, h⟩
        refine ⟨rfl, ?_⟩
        rintro _ _ ⟨⟩
        exact h

theorem Hinges.presents_iff {P : Prop} (h : a.Hinges σ P)
    (hsteps : Returns a fun r => ∀ step ∈ r.1, step.IsStep) : a.Presents σ ↔ P := by
  rw [Presents, h.contained_iff]
  exact and_iff_left fun r σ' hr => hsteps σ r (congrArg Prod.fst hr)

end Action

namespace Studio

variable {s : Studio} {window : Option Window}

theorem presents_foundLook_iff {α : Type} {found : Found α} {Q : Prop}
    {f : α → Action (List Fields × List String)} (hf : ∀ σ', (f found.look).Presents σ' ↔ Q) :
    (foundLook found >>= f).Presents σ ↔ Q := by
  rw [presents_bind, and_iff_right (hinges_foundLook.contained_iff.mpr trivial)]
  obtain ⟨look, σ', hlook, -⟩ : ∃ look σ', (foundLook found).exec σ = (.ok look, σ') ∧
      σ'.files = σ.files := hinges_foundLook.yields trivial
  constructor
  · intro h
    exact (hf σ').mp (eq_of_foundLook hlook ▸ h look σ' hlook)
  · intro hQ look' σ'' hlook'
    rw [eq_of_foundLook hlook']
    exact (hf σ'').mpr hQ

theorem presents_effect {found : Found Effect}
    (h : found.look ∈ neutralEffect :: (effects ++ filters)) :
    (previewEdit.effect found).Presents σ :=
  (presents_foundLook_iff fun _ => iff_true_intro
    (presents_ofEdit fun _ hsteps => isStep_of_steps h hsteps)).mpr trivial

theorem presents_grade_iff {found : Found Grade} {p : GradeParams} {notices : List String} :
    (foundLook found >>= fun look => ofFault (look.scaled (p.intensity.map .real)) >>= fun g =>
      ofFault g.steps >>= fun steps => pure (steps, notices)).Presents σ ↔
        p.PreviewFits found.look := by
  have hsteps : ∀ (g : Grade) σ',
      (ofFault g.steps >>= fun steps => pure (steps, notices)).Presents σ' ↔ g.Shows := by
    intro g σ'
    simp only [presents_ofFault_iff, presents_pure_iff, Grade.shows_iff]
  refine presents_foundLook_iff ?_
  intro σ'
  simp only [presents_ofFault_iff, hsteps]
  constructor
  · rintro ⟨g, hg, hshows⟩
    exact ⟨Grade.isOk_scaled_iff.mp (Outcome.isOk_iff.mpr ⟨g, hg⟩),
      (Grade.shows_scaled hg).mp hshows⟩
  · rintro ⟨hscaled, hshows⟩
    obtain ⟨g, hg⟩ := Outcome.isOk_iff.mp (Grade.isOk_scaled_iff.mpr hscaled)
    exact ⟨g, hg, (Grade.shows_scaled hg).mpr hshows⟩

/-- **Previewing a checked edit** yields steps that can be written, or is refused, just if the edit
fits. -/
theorem presents_previewEdit_iff {e : Edit} (h : e.IsChecked) (hw : ∀ w ∈ window, w.HasReals) :
    (s.previewEdit window e).Presents σ ↔ s.PreviewFits e := by
  have hone : ∀ {step : Fields} {notices}, step.IsStep → Presents (pure ([step], notices)) σ :=
    fun hstep => presents_pure_iff.mpr (List.forall_mem_singleton.mpr hstep)
  cases e with
  | trim p => exact iff_of_true (hone p.isStep) trivial
  | removeClip p => exact iff_of_true presents_refuse trivial
  | colorGrade p => exact presents_grade_iff
  | applyEffect p =>
      refine iff_of_true (presents_effect ?_) trivial
      exact List.cons_subset_cons _ (List.subset_append_left _ _) (effectNamed_mem _)
  | addText p | customText p =>
      exact (hinges_previewText h hw).presents_iff (returns_previewText.mono fun _ => (·.isStep))
  | filter p =>
      refine iff_of_true (presents_effect ?_) trivial
      exact List.cons_subset_cons _ (List.subset_append_right _ _) (filterNamed_mem _)
  | addCaptions p => exact iff_of_true presents_refuse trivial
  | adjustIntensity p =>
      refine iff_of_true ?_ trivial
      simp only [previewEdit]
      split
      · next e he =>
        refine presents_ofEdit fun steps hsteps => isStep_of_steps ?_ hsteps
        split at he
        · simp [mem_effects_of_effect? he]
        · cases he
      · exact hone (isStep_effectStep _)
  | adjustZoom p => exact iff_of_true (presents_ofEdit fun _ => ZoomParams.isStep) trivial
  | adjustSpeed p => exact iff_of_true (hone (isStep_effectStep _)) trivial
  | rotate p => exact iff_of_true (hone (List.forall_mem_singleton.mpr rfl)) trivial
  | crop p =>
      exact iff_of_true (hone (by simp [Fields.IsStep, CropParams.step, stepCodes])) trivial

/-- **Previewing an operation** yields a descriptor or is refused just if its edit fits. -/
theorem contained_previewOperation_iff {o : Operation} {resource : Resource}
    (h : o.edit.IsChecked) (hw : ∀ w ∈ o.window, w.HasReals) :
    (s.previewOperation o resource).Contained σ ↔ s.PreviewFits o.edit := by
  have hpresents : (s.previewEdit o.window o.edit).Presents σ ↔ s.PreviewFits o.edit :=
    presents_previewEdit_iff h hw
  rw [← hpresents, Action.Presents, previewOperation, contained_bind]
  refine and_congr_right fun _ => forall₃_congr ?_
  intro r σ' _
  obtain ⟨steps, warnings⟩ := r
  extract_lets notices
  rw [← Descriptor.isOk_path_iff (d := ⟨o.kind, resource, steps, warnings ++ notices⟩)]
  refine Hinges.contained_iff (hinges_warnAll.after fun _ _ _ _ => ?_)
  exact hinges_ofFault.andThen fun _ _ => hinges_pure

/-- What is previewed is an operation that was built. -/
theorem preview_eq_ok_iff {kind : Value} {k : Kind} (h : Kind.ofValue? kind = some k)
    {fs : Fields} {window : Option Window} {resource : Resource} {d : Descriptor} :
    ((s.preview kind (.object fs) window resource).exec σ).1 = .ok d ↔
      ∃ o, Operation.ofFields k fs window = .ok o ∧
        ((s.previewOperation o resource).exec σ).1 = .ok d := by
  simp only [← operationOf_eq_ok_iff h]
  rw [preview, exec_bind, exec_ofFailure]
  cases operationOf kind (.object fs) window <;> simp

/-- The steps of a descriptor can be written. -/
theorem returns_previewOperation_path {o : Operation} {resource : Resource} :
    Returns (s.previewOperation o resource) fun d => d.path.isOk = true :=
  .after fun _ => .after fun _ => (returns_ofFault fun _ h => h).bind fun _ h =>
    .pure (Outcome.isOk_iff.mpr ⟨_, h⟩)

end Studio

end Montage
