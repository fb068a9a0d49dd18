import Montage.Catalog.Check
import Montage.Proofs.Preview.Separation
import Montage.Proofs.Preview.Windows

/-!
# Values in the steps of a preview

Most values are numbers, names of the service or encoded texts, and have no separators. Only the
colours of a text can bring one in: what follows a hash sign is not read, and the calls that give a
colour by its parts have commas.

## Main definitions

* `ArePlain`: the steps that can be read off a URL.
* `Edit.IsSafe`: the edits whose colours have no separators.

## Main statements

* `Studio.isPlainJust_previewEdit`: the steps of an edit are plain just if its colours are safe.
* `Studio.separates_iff_isSafe`: so the steps can be read off the URL just if the colours are safe.
-/
namespace Montage

/-! ## Values of built-in looks -/

@[simp] theorem areUnbroken_append {steps steps' : List Fields} :
    AreUnbroken (steps ++ steps') ↔ AreUnbroken steps ∧ AreUnbroken steps' :=
  List.forall_mem_append

/-- Each of the steps has a parameter, and no value in them has a separator. -/
def ArePlain (steps : List Fields) : Prop :=
  (∀ step ∈ steps, step ≠ []) ∧ AreUnbroken steps

instance (steps : List Fields) : Decidable (ArePlain steps) :=
  inferInstanceAs (Decidable ((∀ step ∈ steps, step ≠ []) ∧ AreUnbroken steps))

@[simp] theorem isUnbroken_text_string {s : String} :
    IsUnbroken (Value.string s).text ↔ IsUnbroken s := Iff.rfl

@[simp] theorem isUnbroken_numberPart (x : Binary64) : IsUnbroken (numberPart x).text :=
  (stepNumber x).isNumeral_text.isUnbroken

namespace ArePlain

theorem nil : ArePlain [] := ⟨nofun, nofun⟩

theorem append {steps steps' : List Fields} (h : ArePlain steps) (h' : ArePlain steps') :
    ArePlain (steps ++ steps') :=
  ⟨List.forall_mem_append.mpr ⟨h.1, h'.1⟩, areUnbroken_append.mpr ⟨h.2, h'.2⟩⟩

theorem single {step : Fields} (hne : step ≠ []) (h : ∀ f ∈ step, IsUnbroken f.2.text) :
    ArePlain [step] := ⟨List.forall_mem_singleton.mpr hne, List.forall_mem_singleton.mpr h⟩

theorem effectStep {effect : String} (h : IsUnbroken effect) :
    ArePlain [Montage.effectStep effect] :=
  .single (List.cons_ne_nil _ _) (List.forall_mem_singleton.mpr h)

theorem strengthStep {effect : String} {x : Binary64} (h : IsUnbroken effect) :
    ArePlain [Montage.strengthStep effect x] := by
  refine effectStep ?_
  simp only [isUnbroken_append]
  exact ⟨⟨h, by decide +kernel⟩, isUnbroken_numberPart x⟩

end ArePlain

theorem arePlain_of_effectSteps {e : Effect} {steps : List Fields}
    (h : e ∈ neutralEffect :: (effects ++ filters)) (hsteps : e.steps = .ok steps) :
    ArePlain steps := by
  have hall : ∀ e ∈ neutralEffect :: (effects ++ filters), ∀ steps ∈ e.preview, ArePlain steps := by
    decide +kernel
  rw [Effect.steps] at hsteps
  split at hsteps
  · next listed hlisted => exact Except.ok.inj hsteps ▸ hall e h listed hlisted
  · cases hsteps

/-- The colour of a colour cast. -/
def Tint.color? : Tint → Option String
  | .cast color _ => some color
  | _ => .none

theorem Tint.color?_scaled {t t' : Tint} {factor : Number} (h : t.scaled factor = .ok t') :
    t'.color? = t.color? := by
  cases t with
  | none => rw [← Except.ok.inj h]
  | cast color strength =>
      rw [scaled] at h
      split at h
      · cases h
      · rw [← Except.ok.inj h]
        rfl
  | unreadable v =>
      rw [scaled] at h
      split at h
      · cases h
      · rw [← Except.ok.inj h]
        rfl

namespace Grade

variable {g : Grade} {steps : List Fields}

/-- Nothing that the grade has written in its preview has a separator. -/
def IsPlain (g : Grade) : Prop :=
  IsUnbroken g.art.text ∧ (∀ color ∈ g.tint.color?, IsUnbroken color) ∧
    ∀ listed ∈ g.preview, ∀ steps ∈ (listed.mapM Value.asFields).toOption, ArePlain steps

instance (g : Grade) : Decidable g.IsPlain := inferInstanceAs (Decidable (_ ∧ _ ∧ _))

theorem isPlain_of_mem (h : g ∈ grades) : g.IsPlain := by
  have hall : ∀ g ∈ grades, g.IsPlain := by decide +kernel
  exact hall g h

/-- A grade keeps what it has written when it is weakened or strengthened. -/
theorem IsPlain.scaled (h : g.IsPlain) {factor : Option Number} {g' : Grade}
    (hscaled : g.scaled factor = .ok g') : g'.IsPlain := by
  cases factor with
  | none => exact Except.ok.inj hscaled ▸ h
  | some factor =>
      rw [Grade.scaled] at hscaled
      split at hscaled
      · exact Except.ok.inj hscaled ▸ h
      · obtain ⟨tint, htint, hscaled⟩ := Outcome.bind_eq_ok.mp hscaled
        split at hscaled
        · cases hscaled
        · rw [← Except.ok.inj hscaled]
          refine ⟨h.1, ?_, h.2.2⟩
          rw [Tint.color?_scaled htint]
          exact h.2.1

theorem arePlain_curveSteps {curve : Value} (h : curveSteps curve = .ok steps) :
    ArePlain steps := by
  have hcurves : ∀ entry ∈ curvePreview, ArePlain (effectSteps entry.2) := by decide +kernel
  unfold curveSteps at h
  split_ifs at h with hnone hunhashable
  · rw [← Except.ok.inj h]
    exact .nil
  · split at h
    · next name =>
      rw [← Except.ok.inj h]
      cases hname : curvePreview.lookup name with
      | none => exact .nil
      | some effects => exact hcurves (name, effects) (mem_of_lookup hname)
    · rw [← Except.ok.inj h]
      exact .nil

theorem arePlain_tintSteps {t : Tint} (hcolor : ∀ color ∈ t.color?, IsUnbroken color)
    (h : tintSteps t = .ok steps) : ArePlain steps := by
  cases t with
  | none => exact Except.ok.inj h ▸ .nil
  | cast color strength =>
      obtain ⟨shown, hshown, h⟩ := Outcome.bind_eq_ok.mp h
      have hunbroken : IsUnbroken shown :=
        (isUnbroken_serviceColor_iff hshown).mpr (hcolor color rfl)
      have hcolorize : ArePlain [strengthStep "colorize" (strength * 100)] :=
        .strengthStep (by decide +kernel)
      rw [← Except.ok.inj h]
      simpa [ArePlain, AreUnbroken, or_imp, forall_and, hunbroken] using hcolorize.2
  | unreadable v =>
      rw [tintSteps] at h
      split at h
      · cases h
      · exact Except.ok.inj h ▸ .nil

theorem arePlain_changeSteps {effect : String} (h : IsUnbroken effect) (n : Number) :
    ArePlain (changeSteps effect n) := by
  rw [changeSteps]
  split
  · exact .nil
  · exact .strengthStep h

theorem IsPlain.arePlain_steps (h : g.IsPlain) (hsteps : g.steps = .ok steps) :
    ArePlain steps := by
  obtain ⟨hart, htint, hpreview⟩ := h
  rw [Grade.steps] at hsteps
  split at hsteps
  · next listed hlisted => exact hpreview listed hlisted steps (by simp [hsteps, Except.toOption])
  · obtain ⟨curve, hcurve, hsteps⟩ := Outcome.bind_eq_ok.mp hsteps
    obtain ⟨tint, htinted, hsteps⟩ := Outcome.bind_eq_ok.mp hsteps
    rw [← Except.ok.inj hsteps]
    have hart : ArePlain (if g.art.isTruthy then [effectStep ("art:" ++ g.art.text)] else []) := by
      split
      · exact .effectStep (isUnbroken_append.mpr ⟨by decide +kernel, hart⟩)
      · exact .nil
    have hgray : ArePlain (if g.isGrayscale then [effectStep "grayscale"] else []) := by
      split
      · exact .effectStep (by decide +kernel)
      · exact .nil
    have hbrightness : ArePlain (changeSteps "brightness" g.brightness) :=
      arePlain_changeSteps (by decide +kernel) _
    have hcontrast : ArePlain (changeSteps "contrast" g.contrast) :=
      arePlain_changeSteps (by decide +kernel) _
    have hsaturation : ArePlain (if g.isGrayscale then []
        else changeSteps "saturation" g.saturation) := by
      split
      · exact .nil
      · exact arePlain_changeSteps (by decide +kernel) _
    have hgamma : ArePlain (changeSteps "gamma" g.gamma) :=
      arePlain_changeSteps (by decide +kernel) _
    have hsepia : ArePlain (changeSteps "sepia" g.sepia) :=
      arePlain_changeSteps (by decide +kernel) _
    have hlight := (hbrightness.append hcontrast).append hsaturation
    have hchanges := (hlight.append hgamma).append hsepia
    have hlook := (hart.append (arePlain_curveSteps hcurve)).append hgray
    have hall := (hlook.append hchanges).append (arePlain_tintSteps htint htinted)
    simpa only [List.append_assoc] using hall

end Grade

/-! ## Values of texts -/

/-- The service takes no colour of the text, or one without separators. -/
def IsSafeColor (s : String) : Prop := (serviceColor s).isOk = true → IsUnbroken s

instance (s : String) : Decidable (IsSafeColor s) := inferInstanceAs (Decidable (_ → _))

/-- The colours of the text have no separators, as far as the service takes them. -/
def TextParams.IsSafe (p : TextParams) : Prop :=
  IsSafeColor p.color ∧ ∀ s, p.background = .string s → IsSafeColor s

/-- The colours of the edit have no separators, as far as the service takes them. Only texts have
such colours. -/
def Edit.IsSafe : Edit → Prop
  | .addText p | .customText p => p.IsSafe
  | _ => True

/-- A colour brings separators into its parameter just if it has some and is taken. -/
theorem isUnbroken_colorPart_iff {key notice s : String} {fallback : Fields}
    {r : Fields × List String} (hfallback : ∀ f ∈ fallback, IsUnbroken f.2.text)
    (h : colorPart key (.string s) fallback notice = .ok r) :
    (∀ f ∈ r.1, IsUnbroken f.2.text) ↔ IsSafeColor s := by
  rw [IsSafeColor]
  rcases hcolor : serviceColor s with e | color
  · simp only [colorPart, hcolor] at h
    rw [← Except.ok.inj h]
    exact iff_of_true hfallback fun hok => absurd hok Bool.false_ne_true
  · simp only [colorPart, hcolor] at h
    rw [← Except.ok.inj h]
    simp [isUnbroken_serviceColor_iff hcolor]

open Montage.Action

theorem isUnbroken_anchorStep {entry : String × String} (hentry : entry ∈ anchors)
    {inset : Value} (hinset : IsUnbroken inset.text) :
    ∀ f ∈ anchorStep entry.1 entry.2 inset, IsUnbroken f.2.text := by
  have hanchors : ∀ entry ∈ anchors, IsUnbroken entry.2 := by decide +kernel
  rw [anchorStep]
  split_ifs <;> simp [hanchors entry hentry, hinset]

theorem isUnbroken_windowParts {window : Option Window} {bounds : Fields}
    (h : windowParts window = .ok bounds) : ∀ f ∈ bounds, IsUnbroken f.2.text := by
  rw [windowParts_eq_ok h]
  rcases window with - | ⟨start, - | finish⟩ <;> simp [isUnbroken_numberPart]

/-- The steps each have a parameter, and no value in them has a separator just if `safe` holds. -/
def IsPlainJust (safe : Prop) (steps : List Fields) : Prop :=
  (∀ step ∈ steps, step ≠ []) ∧ (AreUnbroken steps ↔ safe)

theorem ArePlain.isPlainJust {steps : List Fields} (h : ArePlain steps) :
    IsPlainJust True steps := ⟨h.1, iff_true_intro h.2⟩

namespace Studio

variable {s : Studio} {window : Option Window}

/-- **The values of a text** have separators just if its colours bring them. -/
theorem PreviewsText.isPlainJust (hs : s.settings = .default) {p : TextParams}
    {r : List Fields × List String} (h : PreviewsText s p window r) :
    IsPlainJust p.IsSafe r.1 := by
  obtain @⟨size, bold, color, back, anchor, bounds, -, hcolor, hback, hanchor, hbounds⟩ := h
  have hcolor : (∀ f ∈ color.1, IsUnbroken f.2.text) ↔ IsSafeColor p.color :=
    isUnbroken_colorPart_iff (by simp; decide +kernel) hcolor
  have hback : (∀ f ∈ back.1, IsUnbroken f.2.text) ↔
      ∀ s, p.background = .string s → IsSafeColor s := by
    split_ifs at hback with hbackground
    · cases hvalue : p.background with
      | string s =>
          rw [hvalue] at hback
          simpa using isUnbroken_colorPart_iff (List.forall_mem_nil _) hback
      | _ =>
          rw [hvalue] at hback
          cases hback
    · -- The only text that counts as no background is the empty one, which has no separators.
      rw [hback]
      refine iff_of_true (List.forall_mem_nil _) fun s hvalue => ?_
      obtain rfl : s = "" := by simpa [hvalue, Value.isTruthy] using hbackground
      decide +kernel
  rw [hs]
  have hinset : IsUnbroken ((Settings.default.preview.get? "inset").getD (.int 20)).text := by
    decide +kernel
  have hfont : IsUnbroken
      ((Settings.default.preview.get? "font_family").getD (.string "Arial")).text := by
    decide +kernel
  have hmarks : IsUnbroken "text:" ∧ IsUnbroken "_" ∧ IsUnbroken ":" ∧
      IsUnbroken (if bold then "_bold" else "") ∧ IsUnbroken "layer_apply" := by
    cases bold <;> decide +kernel
  have hsize : IsUnbroken (intText size.1) := (isNumeral_intText size.1).isUnbroken
  have hplace := iff_true_intro (isUnbroken_anchorStep hanchor hinset)
  have hbounds := iff_true_intro (isUnbroken_windowParts hbounds)
  refine ⟨by simp, ?_⟩
  simp only [AreUnbroken, List.forall_mem_cons, List.forall_mem_append, isUnbroken_text_string,
    isUnbroken_append, isUnbroken_overlayText, hfont, hmarks, hsize, hcolor, hback, hplace, hbounds,
    true_and, and_true, List.not_mem_nil, false_imp_iff, implies_true, TextParams.IsSafe]

theorem of_default : Studio.of .default = .ok ⟨.default, .builtIn⟩ := by
  have hlooks : Looks.of [] = .ok .builtIn := by
    rw [Looks.of]
    generalize Looks.builtIn = looks
    rfl
  rw [Studio.of, show Settings.default.grades = [] from rfl, hlooks]
  rfl

/-- **The values of an edit** have separators just if its colours bring them. -/
theorem isPlainJust_previewEdit (hs : Studio.of .default = .ok s) (edit : Edit) :
    Returns (s.previewEdit window edit) fun r => IsPlainJust edit.IsSafe r.1 := by
  obtain rfl : ⟨.default, .builtIn⟩ = s := Except.ok.inj (of_default.symm.trans hs)
  have hplain {steps : List Fields} {warnings : List String} (h : ArePlain steps) :
      Returns (pure (steps, warnings)) fun r => IsPlainJust True r.1 := .pure h.isPlainJust
  have heffect {found : Found Effect} (hmem : found.look ∈ neutralEffect :: (effects ++ filters)) :
      Returns (previewEdit.effect found) fun r => IsPlainJust True r.1 := by
    refine returns_foundLook.bind ?_
    rintro _ rfl
    refine (returns_ofEdit fun _ h => h).bind fun steps hsteps => hplain ?_
    exact arePlain_of_effectSteps hmem hsteps
  cases edit with
  | trim p =>
      refine hplain (.single (List.cons_ne_nil _ _) ?_)
      rw [TrimParams.step]
      cases p.finish <;> simp
  | removeClip p => exact returns_refuse
  | colorGrade p =>
      refine returns_foundLook.bind ?_
      rintro _ rfl
      refine (returns_ofFault fun _ h => h).bind fun grade hgrade => ?_
      refine (returns_ofFault fun _ h => h).bind fun steps hsteps => hplain ?_
      exact ((Grade.isPlain_of_mem (builtIn_grade_mem _)).scaled hgrade).arePlain_steps hsteps
  | applyEffect p =>
      exact heffect (List.cons_subset_cons _ (List.subset_append_left _ _) (effectNamed_mem _))
  | addText p => exact returns_previewText.mono fun _ h => h.isPlainJust rfl
  | customText p => exact returns_previewText.mono fun _ h => h.isPlainJust rfl
  | filter p =>
      exact heffect (List.cons_subset_cons _ (List.subset_append_right _ _) (filterNamed_mem _))
  | addCaptions p => exact returns_refuse
  | adjustIntensity p =>
      simp only [previewEdit]
      split
      · next e he =>
        refine (returns_ofEdit fun _ h => h).bind fun steps hsteps => hplain ?_
        refine arePlain_of_effectSteps ?_ hsteps
        split at he
        · simp [mem_effects_of_effect? he]
        · cases he
      · exact hplain (.strengthStep (by decide +kernel))
  | adjustZoom p =>
      refine (returns_ofEdit fun _ h => h).bind fun steps hsteps => hplain ?_
      simp only [ZoomParams.steps] at hsteps
      split at hsteps
      · cases hsteps
      · rw [← Except.ok.inj hsteps]
        have hmode : IsUnbroken "crop" ∧ IsUnbroken "center" := by decide +kernel
        exact .single (List.cons_ne_nil _ _) (by simpa using hmode)
  | adjustSpeed p => exact hplain (.strengthStep (by decide +kernel))
  | rotate p => exact hplain (.single (List.cons_ne_nil _ _) (by simp))
  | crop p =>
      have hcrop : IsUnbroken "crop" := by decide +kernel
      exact hplain (.single (List.cons_ne_nil _ _) (by simp [CropParams.step, hcrop]))

theorem returns_previewOperation_separates (hs : Studio.of .default = .ok s) (o : Operation)
    (r : Resource) :
    Returns (s.previewOperation o r) fun d =>
      d.steps ≠ [] → (d.Separates ↔ o.edit.IsSafe) := by
  refine (isPlainJust_previewEdit hs o.edit).bind fun (steps, warnings) ⟨hfull, hsafe⟩ => ?_
  refine .after fun _ => (returns_ofFault fun path hpath => hpath).bind fun path hpath => ?_
  exact .pure fun hsteps => (Descriptor.separates_iff hpath hsteps hfull).trans hsafe

/-- **The steps of a preview can be read off its URL** just if the colours of the edit have no
separators. -/
theorem separates_iff_isSafe (hs : Studio.of .default = .ok s) (o : Operation) (r : Resource)
    (σ σ' : Session) (d : Descriptor) (h : (s.previewOperation o r).exec σ = (.ok d, σ'))
    (hsteps : d.steps ≠ []) : d.Separates ↔ o.edit.IsSafe :=
  returns_previewOperation_separates hs o r σ d (congrArg Prod.fst h) hsteps

theorem separates_slashed_title :
    let s : Studio := ⟨.default, .builtIn⟩
    let title : Operation :=
      ⟨.addText ⟨"a,b/c", "top", .int 40, "#FF0000", .string "Black", .null, .null⟩, none⟩
    ∃ d σ', (s.previewOperation title .video).exec (.of default [] []) = (.ok d, σ') ∧
      d.steps ≠ [] ∧ d.Separates := by
  intro s title
  have hok : ((s.previewOperation title .video).exec (.of default [] [])).1.isOk = true := by
    decide +kernel
  have hsome : ((s.previewOperation title .video).exec (.of default [] [])).1.toOption.all
      (!·.steps.isEmpty) = true := by decide +kernel
  obtain ⟨d, σ', hd⟩ := exists_exec_of_isOk hok
  have hsteps : d.steps ≠ [] := by simpa [hd, Except.toOption] using hsome
  have hsafe : title.edit.IsSafe := by
    refine ⟨by decide +kernel, ?_⟩
    rintro _ ⟨⟩
    decide +kernel
  have hiff := separates_iff_isSafe of_default title .video _ σ' d hd hsteps
  exact ⟨d, σ', hd, hsteps, hiff.mpr hsafe⟩

/-- What follows a hash sign is taken for a colour and not read, so this one brings a step of its
own into the URL. -/
theorem not_separates_slashed_color :
    let s : Studio := ⟨.default, .builtIn⟩
    let params : Value :=
      .object [("text", .string "Hi"), ("fontColor", .string "#fff/e_negate")]
    validate (.string "addText") params = .ok .accepted ∧
      ∃ d σ' path, (s.preview (.string "addText") params none .video).exec (.of default [] []) =
          (.ok d, σ') ∧ d.path = .ok path ∧
        d.steps.length = 2 ∧ (path.toList.splitOn '/').length = 3 ∧ ¬d.Separates := by
  intro s params
  have hok : ((s.preview (.string "addText") params none .video).exec
      (.of default [] [])).1.isOk = true := by decide +kernel
  have hcounts : ((s.preview (.string "addText") params none .video).exec
      (.of default [] [])).1.toOption.all (fun d => d.steps.length = 2 &&
        d.path.toOption.any fun path => (path.toList.splitOn '/').length = 3) = true := by
    decide +kernel
  have hseparates : Returns (s.preview (.string "addText") params none .video) fun d =>
      d.steps ≠ [] → ¬d.Separates := by
    refine (returns_ofFailure fun _ h => h).bind ?_
    rintro _ ⟨⟩
    refine (returns_previewOperation_separates of_default _ .video).mono fun d hd hsteps hsep => ?_
    exact absurd ((hd hsteps).mp hsep).1 (by decide +kernel)
  obtain ⟨d, σ', hd⟩ := exists_exec_of_isOk hok
  simp only [hd, Except.toOption, Option.all_some, Bool.and_eq_true, decide_eq_true_eq] at hcounts
  obtain ⟨hlength, hcomponents⟩ := hcounts
  have hsteps : d.steps ≠ [] := by
    intro hnil
    simp [hnil] at hlength
  rcases hpath : d.path with e | path
  · simp [hpath] at hcomponents
  · refine ⟨by decide +kernel, d, σ', path, hd, hpath, hlength, ?_,
      hseparates _ d (congrArg Prod.fst hd) hsteps⟩
    simpa [hpath] using hcomponents

end Studio

end Montage
