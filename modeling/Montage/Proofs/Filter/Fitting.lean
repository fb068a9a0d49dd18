import Montage.Proofs.Caption.Fitting
import Montage.Proofs.Filter.Gating
import Montage.Proofs.Look.Strength

/-!
# Edits that fit the renderer

The check lets some edits through that cannot be compiled: a rectangle of infinite width, a filter
whose level is infinite, captions at times that are no numbers. Other edits depend on settings that
are not checked, such as the colour that stands in for an unknown one. Compiling such an edit is a
fault, and compiling any other edit is none.

## Main definitions

* `Studio.FilterFits`: the edits whose compilation is no fault.
* `TextParams.FilterFits`: the texts among them.

## Main statements

* `Studio.contained_compileEdit_iff`: compiling a checked edit yields filters or is refused just if
  the edit fits.
* `Studio.contained_compileOperation_iff`: so does compiling an operation.
-/
namespace Montage

open Montage.Action

/-! ## What has to fit -/

/-- The value is or writes an integer, or a number with an integer part. -/
def Value.HasInt (v : Value) : Prop := v.toInt.isOk = true

instance (v : Value) : Decidable v.HasInt := inferInstanceAs (Decidable (_ = true))

/-- The text is a colour, or else the text that stands in for an unknown colour is one. -/
def ReadsColor (color : String) (fallback : Value) : Prop :=
  (Color.parse color.strip).isOk = true ∨
    ∃ t, fallback = .string t ∧ (Color.parse t).isOk = true

/-- The settings that a text uses are sizes and colours, and its font can be looked for. -/
structure TextParams.FilterFits (s : Settings) (files : Storage) (p : TextParams) : Prop where
  size : ((s.text.get? "font_size").getD (.int 24)).HasInt
  margin : ((s.text.get? "margin").getD (.int 10)).HasInt
  font : (files.resolveFont (p.font.orElse (s.text.get "font")) s.fontFile).isOk = true
  color : ReadsColor p.color ((s.text.get? "color").getD (.string "white"))

/-- The strength of the effect that a change of intensity names. -/
def IntensityParams.strength (p : IntensityParams) : Binary64 :=
  (p.intensity.getD (directionFactor "more" "less" p.direction)).smaller 1

/-- The effect that a change of intensity names. -/
def IntensityParams.effect? (p : IntensityParams) : Option Effect :=
  if p.effect.isTruthy then Montage.effect? p.effect else none

/-- The sides of the rectangle are finite. -/
structure CropParams.FilterFits (p : CropParams) : Prop where
  x : p.x.IsFinite
  y : p.y.IsFinite
  width : p.width.IsFinite
  height : p.height.IsFinite

/-- The edits that a studio compiles to filters without a fault, with the given files. -/
def Studio.FilterFits (s : Studio) (files : Storage) : Edit → Prop
  | .colorGrade p => (s.looks.grade (.string p.preset)).look.tint.IsReadable
  | .addText p | .customText p => p.FilterFits s.settings files
  | .filter p =>
    (filterNamed (.string p.filter)).look.Fits (.real (.nearest (1 / 2))) (p.level.map .real)
  | .addCaptions p => p.FilterFits s.settings files
  | .adjustIntensity p => ∀ e ∈ p.effect?, e.Fits (.real p.strength) none
  | .crop p => p.FilterFits
  | _ => True

/-! ## Sizes -/

/-- A size of text is a number with an integer part, or a text whose digits write an integer. -/
theorem isOk_textSize {v : Value} {default_ : Int}
    (hcount : ∀ n, v.count? = some n → n.toInt.isOk = true)
    (hdigits : v.count? = none → Text.allDigits v.text.strip.lowerCase.toList = true →
      (Numeral.integer v.text.strip.lowerCase).isOk = true) :
    (textSize v default_).isOk = true := by
  unfold textSize
  split
  · rfl
  · next n _ hn =>
    rw [Outcome.isOk_map]
    exact hcount n hn
  · next hnone =>
    extract_lets key
    split
    · next h =>
      rw [Outcome.isOk_map]
      exact hdigits hnone h
    · split <;> rfl

/-- A size in its range is taken for a size of text. -/
theorem Value.IsTextSize.isOk_textSize {v : Value} (h : v.IsTextSize) (default_ : Int) :
    (textSize v default_).isOk = true :=
  Montage.isOk_textSize h.isOk_toInt h.isOk_integer

/-! ## Texts -/

variable {σ : Session}

/-- A colour is unread only if no colour stands in for it. -/
theorem hinges_drawtextColor {color : String} (hcolor : color ≠ "") {fallback : Value} :
    (drawtextColor (.string color) fallback).Hinges σ (ReadsColor color fallback) := by
  have horElse : (Value.string color).orElse fallback = .string color :=
    if_pos (decide_eq_true hcolor)
  unfold drawtextColor
  rw [horElse]
  dsimp only
  cases hparse : Color.parse color.strip with
  | ok c => exact hinges_pure.congr (iff_of_true trivial (.inl (by rw [hparse]; rfl)))
  | error e =>
      have hunread : ¬(Color.parse color.strip).isOk = true := by simp [hparse]
      refine hinges_warn.after fun _ _ _ _ => ?_
      cases fallback with
      | string t =>
          refine (hinges_ofFault.andThen fun _ _ => hinges_pure).congr ?_
          simp [ReadsColor, hparse]
      | _ =>
          refine (hinges_ofFault.bind fun _ _ _ _ => hinges_faulted).congr ?_
          exact iff_of_false And.right fun h => h.elim hunread fun ⟨t, ht, _⟩ => nomatch ht

theorem isOk_isBold {style : Value} (h : style.IsText) : (Studio.isBold style).isOk = true := by
  unfold Studio.isBold
  split_ifs with htruthy
  · obtain ⟨t, rfl, -⟩ := h.exists_string htruthy
    rfl
  · rfl

namespace Studio

variable {s : Studio}

theorem hinges_fontOptions {font : Value} : (s.fontOptions font).Hinges σ
    ((σ.files.resolveFont (font.orElse (s.settings.text.get "font")) s.settings.fontFile).isOk =
      true) := by
  refine hinges_files.after ?_
  intro f σ' hf _
  obtain ⟨rfl, rfl⟩ : σ.files = f ∧ σ = σ' := by simpa using hf
  refine hinges_ofFault.andThen ?_
  intro path _
  cases path <;> exact hinges_pure

/-- Black stands in for an unknown background. -/
theorem hinges_backgroundOptions {background : Value} (h : background.IsText) :
    (s.backgroundOptions background).Hinges σ True := by
  rw [backgroundOptions]
  split_ifs with htruthy
  · obtain ⟨t, rfl, ht⟩ := h.exists_string htruthy
    have hblack : ReadsColor t (.string "black") := .inr ⟨_, rfl, by decide +kernel⟩
    exact ((hinges_drawtextColor ht).congr (iff_true_intro hblack)).andThen fun _ _ => hinges_pure
  · exact hinges_pure

/-- **A text** is drawn just if its settings fit. -/
theorem hinges_compileText {p : TextParams} (h : p.IsChecked) :
    (s.compileText p).Hinges σ (p.FilterFits s.settings σ.files) := by
  have hsteps : (s.compileText p).Hinges σ
      (((s.settings.text.get? "font_size").getD (.int 24)).HasInt ∧
        ((s.settings.text.get? "margin").getD (.int 10)).HasInt ∧
        (σ.files.resolveFont (p.font.orElse (s.settings.text.get "font"))
          s.settings.fontFile).isOk = true ∧
        ReadsColor p.color ((s.settings.text.get? "color").getD (.string "white"))) := by
    -- One step after another; the font is looked for in files that no step before it has changed.
    refine hinges_ofFault.bind ?_
    intro defaultSize σ₁ _ hσ₁
    refine (hinges_ofFault_of_isOk (h.size.isOk_textSize _)).after ?_
    intro size σ₂ _ hσ₂
    refine hinges_warnAll.after ?_
    intro _ σ₃ _ hσ₃
    refine hinges_ofFault.bind ?_
    intro margin σ₄ _ hσ₄
    refine hinges_warnAll.after ?_
    intro _ σ₅ _ hσ₅
    have hfiles : σ₅.files = σ.files := by rw [hσ₅, hσ₄, hσ₃, hσ₂, hσ₁]
    rw [← hfiles]
    refine hinges_fontOptions.bind ?_
    intro font σ₆ _ hσ₆
    refine (hinges_drawtextColor h.color).andThen ?_
    intro color σ₇
    refine (hinges_backgroundOptions h.background).after ?_
    intro background σ₈ _ _
    exact (hinges_ofFault_of_isOk (isOk_isBold h.style)).after fun _ _ _ _ => hinges_pure
  refine hsteps.congr ⟨?_, fun h => ⟨h.size, h.margin, h.font, h.color⟩⟩
  rintro ⟨hsize, hmargin, hfont, hcolor⟩
  exact ⟨hsize, hmargin, hfont, hcolor⟩

/-! ## Looks -/

theorem hinges_foundLook {α : Type} {found : Found α} : (foundLook found).Hinges σ True :=
  hinges_warnAll.after fun _ _ _ _ => hinges_pure

theorem eq_of_foundLook {α : Type} {found : Found α} {look : α} {σ' : Session}
    (h : (foundLook found).exec σ = (.ok look, σ')) : look = found.look :=
  returns_foundLook σ look (congrArg Prod.fst h)

theorem hinges_compileEffect {found : Found Effect} {strength : Binary64}
    {level : Option Binary64} : (compileEffect found strength level).Hinges σ
      (found.look.Fits (.real strength) (level.map .real)) := by
  refine hinges_foundLook.after ?_
  intro e σ' he _
  obtain rfl := eq_of_foundLook he
  exact (hinges_ofFault.congr Effect.isOk_expand_iff).andThen fun _ _ => hinges_pure

theorem hinges_compileGrade {p : GradeParams} : (s.compileGrade p).Hinges σ
    (s.looks.grade (.string p.preset)).look.tint.IsReadable := by
  refine hinges_foundLook.after ?_
  intro look σ₁ hlook _
  obtain rfl := eq_of_foundLook hlook
  generalize (s.looks.grade (.string p.preset)).look = look
  refine (Hinges.bind (Q := look.tint.IsReadable) hinges_ofFault fun g σ₂ hg _ => ?_).congr ?_
  · have hscaled := Outcome.mapError_eq_ok.mp (congrArg Prod.fst hg)
    refine (hinges_ofFault.congr
      (Grade.isOk_stages_iff.trans (Grade.isReadable_tint_of_scaled hscaled))).andThen fun _ _ => ?_
    exact hinges_warnAll.after fun _ _ _ _ => hinges_pure
  · rw [Grade.isOk_scaled_iff]
    exact ⟨And.right, fun h => ⟨fun _ _ _ => h, h⟩⟩

/-- A change of intensity without an effect is no fault. -/
theorem hinges_compileIntensity {p : IntensityParams} : (compileIntensity p).Hinges σ
    (∀ e ∈ p.effect?, e.Fits (.real p.strength) none) := by
  have heffect : (if p.effect.isTruthy then Montage.effect? p.effect else none) = p.effect? := rfl
  simp only [compileIntensity, heffect]
  cases p.effect? with
  | none => exact hinges_pure.congr (iff_of_true trivial nofun)
  | some e =>
      refine (hinges_ofFault.andThen fun _ _ => hinges_pure).congr ?_
      rw [Effect.isOk_expand_iff]
      simp only [Option.mem_some, forall_eq']
      rfl

end Studio

/-! ## Edits and operations -/

theorem CropParams.isOk_stage_iff {p : CropParams} : p.stage.isOk = true ↔ p.FilterFits := by
  simp only [stage, Outcome.isOk_bind]
  have hint : ∀ {x : Binary64}, (∃ n, x.toInt = .ok n) ↔ x.IsFinite := fun {x} =>
    Outcome.isOk_iff.symm.trans Binary64.isOk_toInt_iff
  constructor
  · rintro ⟨w, hw, h, hh, x, hx, y, hy, -⟩
    exact ⟨hint.mp ⟨x, hx⟩, hint.mp ⟨y, hy⟩, hint.mp ⟨w, hw⟩, hint.mp ⟨h, hh⟩⟩
  · intro hfits
    obtain ⟨w, hw⟩ := hint.mpr hfits.width
    obtain ⟨h, hh⟩ := hint.mpr hfits.height
    obtain ⟨x, hx⟩ := hint.mpr hfits.x
    obtain ⟨y, hy⟩ := hint.mpr hfits.y
    exact ⟨w, hw, h, hh, x, hx, y, hy, rfl⟩

/-- A gate between binary numbers can be written. -/
theorem Window.HasReals.isOk_checked {w : Window} (h : w.HasReals) :
    (Gate.checked ⟨w.start, w.finish⟩).isOk = true := by
  obtain ⟨start, finish⟩ := w
  obtain ⟨⟨x, rfl⟩, hfinish⟩ := h
  rw [Gate.checked]
  refine Outcome.isOk_bind.mpr ⟨x, rfl, ?_⟩
  dsimp only
  cases hlimit : Gate.limit? ⟨.real x, finish⟩ with
  | none => rfl
  | some e =>
      obtain ⟨y, rfl⟩ := hfinish e (Option.filter_eq_some_iff.mp hlimit).1
      rfl

namespace Studio

variable {s : Studio}

/-- **Compiling a checked edit** yields filters or is refused just if the edit fits. -/
theorem contained_compileEdit_iff {e : Edit} (h : e.IsChecked) :
    (s.compileEdit e).Contained σ ↔ s.FilterFits σ.files e := by
  cases e with
  | trim p => exact iff_of_true contained_pure trivial
  | removeClip p => exact iff_of_true contained_refuse trivial
  | colorGrade p => exact hinges_compileGrade.contained_iff
  | applyEffect p =>
      have hfits := Effect.fits_of_mem (effectNamed_mem (.string p.preset)) h.1 h.2
      exact iff_of_true (hinges_compileEffect.contained_iff.mpr hfits) trivial
  | addText p | customText p => exact (hinges_compileText h).contained_iff
  | filter p => exact hinges_compileEffect.contained_iff
  | addCaptions p => exact contained_compileCaptions_iff h
  | adjustIntensity p => exact hinges_compileIntensity.contained_iff
  | adjustZoom p => exact iff_of_true contained_pure trivial
  | adjustSpeed p => exact iff_of_true contained_ofEdit trivial
  | rotate p => exact iff_of_true contained_pure trivial
  | crop p =>
      refine (hinges_ofFault.andThen fun _ _ => hinges_pure).contained_iff.trans ?_
      exact CropParams.isOk_stage_iff

theorem contained_applyWindow {k : Kind} {w : Window} (h : w.HasReals) {e : Expression} :
    (applyWindow k w e).Contained σ := by
  unfold applyWindow
  split_ifs
  · exact contained_pure
  · exact ((hinges_ofFault_of_isOk h.isOk_checked).after fun _ _ _ _ =>
      hinges_pure).contained_iff.mpr trivial
  · exact contained_warn_pure

/-- What is compiled for a kind with an object of parameters is the operation built from them. -/
theorem operationOf_eq_ok_iff {kind : Value} {k : Kind} (h : Kind.ofValue? kind = some k)
    {fs : Fields} {window : Option Window} {o : Operation} :
    operationOf kind (.object fs) window = .ok o ↔ Operation.ofFields k fs window = .ok o := by
  rw [operationOf, Operation.build_of_kind h, Operation.ofValue_object]
  cases Operation.ofFields k fs window with
  | ok o' => simp [Outcome.mapError_ok]
  | error f =>
      simp only [Outcome.mapError_error]
      split_ifs <;> simp

/-- What is compiled is an operation that was built. -/
theorem compile_eq_ok_iff {kind : Value} {k : Kind} (h : Kind.ofValue? kind = some k)
    {fs : Fields} {window : Option Window} {e : Expression} :
    ((s.compile kind (.object fs) window).exec σ).1 = .ok e ↔
      ∃ o, Operation.ofFields k fs window = .ok o ∧
        ((s.compileOperation o).exec σ).1 = .ok e := by
  simp only [← operationOf_eq_ok_iff h]
  rw [compile, exec_bind, exec_ofFailure]
  cases operationOf kind (.object fs) window <;> simp

/-- **Compiling an operation** yields filters or is refused just if its edit fits. -/
theorem contained_compileOperation_iff {o : Operation} (h : o.edit.IsChecked)
    (hw : ∀ w ∈ o.window, w.HasReals) :
    (s.compileOperation o).Contained σ ↔ s.FilterFits σ.files o.edit := by
  rw [compileOperation, contained_bind, contained_compileEdit_iff h]
  refine and_iff_left ?_
  intro e σ' _
  cases hwindow : o.window with
  | none => exact contained_pure
  | some w => exact contained_applyWindow (hw w hwindow)

end Studio

end Montage
