import Montage.Proofs.Number.Exact
import Montage.Proofs.Preview.Fitting
import Montage.Proofs.Settings

/-!
# One grade, two renderings

A colour grade becomes filter stages for the renderer and steps for the preview service, both from
the same numbers. Each change that is not zero leaves its mark in both, and each kind of change has
a mark of its own: an option of a filter, and the name of an effect. The one exception is the colour
of a cast. The renderer reads it as it is written and replaces an unknown one by a stage that does
nothing; the preview service takes any text behind a hash sign, ignores blanks around a colour, and
nothing comes of a grade whose colour it cannot write.

## Main definitions

* `GradeChange`: the kinds of changes, with `InStages` and `InSteps`, their marks.
* `Grade.Has`: a change that is not zero.
* `Grade.IsDerived`: grades whose renderings both follow from their numbers.
* `Grade.ShowsAlike`: both renderings exist, and show the same changes.

## Main statements

* `Grade.inStages_ownStages_iff`, `Grade.inSteps_ownSteps_iff`: the marks of a grade.
* `Grade.showsAlike_iff`: which grades are rendered alike.
* `Grade.showsAlike_scaled_iff`: which grades are so at a strength.
-/
namespace Montage

/-- The kinds of changes that a grade is made of. -/
inductive GradeChange
  | brightness
  | contrast
  | saturation
  | gamma
  | grayscale
  | sepia
  | tint
  deriving DecidableEq

/-- The name of an effect of the preview service, without its strength. -/
def effectWord (effect : String) : String :=
  String.ofList (effect.toList.takeWhile (· ≠ ':'))

namespace GradeChange

/-- The filter in which the change shows. -/
def filter : GradeChange → String
  | brightness | contrast | saturation | gamma => "eq"
  | grayscale => "hue"
  | sepia => "colorchannelmixer"
  | tint => "colorbalance"

/-- The option of the filter by which it is the change that shows. -/
def option : GradeChange → String
  | brightness => "brightness"
  | contrast => "contrast"
  | saturation => "saturation"
  | gamma => "gamma"
  | grayscale => "s"
  | sepia => "rr"
  | tint => "rs"

/-- The effect of the preview service in which the change shows. -/
def effect : GradeChange → String
  | brightness => "brightness"
  | contrast => "contrast"
  | saturation => "saturation"
  | gamma => "gamma"
  | grayscale => "grayscale"
  | sepia => "sepia"
  | tint => "colorize"

/-- The change shows in filter stages. -/
def InStages (c : GradeChange) (stages : List Stage) : Prop :=
  ∃ stage ∈ stages, stage.name = c.filter ∧ c.option ∈ stage.options.map Prod.fst

/-- The change shows in steps of the preview service. -/
def InSteps (c : GradeChange) (steps : List Fields) : Prop :=
  ∃ step ∈ steps, ∃ effect, step.get? "effect" = some (.string effect) ∧
    effectWord effect = c.effect

end GradeChange

/-- The renderer reads the colour of the cast. -/
def Tint.IsPainted : Tint → Prop
  | .cast color _ => (Color.parse color).isOk = true
  | _ => True

theorem Tint.isReadable_of_isShown {t : Tint} (h : t.IsShown) : t.IsReadable := by
  cases t with
  | unreadable v => exact h
  | _ => trivial

namespace Grade

/-- The grade changes something in this way. -/
def Has (g : Grade) : GradeChange → Prop
  | .brightness => g.brightness.isZero = false
  | .contrast => g.contrast.isZero = false
  | .saturation => g.isGrayscale = false ∧ g.saturation.isZero = false
  | .gamma => g.gamma.isZero = false
  | .grayscale => g.isGrayscale = true
  | .sepia => g.sepia.isZero = false
  | .tint => ∃ color strength, g.tint = .cast color strength

/-- The steps of the grade follow from its numbers and its curve: it has neither art nor steps of
its own, and the preview of its curve is known. -/
structure IsDerived (g : Grade) : Prop where
  art : g.art.isTruthy = false
  preview : g.preview = none
  curve : g.curve.isTruthy = true → ∃ name steps, g.curve = .string name ∧
    (name, steps) ∈ curvePreview

/-- The grade has stages and steps; if one of both is empty, so is the other; and beside the steps
of the curve the same changes show in both. -/
def ShowsAlike (g : Grade) : Prop :=
  ∃ stages curve own, g.stages = .ok stages ∧ curveSteps g.curve = .ok curve ∧
    g.steps = .ok (curve ++ own) ∧ (stages = [] ↔ curve ++ own = []) ∧
      ∀ c : GradeChange, c.InStages stages ↔ c.InSteps own

/-- The steps that follow from the numbers of a grade, with those of its colour cast. -/
def ownSteps (g : Grade) (tint : List Fields) : List Fields :=
  (if g.isGrayscale then [effectStep "grayscale"] else []) ++
    changeSteps "brightness" g.brightness ++ changeSteps "contrast" g.contrast ++
    (if g.isGrayscale then [] else changeSteps "saturation" g.saturation) ++
    changeSteps "gamma" g.gamma ++ changeSteps "sepia" g.sepia ++ tint

/-- The stage of a curve, if there is one. -/
def curveStages (g : Grade) : List Stage :=
  if g.curve.isTruthy then [Stage.of "curves" [("preset", .literal g.curve)]] else []

/-- The stages that follow from the numbers of a grade and its colour cast. -/
def ownStages (g : Grade) : List Stage :=
  (if g.balance.isEmpty then [] else [Stage.of "eq" g.balance]) ++
    (if g.isGrayscale then [Stage.of "hue" [("s", .int 0)]] else []) ++
    (if g.sepia.isZero then [] else [sepiaStage (fraction g.sepia)]) ++
    match g.tint with
    | .cast color strength => [tintStage color strength]
    | _ => []

end Grade

variable {g g' : Grade} {c : GradeChange} {n : Number}

/-! ## Stages -/

namespace GradeChange

theorem inStages_append {xs ys : List Stage} :
    c.InStages (xs ++ ys) ↔ c.InStages xs ∨ c.InStages ys := by
  simp only [InStages, List.mem_append, or_and_right, exists_or]

theorem inStages_singleton {stage : Stage} :
    c.InStages [stage] ↔ stage.name = c.filter ∧ c.option ∈ stage.options.map Prod.fst := by
  simp [InStages]

theorem not_inStages_nil : ¬c.InStages [] := by simp [InStages]

end GradeChange

namespace Grade

/-- The options of the balance are those of the changes that the filter for it shows. -/
theorem mem_balance : c.option ∈ g.balance.map Prod.fst ↔ c.filter = "eq" ∧ g.Has c := by
  have hone : ∀ (zero : Bool) (key : String) (v : OptionValue),
      c.option ∈ ((if zero then [] else [(key, v)]) : List (String × OptionValue)).map Prod.fst ↔
        zero = false ∧ c.option = key := by
    intro zero key v
    cases zero <;> simp
  have hcolor : ∀ (gray zero : Bool) (key : String) (v : OptionValue),
      c.option ∈ ((if gray then [] else if zero then [] else [(key, v)]) :
          List (String × OptionValue)).map Prod.fst ↔
        gray = false ∧ zero = false ∧ c.option = key := by
    intro gray zero key v
    cases gray <;> cases zero <;> simp
  rw [balance]
  simp only [List.map_append, List.mem_append, hone, hcolor]
  cases c <;> simp [GradeChange.option, GradeChange.filter, Has]

/-- **The stages of a grade** show its changes, but not the cast of a colour that is not known. -/
theorem inStages_ownStages_iff :
    c.InStages g.ownStages ↔ g.Has c ∧ (c = .tint → g.tint.IsPainted) := by
  have hbalance : c.InStages (if g.balance.isEmpty then [] else [Stage.of "eq" g.balance]) ↔
      c.filter = "eq" ∧ g.Has c := by
    rw [← mem_balance]
    split_ifs with hempty
    · rw [List.isEmpty_iff.mp hempty]
      exact iff_of_false GradeChange.not_inStages_nil List.not_mem_nil
    · rw [GradeChange.inStages_singleton]
      exact ⟨And.right, fun h => ⟨(mem_balance.mp h).1.symm, h⟩⟩
  have hgray : c.InStages (if g.isGrayscale then [Stage.of "hue" [("s", .int 0)]] else []) ↔
      c = .grayscale ∧ g.Has c := by
    split_ifs with hgray
    · rw [GradeChange.inStages_singleton]
      cases c <;> simp [GradeChange.filter, GradeChange.option, Stage.of, Has, hgray]
    · refine iff_of_false GradeChange.not_inStages_nil ?_
      rintro ⟨rfl, hhas⟩
      exact hgray hhas
  have hsepia : c.InStages (if g.sepia.isZero then [] else [sepiaStage (fraction g.sepia)]) ↔
      c = .sepia ∧ g.Has c := by
    split_ifs with hzero
    · refine iff_of_false GradeChange.not_inStages_nil ?_
      rintro ⟨rfl, hhas⟩
      exact Bool.false_ne_true (hhas.symm.trans hzero)
    · rw [GradeChange.inStages_singleton]
      cases c <;> simp [GradeChange.filter, GradeChange.option, sepiaStage, Stage.of, Has, hzero,
        channels]
  have htint : c.InStages (match g.tint with
      | .cast color strength => [tintStage color strength]
      | _ => []) ↔ c = .tint ∧ g.Has c ∧ g.tint.IsPainted := by
    cases htint : g.tint with
    | cast color strength =>
        rw [GradeChange.inStages_singleton, tintStage, Tint.IsPainted]
        cases Color.parse color with
        | error f => cases c <;> simp [GradeChange.filter, Stage.of]
        | ok parts =>
            cases c <;> simp [GradeChange.filter, GradeChange.option, Stage.of, Has, htint]
    | _ => cases c <;> simp [GradeChange.not_inStages_nil, Has, htint]
  rw [ownStages, GradeChange.inStages_append, GradeChange.inStages_append,
    GradeChange.inStages_append, hbalance, hgray, hsepia, htint]
  cases c <;> simp [GradeChange.filter]

end Grade

/-! ## Steps -/

theorem effectWord_append {word rest : String} (h : ':' ∉ word.toList) :
    effectWord (word ++ ":" ++ rest) = word := by
  have hword : ∀ ch ∈ word.toList, decide (ch ≠ ':') = true := by
    intro ch hch
    exact decide_eq_true fun heq => h (heq ▸ hch)
  rw [effectWord, String.toList_append, String.toList_append, List.append_assoc,
    List.takeWhile_append_of_pos hword]
  simp

namespace GradeChange

theorem inSteps_append {xs ys : List Fields} :
    c.InSteps (xs ++ ys) ↔ c.InSteps xs ∨ c.InSteps ys := by
  simp only [InSteps, List.mem_append, or_and_right, exists_or]

theorem inSteps_singleton {effect : String} {rest : Fields} :
    c.InSteps [effectStep effect ++ rest] ↔ effectWord effect = c.effect := by
  simp [InSteps, effectStep, Fields.get?]

theorem not_inSteps_nil : ¬c.InSteps [] := by simp [InSteps]

theorem inSteps_changeSteps {word : String} (h : ':' ∉ word.toList) :
    c.InSteps (Grade.changeSteps word n) ↔ n.isZero = false ∧ word = c.effect := by
  rw [Grade.changeSteps]
  split_ifs with hzero
  · exact iff_of_false not_inSteps_nil fun hne => Bool.false_ne_true (hne.1.symm.trans hzero)
  · rw [strengthStep, ← List.append_nil (effectStep _), inSteps_singleton, effectWord_append h]
    simp [hzero]

end GradeChange

namespace Grade

/-- There are no steps without a colour cast. -/
theorem eq_nil_of_tintSteps {t : Tint} {tint : List Fields}
    (h : ∀ color strength, t ≠ .cast color strength) (htint : tintSteps t = .ok tint) :
    tint = [] := by
  cases t with
  | cast color strength => exact absurd rfl (h color strength)
  | none => exact (Except.ok.inj htint).symm
  | unreadable v =>
      rw [tintSteps] at htint
      split_ifs at htint
      exact (Except.ok.inj htint).symm

/-- **The steps of a grade** show its changes. -/
theorem inSteps_ownSteps_iff {tint : List Fields} (htint : tintSteps g.tint = .ok tint) :
    c.InSteps (g.ownSteps tint) ↔ g.Has c := by
  have hgray : c.InSteps (if g.isGrayscale then [effectStep "grayscale"] else []) ↔
      g.isGrayscale = true ∧ "grayscale" = c.effect := by
    split_ifs with hgray
    · rw [← List.append_nil (effectStep _), GradeChange.inSteps_singleton]
      exact (and_iff_right hgray).symm
    · exact iff_of_false GradeChange.not_inSteps_nil fun h => hgray h.1
  have hsaturation : c.InSteps
      (if g.isGrayscale then [] else changeSteps "saturation" g.saturation) ↔
        g.isGrayscale = false ∧ g.saturation.isZero = false ∧ "saturation" = c.effect := by
    split_ifs with hgray
    · exact iff_of_false GradeChange.not_inSteps_nil fun h =>
        Bool.false_ne_true (h.1.symm.trans hgray)
    · rw [GradeChange.inSteps_changeSteps (by decide)]
      exact (and_iff_right (Bool.eq_false_iff.mpr hgray)).symm
  have hcast : c.InSteps tint ↔ c = .tint ∧ g.Has c := by
    cases hg : g.tint with
    | cast color strength =>
        rw [hg] at htint
        obtain ⟨shown, -, htint⟩ := Outcome.bind_eq_ok.mp htint
        obtain rfl := Except.ok.inj htint
        rw [strengthStep, GradeChange.inSteps_singleton, effectWord_append (by decide)]
        cases c <;> simp [GradeChange.effect, Has, hg]
    | _ =>
        obtain rfl := eq_nil_of_tintSteps (hg ▸ nofun) htint
        cases c <;> simp [GradeChange.not_inSteps_nil, Has, hg]
  simp only [ownSteps, GradeChange.inSteps_append, hgray, hsaturation, hcast]
  rw [GradeChange.inSteps_changeSteps (by decide), GradeChange.inSteps_changeSteps (by decide),
    GradeChange.inSteps_changeSteps (by decide), GradeChange.inSteps_changeSteps (by decide)]
  cases c <;> simp [GradeChange.effect, Has]

/-! ## Both renderings -/

theorem stages_eq_ok (h : g.tint.IsReadable) : g.stages = .ok (g.curveStages ++ g.ownStages) := by
  rw [stages, curveStages, ownStages]
  cases htint : g.tint with
  | unreadable v =>
      rw [htint] at h
      simp [show v.isTruthy = false from h, pure, Except.pure, bind, Except.bind]
  | _ => simp [pure, Except.pure, bind, Except.bind]

theorem steps_eq (hg : g.IsDerived) : g.steps = (do
    let curve ← curveSteps g.curve
    let tint ← tintSteps g.tint
    return curve ++ g.ownSteps tint) := by
  rw [steps, hg.preview]
  simp only [hg.art, ownSteps, Bool.false_eq_true, if_false, List.nil_append, List.append_assoc]

/-- The steps of a curve with a preview are known, and there are some. -/
theorem exists_curveSteps (hg : g.IsDerived) :
    ∃ curve, curveSteps g.curve = .ok curve ∧ (curve = [] ↔ g.curve.isTruthy = false) := by
  cases htruthy : g.curve.isTruthy with
  | false => exact ⟨[], by simp [curveSteps, htruthy], by simp⟩
  | true =>
      have hall : ∀ entry ∈ curvePreview, (curvePreview.lookup entry.1).getD [] ≠ [] := by decide
      obtain ⟨name, steps, hname, hmem⟩ := hg.curve htruthy
      refine ⟨effectSteps ((curvePreview.lookup name).getD []), ?_, ?_⟩
      · rw [hname] at htruthy ⊢
        unfold curveSteps
        rw [htruthy]
        rfl
      · simpa [effectSteps] using hall _ hmem

theorem not_inStages_curveStages : ¬c.InStages g.curveStages := by
  rw [curveStages]
  split_ifs
  · rw [GradeChange.inStages_singleton]
    cases c <;> simp [GradeChange.filter, Stage.of]
  · exact GradeChange.not_inStages_nil

theorem curveStages_eq_nil_iff : g.curveStages = [] ↔ g.curve.isTruthy = false := by
  rw [curveStages]
  cases g.curve.isTruthy <;> simp

/-- A grade that changes nothing has neither stages nor steps of its own. -/
theorem own_eq_nil_of_forall (h : ∀ c, ¬g.Has c) :
    g.ownStages = [] ∧ ∀ tint, tintSteps g.tint = .ok tint → g.ownSteps tint = [] := by
  have hbrightness : g.brightness.isZero = true := by simpa [Has] using h .brightness
  have hcontrast : g.contrast.isZero = true := by simpa [Has] using h .contrast
  have hgamma : g.gamma.isZero = true := by simpa [Has] using h .gamma
  have hsepia : g.sepia.isZero = true := by simpa [Has] using h .sepia
  have hgray : g.isGrayscale = false := by simpa [Has] using h .grayscale
  have hsaturation : g.saturation.isZero = true := by simpa [Has, hgray] using h .saturation
  have hcast : ∀ color strength, g.tint ≠ .cast color strength := by simpa [Has] using h .tint
  constructor
  · rw [ownStages]
    cases htint : g.tint with
    | cast color strength => exact absurd htint (hcast color strength)
    | _ => simp [balance, hbrightness, hcontrast, hgamma, hsepia, hgray, hsaturation]
  · intro tint htint
    obtain rfl := eq_nil_of_tintSteps hcast htint
    simp [ownSteps, changeSteps, hbrightness, hcontrast, hgamma, hsepia, hgray, hsaturation]

theorem ownStages_eq_nil_iff (h : g.tint.IsPainted) : g.ownStages = [] ↔ ∀ c, ¬g.Has c := by
  refine ⟨fun hnil c hhas => ?_, fun hnone => (own_eq_nil_of_forall hnone).1⟩
  have hshows : c.InStages g.ownStages := inStages_ownStages_iff.mpr ⟨hhas, fun _ => h⟩
  exact GradeChange.not_inStages_nil (hnil ▸ hshows)

theorem ownSteps_eq_nil_iff {tint : List Fields} (htint : tintSteps g.tint = .ok tint) :
    g.ownSteps tint = [] ↔ ∀ c, ¬g.Has c := by
  refine ⟨fun hnil c hhas => ?_, fun hnone => (own_eq_nil_of_forall hnone).2 tint htint⟩
  have hshows : c.InSteps (g.ownSteps tint) := (inSteps_ownSteps_iff htint).mpr hhas
  exact GradeChange.not_inSteps_nil (hnil ▸ hshows)

/-- **Which grades are rendered alike**: the colour of a cast has to be one that the preview service
takes and that the renderer reads. -/
theorem showsAlike_iff (hg : g.IsDerived) :
    g.ShowsAlike ↔ g.tint.IsShown ∧ g.tint.IsPainted := by
  obtain ⟨curve, hcurve, hempty⟩ := exists_curveSteps hg
  constructor
  · rintro ⟨stages, curve', own, hstages, hcurve', hsteps, -, hchanges⟩
    obtain rfl := Except.ok.inj (hcurve.symm.trans hcurve')
    rw [steps_eq hg] at hsteps
    obtain ⟨curve', hcurve', hsteps⟩ := Outcome.bind_eq_ok.mp hsteps
    obtain rfl := Except.ok.inj (hcurve.symm.trans hcurve')
    obtain ⟨tint, htint, hown⟩ := Outcome.bind_eq_ok.mp hsteps
    obtain rfl := List.append_cancel_left (Except.ok.inj hown)
    have hshown : g.tint.IsShown := isOk_tintSteps_iff.mp (Outcome.isOk_iff.mpr ⟨tint, htint⟩)
    rw [stages_eq_ok (isOk_stages_iff.mp (Outcome.isOk_iff.mpr ⟨_, hstages⟩))] at hstages
    obtain rfl := Except.ok.inj hstages
    refine ⟨hshown, ?_⟩
    cases hcast : g.tint with
    | cast color strength =>
        have hsteps := (inSteps_ownSteps_iff (c := .tint) htint).mpr ⟨color, strength, hcast⟩
        have hstages := (GradeChange.inStages_append.mp ((hchanges .tint).mpr hsteps)).resolve_left
          not_inStages_curveStages
        exact hcast ▸ (inStages_ownStages_iff.mp hstages).2 rfl
    | _ => trivial
  · rintro ⟨hshown, hpainted⟩
    obtain ⟨tint, htint⟩ := Outcome.isOk_iff.mp (isOk_tintSteps_iff.mpr hshown)
    have hreadable : g.tint.IsReadable := Tint.isReadable_of_isShown hshown
    refine ⟨_, curve, g.ownSteps tint, stages_eq_ok hreadable, hcurve, ?_, ?_, fun c => ?_⟩
    · rw [steps_eq hg, hcurve, htint]
      rfl
    · rw [List.append_eq_nil_iff, List.append_eq_nil_iff, curveStages_eq_nil_iff, hempty,
        ownStages_eq_nil_iff hpainted, ownSteps_eq_nil_iff htint]
    · rw [GradeChange.inStages_append, or_iff_right not_inStages_curveStages,
        inStages_ownStages_iff, inSteps_ownSteps_iff htint]
      exact and_iff_left fun _ => hpainted

/-! ## Grades at a strength -/

end Grade

theorem Tint.exists_scaled (hn : n.beyondReal = false) {t : Tint} (h : t.IsShown) :
    ∃ t', t.scaled n = .ok t' := by
  cases t with
  | none => exact ⟨_, rfl⟩
  | cast color strength => exact ⟨_, by rw [scaled, if_neg (Bool.eq_false_iff.mp hn)]⟩
  | unreadable v => exact ⟨_, by rw [scaled, if_neg (Bool.eq_false_iff.mp h)]⟩

/-- A colour cast keeps its colour when it is scaled. -/
theorem Tint.shown_and_painted_of_scaled {t t' : Tint} (h : t.scaled n = .ok t') :
    t'.IsShown ∧ t'.IsPainted ↔ t.IsShown ∧ t.IsPainted := by
  cases t with
  | none =>
      obtain rfl := Except.ok.inj h
      rfl
  | cast color strength =>
      rw [scaled] at h
      split_ifs at h
      obtain rfl := Except.ok.inj h
      rfl
  | unreadable v =>
      rw [scaled] at h
      split_ifs at h with htruthy
      obtain rfl := Except.ok.inj h
      exact iff_of_true ⟨trivial, trivial⟩ ⟨Bool.eq_false_iff.mpr htruthy, trivial⟩

/-- A number from zero to one is in the range of binary numbers. -/
theorem Number.beyondReal_of_between (h₀ : 0 ≤ n) (h₁ : n ≤ 1) : n.beyondReal = false := by
  cases n with
  | real x => rfl
  | int k =>
      have hfinite : ∀ m : Int, (int m).IsFinite := fun _ => rfl
      have hzero : ((0 : Int) : ℚ) ≤ (k : ℚ) := (place_le_iff (hfinite 0) (hfinite k)).mp
        ((le_iff (isOrdered_int 0) (isOrdered_int k)).mp h₀)
      have hone : (k : ℚ) ≤ ((1 : Int) : ℚ) := (place_le_iff (hfinite k) (hfinite 1)).mp
        ((le_iff (isOrdered_int k) (isOrdered_int 1)).mp h₁)
      have hsmall : |k| < 2 ^ 53 := by
        rw [Int.cast_le] at hzero hone
        exact abs_lt.mpr ⟨by omega, by omega⟩
      rw [beyondReal, Binary64.nearest_intCast hsmall]

namespace Grade

/-- What is scaled is the same grade or has a scaled colour cast, and its curve, its art and its
steps are kept. -/
theorem scaled_cases (h : g.scaled (some n) = .ok g') :
    g' = g ∨ g.tint.scaled n = .ok g'.tint ∧ g'.curve = g.curve ∧ g'.art = g.art ∧
      g'.preview = g.preview := by
  rw [scaled] at h
  split at h
  · exact .inl (Except.ok.inj h).symm
  · obtain ⟨t, ht, h⟩ := Outcome.bind_eq_ok.mp h
    split_ifs at h
    obtain rfl := Except.ok.inj h
    exact .inr ⟨ht, rfl, rfl, rfl⟩

theorem exists_scaled (hn : n.beyondReal = false) (h : g.tint.IsShown) :
    ∃ g', g.scaled (some n) = .ok g' := by
  obtain ⟨t, ht⟩ := Tint.exists_scaled hn h
  rw [scaled]
  by_cases hone : (n == 1) = true
  · exact ⟨g, if_pos hone⟩
  · rw [if_neg hone]
    exact ⟨_, Outcome.bind_eq_ok.mpr ⟨t, ht, if_neg (Bool.eq_false_iff.mp hn)⟩⟩

theorem showsAlike_iff_of_scaled (hg : g.IsDerived) (h : g.scaled (some n) = .ok g') :
    g'.ShowsAlike ↔ g.tint.IsShown ∧ g.tint.IsPainted := by
  rcases scaled_cases h with rfl | ⟨htint, hcurve, hart, hpreview⟩
  · exact showsAlike_iff hg
  · rw [showsAlike_iff ⟨hart ▸ hg.art, hpreview ▸ hg.preview, hcurve ▸ hg.curve⟩,
      Tint.shown_and_painted_of_scaled htint]

/-- **Which grades are rendered alike at a strength** from zero to one: those whose colour cast, if
any, has a colour that the preview service takes and that the renderer reads. -/
theorem showsAlike_scaled_iff (hg : g.IsDerived) (h₀ : 0 ≤ n) (h₁ : n ≤ 1) :
    (∃ g', g.scaled (some n) = .ok g' ∧ g'.ShowsAlike) ↔ g.tint.IsShown ∧ g.tint.IsPainted := by
  constructor
  · rintro ⟨g', hg', halike⟩
    exact (showsAlike_iff_of_scaled hg hg').mp halike
  · intro h
    obtain ⟨g', hg'⟩ := exists_scaled (Number.beyondReal_of_between h₀ h₁) h.1
    exact ⟨g', hg', (showsAlike_iff_of_scaled hg hg').mpr h⟩

/-! ## Grades from settings -/

/-- A grade of the settings without art, without steps of its own and without a curve of unknown
preview is derived from its numbers, and has the colour cast that is set. -/
theorem isDerived_of_ofValue {name : String} {fs : Fields} (h : ofValue name (.object fs) = .ok g)
    (hart : (fs.get "art").isTruthy = false) (hpreview : (fs.get "preview").isTruthy = false)
    (hcurve : (fs.get "curve").isTruthy = true →
      ∃ name steps, fs.get "curve" = .string name ∧ (name, steps) ∈ curvePreview) :
    g.IsDerived ∧ Tint.ofValue (fs.get "tint") = .ok g.tint := by
  rw [ofValue] at h
  obtain ⟨_, hfields, h⟩ := Outcome.bind_eq_ok.mp h
  obtain rfl := Except.ok.inj hfields
  obtain ⟨tint, htint, h⟩ := Outcome.bind_eq_ok.mp h
  obtain ⟨brightness, -, h⟩ := Outcome.bind_eq_ok.mp h
  obtain ⟨contrast, -, h⟩ := Outcome.bind_eq_ok.mp h
  obtain ⟨saturation, -, h⟩ := Outcome.bind_eq_ok.mp h
  obtain ⟨gamma, -, h⟩ := Outcome.bind_eq_ok.mp h
  obtain ⟨sepia, -, h⟩ := Outcome.bind_eq_ok.mp h
  rw [if_neg (Bool.eq_false_iff.mp hpreview)] at h
  obtain rfl := Except.ok.inj h
  exact ⟨⟨hart, rfl, hcurve⟩, htint⟩

/-- A grade that loses all colour and has a colour cast is made from its setting. -/
theorem exists_ofValue_tint (color : String) : ∃ g strength,
    ofValue "warm" (.object [("saturation", .int (-150)), ("tint", .string color)]) = .ok g ∧
      g.IsDerived ∧ g.tint = .cast color strength := by
  have hok : (ofValue "warm" (.object [("saturation", .int (-150)),
      ("tint", .string color)])).isOk = true := by
    refine isOk_ofValue_object.mpr ⟨nofun, ?_, rfl⟩
    simp only [List.forall_mem_cons]
    refine ⟨nofun, nofun, ?_, nofun, nofun, nofun⟩
    rintro _ ⟨⟩
    exact Value.isOk_toReal.mp (by decide +kernel)
  obtain ⟨g, hg⟩ := Outcome.isOk_iff.mp hok
  obtain ⟨hderived, htint⟩ := isDerived_of_ofValue hg rfl rfl nofun
  exact ⟨g, _, hg, hderived, (Except.ok.inj htint).symm⟩

/-- A grade that loses all colour and has a red cast, at half its strength. -/
theorem showsAlike_half_red : ∃ g,
    ofValue "warm" (.object [("saturation", .int (-150)), ("tint", .string "red")]) = .ok g ∧
      g.IsDerived ∧ (0 : Number) ≤ .real (.nearest (1 / 2)) ∧
      Number.real (.nearest (1 / 2)) ≤ 1 ∧
      ∃ g', g.scaled (some (.real (.nearest (1 / 2)))) = .ok g' ∧ g'.ShowsAlike := by
  obtain ⟨g, strength, hg, hderived, htint⟩ := exists_ofValue_tint "red"
  have hlow : (0 : Number) ≤ .real (.nearest (1 / 2)) := by decide +kernel
  have hhigh : Number.real (.nearest (1 / 2)) ≤ 1 := by decide +kernel
  have hcolor : (serviceColor "red").isOk = true ∧ (Color.parse "red").isOk = true := by
    decide +kernel
  refine ⟨g, hg, hderived, hlow, hhigh, (showsAlike_scaled_iff hderived hlow hhigh).mpr ?_⟩
  rw [htint]
  exact hcolor

/-- **Nothing comes of the preview** of a grade whose cast has a colour that is not known. -/
theorem not_showsAlike_unknown_color : ∃ g,
    ofValue "warm" (.object [("saturation", .int (-150)), ("tint", .string "nocolor")]) = .ok g ∧
      g.IsDerived ∧ ¬∃ g', g.scaled (some (.real (.nearest (1 / 2)))) = .ok g' ∧ g'.ShowsAlike := by
  obtain ⟨g, strength, hg, hderived, htint⟩ := exists_ofValue_tint "nocolor"
  refine ⟨g, hg, hderived, ?_⟩
  rintro ⟨g', hg', halike⟩
  have hshown := ((showsAlike_iff_of_scaled hderived hg').mp halike).1
  rw [htint] at hshown
  exact absurd hshown (by decide +kernel : ¬(serviceColor "nocolor").isOk = true)

end Grade

end Montage
