import Montage.Proofs.Engine.Compiling
import Montage.Proofs.Number.Stored

/-!
# One rectangle, two renderings

A crop becomes a stage in whole pixels for the renderer, and for the preview service a step whose
numbers have four decimal places at most. The check bounds the numbers as they are given: a side has
to be above zero, and need not reach one. So both renderings cut out one and the same rectangle just
if each number is an integer, up to half a unit of the fourth decimal place, and each side reaches
one.

## Main definitions

* `PixelRectangle`: rectangles of whole pixels.
* `Studio.CutsOut`: both renderings cut out the rectangle.
* `Fields.HasRectangle`: the fields describe a rectangle of whole pixels.
* `Fields.HasStored`: the binary numbers among them are finite ones of the format.

## Main statements

* `Binary64.isPixels_iff`: the numbers that stand for the same integer in both renderings.
* `Studio.exists_cutsOut_iff`: which accepted crops are rendered alike.
-/
namespace Montage

open Montage.Action

/-- A rectangle of whole pixels, which is not empty. -/
structure PixelRectangle where
  x : Nat
  y : Nat
  width : Nat
  height : Nat
  width_pos : 0 < width
  height_pos : 0 < height

namespace PixelRectangle

/-- The stage that cuts the rectangle out. -/
def stage (r : PixelRectangle) : Stage :=
  .of "crop" [("w", .int r.width), ("h", .int r.height), ("x", .int r.x), ("y", .int r.y)]

/-- The step that cuts the rectangle out. -/
def step (r : PixelRectangle) : Fields :=
  [("crop", .string "crop"), ("width", .int r.width), ("height", .int r.height), ("x", .int r.x),
    ("y", .int r.y)]

end PixelRectangle

/-- In every session the renderer gets the one stage that cuts the rectangle out, and the preview
service the one step. -/
def Studio.CutsOut (s : Studio) (kind params : Value) (window : Option Window)
    (r : PixelRectangle) : Prop :=
  ∀ σ, (∃ e, ((s.compile kind params window).exec σ).1 = .ok e ∧
      e.video = [r.stage] ∧ e.audio = []) ∧
    ∀ resource, ∃ d, ((s.preview kind params window resource).exec σ).1 = .ok d ∧
      d.steps = [r.step]

/-- The number under the key is `low` at least, and exceeds an integer by half a unit of the fourth
decimal place at most. -/
def Fields.HasPixels (fs : Fields) (low : Nat) (key : String) : Prop :=
  ∃ x v, (fs.get key).toReal = .ok x ∧ x.toRat? = some v ∧ low ≤ v ∧ Int.fract v ≤ 1 / 20000

/-- The fields describe a rectangle of whole pixels, which is not empty. -/
structure Fields.HasRectangle (fs : Fields) : Prop where
  x : fs.HasPixels 0 "x"
  y : fs.HasPixels 0 "y"
  width : fs.HasPixels 1 "width"
  height : fs.HasPixels 1 "height"

/-- The binary numbers under the keys of a rectangle are finite numbers of the format. -/
def Fields.HasStored (fs : Fields) : Prop :=
  ∀ key ∈ ["x", "y", "width", "height"], ∀ x, fs.get key = .real x → x.IsStored

/-! ## Numbers of pixels -/

namespace Binary64

/-- The number stands for `n` pixels in both renderings. -/
def IsPixels (x : Binary64) (n : Nat) : Prop := x.toInt = .ok n ∧ stepNumber x = .int n

variable {x : Binary64} {v : ℚ} {n : Nat}

theorem stepNumber_eq_int_iff {k : Int} :
    stepNumber x = .int k ↔ (x.roundPlaces 4).toRat? = some (k : ℚ) := by
  rw [stepNumber]
  generalize x.roundPlaces 4 = r
  cases r with
  | finite v =>
      by_cases hv : v.den = 1
      · have hcast : (v.num : ℚ) = v := Rat.coe_int_num_of_den_eq_one hv
        simp only [isInteger, hv, toRat?, decide_true]
        rw [← hcast, truncate_intCast]
        simp
      · simp only [isInteger, hv, toRat?, decide_false]
        refine iff_of_false (by simp) ?_
        rintro ⟨⟩
        exact hv (Rat.den_intCast k)
  | negZero =>
      have hzero : truncate 0 = 0 := by exact_mod_cast truncate_intCast 0
      simp only [isInteger, toRat?, hzero]
      simp [eq_comm]
  | infinite negative => simp [isInteger, toRat?]
  | nan => simp [isInteger, toRat?]

theorem toInt_finite_eq_iff (h₀ : 0 ≤ v) : (finite v).toInt = .ok (n : Int) ↔ ⌊v⌋ = n := by
  rw [toInt, truncate, if_neg h₀.not_gt, Except.ok.injEq]
  rfl

/-- **Numbers of pixels.** A number stands for the same integer in both renderings just if it
exceeds that integer by half a unit of the fourth decimal place at most. -/
theorem isPixels_iff (hx : x.IsStored) (h₀ : 0 ≤ x) :
    x.IsPixels n ↔ ∃ v, x.toRat? = some v ∧ ⌊v⌋ = n ∧ Int.fract v ≤ 1 / 20000 := by
  cases x with
  | finite v =>
      obtain ⟨_, ⟨⟩, hv⟩ := hx
      have hv₀ : 0 ≤ v := WithTop.coe_le_coe.mp (WithBot.coe_le_coe.mp (place_le_of_le h₀))
      have hplaces : (1 / 20000 : ℚ) = 1 / 2 / 10 ^ 4 := by norm_num
      rw [IsPixels, toInt_finite_eq_iff hv₀, hplaces]
      constructor
      · rintro ⟨hfloor, hstep⟩
        rw [stepNumber_eq_int_iff, ← hfloor] at hstep
        exact ⟨v, rfl, hfloor,
          (toRat?_roundPlaces_eq_floor_iff (by decide) hv hv₀).mp hstep⟩
      · rintro ⟨_, ⟨⟩, hfloor, hfract⟩
        refine ⟨hfloor, ?_⟩
        rw [stepNumber_eq_int_iff, ← hfloor]
        exact (toRat?_roundPlaces_eq_floor_iff (by decide) hv hv₀).mpr hfract
  | negZero =>
      simp [IsPixels, toInt, stepNumber_eq_int_iff, roundPlaces, toRat?, eq_comm]
  | infinite negative =>
      obtain ⟨_, ⟨⟩, -⟩ := hx
  | nan =>
      obtain ⟨_, ⟨⟩, -⟩ := hx

end Binary64

/-! ## Compiling a crop -/

namespace CropParams

variable {p : CropParams} {r : PixelRectangle}

theorem stage_eq_ok_iff : p.stage = .ok r.stage ↔
    p.x.toInt = .ok r.x ∧ p.y.toInt = .ok r.y ∧ p.width.toInt = .ok r.width ∧
      p.height.toInt = .ok r.height := by
  simp only [stage, Outcome.bind_eq_ok]
  constructor
  · rintro ⟨w, hw, h, hh, x, hx, y, hy, heq⟩
    simp only [PixelRectangle.stage, Stage.of, pure, Except.pure, Except.ok.injEq] at heq
    simp at heq
    obtain ⟨rfl, rfl, rfl, rfl⟩ := heq
    exact ⟨hx, hy, hw, hh⟩
  · rintro ⟨hx, hy, hw, hh⟩
    exact ⟨_, hw, _, hh, _, hx, _, hy, rfl⟩

theorem step_eq_iff : p.step = r.step ↔
    stepNumber p.x = .int r.x ∧ stepNumber p.y = .int r.y ∧ stepNumber p.width = .int r.width ∧
      stepNumber p.height = .int r.height := by
  simp [step, PixelRectangle.step, numberPart]
  tauto

/-- A crop is rendered as a rectangle of whole pixels just if its numbers stand for those of the
rectangle. -/
theorem stage_step_iff : p.stage = .ok r.stage ∧ p.step = r.step ↔
    p.x.IsPixels r.x ∧ p.y.IsPixels r.y ∧ p.width.IsPixels r.width ∧
      p.height.IsPixels r.height := by
  rw [stage_eq_ok_iff, step_eq_iff]
  simp only [Binary64.IsPixels]
  tauto

end CropParams

namespace Studio

variable {s : Studio} {p : CropParams} {window : Option Window} {fs : Fields} {kind : Value}
  {r : PixelRectangle} {resource : Resource} {σ : Session}

/-- The stages of a crop, which a window leaves as they are. -/
theorem stages_compileOperation_crop :
    ((s.compileOperation ⟨.crop p, window⟩).exec σ).1.map (fun e => (e.video, e.audio)) =
      (p.stage.mapError Failure.fault).map fun stage => ([stage], []) := by
  rw [compileOperation]
  cases hstage : p.stage with
  | error f =>
      have hedit : (s.compileEdit (.crop p)).exec σ = (.error (.fault f), σ) :=
        exec_bind_of_error (by rw [exec_ofFault, hstage]; rfl)
      rw [exec_bind_of_error hedit]
      rfl
  | ok stage =>
      have hedit : (s.compileEdit (.crop p)).exec σ = (.ok (.ofVideo [stage]), σ) :=
        exec_bind_of_ok (by rw [exec_ofFault, hstage]; rfl)
      rw [exec_bind_of_ok hedit]
      cases window <;> rfl

/-- The step of a crop, which a window leaves as it is. -/
theorem steps_previewOperation_crop :
    ((s.previewOperation ⟨.crop p, window⟩ resource).exec σ).1.map Descriptor.steps =
      .ok [p.step] := by
  rw [previewOperation]
  have hedit : (s.previewEdit window (.crop p)).exec σ = (.ok ([p.step], []), σ) := rfl
  rw [exec_bind_of_ok hedit]
  cases window <;> rfl

theorem exists_stages_iff {stage : Stage} :
    (∃ e, ((s.compileOperation ⟨.crop p, window⟩).exec σ).1 = .ok e ∧
      e.video = [stage] ∧ e.audio = []) ↔ p.stage = .ok stage := by
  have hstages : ((s.compileOperation ⟨.crop p, window⟩).exec σ).1.map
      (fun e => (e.video, e.audio)) =
        (p.stage.mapError Failure.fault).map fun stage => ([stage], []) :=
    stages_compileOperation_crop
  constructor
  · rintro ⟨e, he, hvideo, haudio⟩
    rw [he, eq_comm, Except.map, hvideo, haudio, Outcome.map_eq_ok] at hstages
    obtain ⟨stage', hstage, heq⟩ := hstages
    obtain rfl : stage' = stage := by simpa using heq
    exact Outcome.mapError_eq_ok.mp hstage
  · intro hstage
    rw [hstage, Outcome.mapError_ok, Except.map, Outcome.map_eq_ok] at hstages
    obtain ⟨e, he, heq⟩ := hstages
    exact ⟨e, he, congrArg Prod.fst heq, congrArg Prod.snd heq⟩

theorem exists_steps_iff {step : Fields} :
    (∃ d, ((s.previewOperation ⟨.crop p, window⟩ resource).exec σ).1 = .ok d ∧
      d.steps = [step]) ↔ p.step = step := by
  rw [← Outcome.map_eq_ok, steps_previewOperation_crop]
  simp

theorem ofFields_crop_eq_ok_iff {o : Operation} :
    Operation.ofFields .crop fs window = .ok o ↔ ∃ w p, Operation.windowOf .crop fs window = .ok w ∧
      CropParams.ofFields fs = .ok p ∧ o = ⟨.crop p, w⟩ := by
  rw [Operation.ofFields_eq, Outcome.bind_eq_ok]
  refine exists_congr fun w => ?_
  rw [Outcome.bind_eq_ok, Edit.ofFields]
  constructor
  · rintro ⟨hw, e, he, ho⟩
    obtain ⟨p, hp, rfl⟩ := Outcome.map_eq_ok.mp he
    exact ⟨p, hw, hp, (Except.ok.inj ho).symm⟩
  · rintro ⟨p, hw, hp, rfl⟩
    exact ⟨hw, .crop p, Outcome.map_eq_ok.mpr ⟨p, hp, rfl⟩, rfl⟩

/-- Both renderings cut out the rectangle that the stage and the step of the crop describe. -/
theorem cutsOut_iff (hkind : Kind.ofValue? kind = some .crop) :
    s.CutsOut kind (.object fs) window r ↔ (Operation.windowOf .crop fs window).isOk = true ∧
      ∃ p, CropParams.ofFields fs = .ok p ∧ p.stage = .ok r.stage ∧ p.step = r.step := by
  simp only [CutsOut, compile_eq_ok_iff hkind, preview_eq_ok_iff hkind]
  constructor
  · intro h
    obtain ⟨⟨e, ⟨o, ho, he⟩, hvideo, haudio⟩, hpreview⟩ := h (.of ⟨[]⟩ [] [])
    obtain ⟨d, ⟨o', ho', hd⟩, hsteps⟩ := hpreview .video
    obtain rfl : o = o' := Except.ok.inj (ho.symm.trans ho')
    obtain ⟨w, p, hw, hp, rfl⟩ := ofFields_crop_eq_ok_iff.mp ho
    exact ⟨Outcome.isOk_iff.mpr ⟨w, hw⟩, p, hp, exists_stages_iff.mp ⟨e, he, hvideo, haudio⟩,
      exists_steps_iff.mp ⟨d, hd, hsteps⟩⟩
  · rintro ⟨hw, p, hp, hstage, hstep⟩ σ
    obtain ⟨w, hw⟩ := Outcome.isOk_iff.mp hw
    have ho := ofFields_crop_eq_ok_iff.mpr ⟨w, p, hw, hp, rfl⟩
    constructor
    · obtain ⟨e, he, hstages⟩ := exists_stages_iff.mpr hstage
      exact ⟨e, ⟨_, ho, he⟩, hstages⟩
    · intro resource
      obtain ⟨d, hd, hsteps⟩ := exists_steps_iff.mpr hstep
      exact ⟨d, ⟨_, ho, hd⟩, hsteps⟩

end Studio

/-! ## Accepted crops -/

section

variable {fs : Fields} {key : String} {low : Nat} {x : Binary64}

theorem CropParams.ofFields_eq_ok_iff {p : CropParams} :
    CropParams.ofFields fs = .ok p ↔ (fs.get "x").toReal = .ok p.x ∧
      (fs.get "y").toReal = .ok p.y ∧ (fs.get "width").toReal = .ok p.width ∧
        (fs.get "height").toReal = .ok p.height := by
  simp only [← Fields.requiredReal_eq_ok_iff]
  rw [ofFields]
  constructor
  · intro h
    obtain ⟨x, hx, h⟩ := Outcome.bind_eq_ok.mp h
    obtain ⟨y, hy, h⟩ := Outcome.bind_eq_ok.mp h
    obtain ⟨width, hwidth, h⟩ := Outcome.bind_eq_ok.mp h
    obtain ⟨height, hheight, h⟩ := Outcome.bind_eq_ok.mp h
    obtain rfl := Except.ok.inj h
    exact ⟨hx, hy, hwidth, hheight⟩
  · rintro ⟨hx, hy, hwidth, hheight⟩
    rw [hx, hy, hwidth, hheight]
    rfl

/-- An accepted number of pixels is a finite number of the format from zero on. -/
theorem isStored_of_accepted (h : fieldProblems .crop fs = .ok []) (hstored : fs.HasStored)
    (hkey : key ∈ ["x", "y", "width", "height"]) (hx : (fs.get key).toReal = .ok x) :
    x.IsStored ∧ 0 ≤ x := by
  obtain ⟨f, hf, rfl, htype, haliases, hbound⟩ : ∃ f ∈ checkedFields .crop, f.name = key ∧
      f.type = .number ∧ f.aliases = [] ∧ (f.minimum = some 0 ∨ f.above = some 0) := by
    fin_cases hkey
    · exact ⟨_, .head _, rfl, rfl, rfl, .inl rfl⟩
    · exact ⟨_, .tail _ (.head _), rfl, rfl, rfl, .inl rfl⟩
    · exact ⟨_, .tail _ (.tail _ (.head _)), rfl, rfl, rfl, .inr rfl⟩
    · exact ⟨_, .tail _ (.tail _ (.tail _ (.head _))), rfl, rfl, rfl, .inr rfl⟩
  obtain ⟨n, hget, rfl, hadm⟩ := exists_admitted h hf htype haliases hx
  have hfinite : n.toReal.IsStored := by
    cases n with
    | real y => exact hstored _ hkey y hget
    | int k =>
        refine Number.isStored_toReal ?_
        rw [hget, Value.toReal, Number.toReal?] at hx
        split_ifs at hx with hbeyond
        exact Bool.not_eq_true _ ▸ hbeyond
  have hn : n.IsOrdered := by
    by_contra hnan
    rw [Number.toReal_of_not_isOrdered hnan] at hfinite
    obtain ⟨_, ⟨⟩, -⟩ := hfinite
  refine ⟨hfinite, Number.zero_le_toReal hn ?_⟩
  rcases hbound with hmin | habove
  · exact (hadm hn).minimum 0 hmin
  · exact (Number.le_iff (Number.isOrdered_int 0) hn).mpr
      ((Number.lt_iff (Number.isOrdered_int 0) hn).mp ((hadm hn).above 0 habove)).le

/-- A number of pixels stands for the same integer in both renderings. -/
theorem hasPixels_iff (h : fieldProblems .crop fs = .ok []) (hstored : fs.HasStored)
    (hkey : key ∈ ["x", "y", "width", "height"]) :
    fs.HasPixels low key ↔ ∃ x n, (fs.get key).toReal = .ok x ∧ low ≤ n ∧ x.IsPixels n := by
  constructor
  · rintro ⟨x, v, hx, hv, hlow, hfract⟩
    obtain ⟨hfinite, hnonneg⟩ := isStored_of_accepted h hstored hkey hx
    have hfloor : (low : Int) ≤ ⌊v⌋ := Int.le_floor.mpr (by exact_mod_cast hlow)
    have hnat : ⌊v⌋ = (⌊v⌋.toNat : Int) := (Int.toNat_of_nonneg (by omega)).symm
    exact ⟨x, ⌊v⌋.toNat, hx, by omega,
      (Binary64.isPixels_iff hfinite hnonneg).mpr ⟨v, hv, hnat, hfract⟩⟩
  · rintro ⟨x, n, hx, hlow, hpixels⟩
    obtain ⟨hfinite, hnonneg⟩ := isStored_of_accepted h hstored hkey hx
    obtain ⟨v, hv, hfloor, hfract⟩ := (Binary64.isPixels_iff hfinite hnonneg).mp hpixels
    refine ⟨x, v, hx, hv, ?_, hfract⟩
    calc (low : ℚ) ≤ (⌊v⌋ : ℚ) := by rw [hfloor]; exact_mod_cast hlow
      _ ≤ v := Int.floor_le v

/-- The numbers of an accepted crop are those of a rectangle just if its fields describe one. -/
theorem exists_rectangle_iff (h : fieldProblems .crop fs = .ok []) (hstored : fs.HasStored) :
    (∃ (r : PixelRectangle) (p : CropParams), CropParams.ofFields fs = .ok p ∧
      p.stage = .ok r.stage ∧ p.step = r.step) ↔ fs.HasRectangle := by
  have hpixels (low : Nat) {key : String} (hkey : key ∈ ["x", "y", "width", "height"]) :
      fs.HasPixels low key ↔ ∃ x n, (fs.get key).toReal = .ok x ∧ low ≤ n ∧ x.IsPixels n :=
    hasPixels_iff h hstored hkey
  constructor
  · rintro ⟨r, p, hp, hrendered⟩
    obtain ⟨hx, hy, hwidth, hheight⟩ := CropParams.ofFields_eq_ok_iff.mp hp
    obtain ⟨hrx, hry, hrwidth, hrheight⟩ := CropParams.stage_step_iff.mp hrendered
    exact {
      x := (hpixels 0 (by simp)).mpr ⟨p.x, r.x, hx, r.x.zero_le, hrx⟩
      y := (hpixels 0 (by simp)).mpr ⟨p.y, r.y, hy, r.y.zero_le, hry⟩
      width := (hpixels 1 (by simp)).mpr ⟨p.width, r.width, hwidth, r.width_pos, hrwidth⟩
      height := (hpixels 1 (by simp)).mpr ⟨p.height, r.height, hheight, r.height_pos, hrheight⟩ }
  · intro hrectangle
    obtain ⟨x, rx, hx, -, hrx⟩ := (hpixels 0 (by simp)).mp hrectangle.x
    obtain ⟨y, ry, hy, -, hry⟩ := (hpixels 0 (by simp)).mp hrectangle.y
    obtain ⟨width, rwidth, hwidth, hpos, hrwidth⟩ := (hpixels 1 (by simp)).mp hrectangle.width
    obtain ⟨height, rheight, hheight, hpos', hrheight⟩ :=
      (hpixels 1 (by simp)).mp hrectangle.height
    exact ⟨⟨rx, ry, rwidth, rheight, hpos, hpos'⟩, ⟨x, y, width, height⟩,
      CropParams.ofFields_eq_ok_iff.mpr ⟨hx, hy, hwidth, hheight⟩,
      CropParams.stage_step_iff.mpr ⟨hrx, hry, hrwidth, hrheight⟩⟩

end

namespace Studio

/-- **Which accepted crops are rendered alike.** Both renderings of an accepted crop with finite
numbers cut out one rectangle of whole pixels, which is not empty, just if its window is in order and
its numbers describe such a rectangle: each of them is an integer, up to half a unit of the fourth
decimal place, and the sides reach one. -/
theorem exists_cutsOut_iff (s : Studio) {kind : Value} {fs : Fields} {verdict : Verdict}
    (hkind : Kind.ofValue? kind = some .crop) (hverdict : validate kind (.object fs) = .ok verdict)
    (hvalid : verdict.valid = true) (hstored : fs.HasStored) (window : Option Window) :
    (∃ r, s.CutsOut kind (.object fs) window r) ↔
      (window.isSome = true ∨ fs.HasWindow) ∧ fs.HasRectangle := by
  have haccepted := fieldProblems_of_valid hkind hverdict hvalid
  have hwindow : (Operation.windowOf .crop fs window).isOk = true ↔
      window.isSome = true ∨ fs.HasWindow := by
    rw [← Window.isOk_ofFields (fun x => place_startTime_nonneg rfl haccepted)
      fun y => endTime_after_zero rfl haccepted]
    cases window <;> simp [Operation.windowOf, Kind.isBounded]
  simp only [cutsOut_iff hkind, exists_and_left]
  rw [hwindow, exists_rectangle_iff haccepted hstored]

theorem hasWindow_cropFields (width : Number) : (cropFields width).HasWindow where
  start := .inl rfl
  finish := .inl rfl
  order _ _ hx _ := nomatch hx

theorem hasStored_cropFields {width : Binary64} (h : width.IsStored) :
    (cropFields (.real width)).HasStored := by
  intro key hkey x hx
  fin_cases hkey
  · cases hx
  · cases hx
  · obtain rfl := Number.real.inj (Value.number.inj hx)
    exact h
  · cases hx

/-- A rectangle ten pixels wide, and a little more that neither rendering shows. -/
theorem exists_cutsOut_ten :
    validate (.string "crop") (.object (cropFields (.real (.finite (327681 / 32768))))) =
        .ok .accepted ∧
      (cropFields (.real (.finite (327681 / 32768)))).HasStored ∧
      ∃ r, plainEngine.studio.CutsOut (.string "crop")
        (.object (cropFields (.real (.finite (327681 / 32768))))) none r := by
  have haccepted : validate (.string "crop")
      (.object (cropFields (.real (.finite (327681 / 32768))))) = .ok .accepted := by
    decide +kernel
  have hstored : (cropFields (.real (.finite (327681 / 32768)))).HasStored :=
    hasStored_cropFields ⟨_, rfl, by decide +kernel⟩
  have hzero : (0 : Number).toReal? = .ok (.finite 0) := by decide +kernel
  have hten : (Number.int 10).toReal? = .ok (.finite 10) := by decide +kernel
  have hrectangle : (cropFields (.real (.finite (327681 / 32768)))).HasRectangle := {
    x := ⟨.finite 0, 0, hzero, rfl, by norm_num, by norm_num⟩
    y := ⟨.finite 0, 0, hzero, rfl, by norm_num, by norm_num⟩
    width := ⟨_, 327681 / 32768, rfl, rfl, by norm_num, by norm_num [Int.fract]⟩
    height := ⟨.finite 10, 10, hten, rfl, by norm_num, by norm_num⟩ }
  exact ⟨haccepted, hstored, (exists_cutsOut_iff plainEngine.studio (Kind.ofValue?_name .crop)
    haccepted rfl hstored none).mpr ⟨.inr (hasWindow_cropFields _), hrectangle⟩⟩

/-- **Half a pixel** of width is accepted, and no rectangle is cut out. -/
theorem not_cutsOut_half :
    validate (.string "crop") (.object (cropFields (.real (.finite (1 / 2))))) = .ok .accepted ∧
      ¬∃ r, plainEngine.studio.CutsOut (.string "crop")
        (.object (cropFields (.real (.finite (1 / 2))))) none r := by
  refine ⟨by decide +kernel, ?_⟩
  rintro ⟨r, hr⟩
  obtain ⟨-, p, hp, hstage, -⟩ := (cutsOut_iff (Kind.ofValue?_name .crop)).mp hr
  obtain ⟨-, -, hwidth, -⟩ := CropParams.ofFields_eq_ok_iff.mp hp
  obtain ⟨-, -, hpixels, -⟩ := CropParams.stage_eq_ok_iff.mp hstage
  have hvalue : p.width = .finite (1 / 2) := (Except.ok.inj hwidth).symm
  have hnone : (Binary64.finite (1 / 2)).toInt = .ok 0 := by decide +kernel
  rw [hvalue, hnone] at hpixels
  have hwidth₀ : 0 = (r.width : Int) := Except.ok.inj hpixels
  have := r.width_pos
  omega

end Studio

end Montage
