import Montage.Proofs.Engine.Compiling
import Montage.Proofs.Number.Stored

/-!
# One zoom, two renderings

A zoom enlarges the middle of the picture. The renderer gets stages for it, and none if the factor
is one. The preview service always gets one step, with the part of the picture that is kept: the
reciprocal of the factor, to four decimal places. So both renderings agree just if that part is
neither all of the picture nor nothing, when it is rounded.

## Main definitions

* `ZoomParams.IsVisible`: the zooms of which the preview service shows something.
* `ZoomsAlike`: both renderings show a zoom, or neither does.

## Main statements

* `Binary64.stepNumber_between_iff`: the parts that four decimal places leave between none and all.
* `Studio.exists_zoomsAlike_iff`: which zooms are rendered alike.
* `ZoomParams.isVisible_iff`: for which factors that is.
-/
namespace Montage

open Montage.Action Montage.Binary64

/-- The step that keeps a part of each side of the picture. -/
def zoomStep (part : Number) : Fields :=
  [("crop", .string "crop"), ("gravity", .string "center"), ("width", .number part),
    ("height", .number part)]

/-- The preview has no steps just if the expression is empty. Otherwise its step keeps one part of
both sides of the picture, which is neither all nor nothing of them. -/
structure ZoomsAlike (e : Expression) (d : Descriptor) : Prop where
  steps_eq_nil_iff : d.steps = [] ↔ e.isEmpty = true
  exists_part : d.steps ≠ [] → ∃ part : Number, d.steps = [zoomStep part] ∧ 0 < part ∧ part < 1

namespace ZoomParams

/-- The factor: the given one, or the one that the direction stands for. -/
def factor (p : ZoomParams) : Binary64 := p.zoom.getD (directionFactor "in" "out" p.direction)

/-- The part of the picture that is kept is neither all nor nothing, to four decimal places. -/
def IsVisible (p : ZoomParams) : Prop :=
  ∃ q, (1 / p.factor).toRat? = some q ∧ 1 / 20000 < q ∧ q < 19999 / 20000

end ZoomParams

/-! ## Four decimal places of a part -/

theorem roundHalfEven_pos_iff {q : ℚ} : 0 < roundHalfEven q ↔ 1 / 2 < q := by
  constructor
  · intro h
    by_contra hle
    have hhalf : roundHalfEven (1 / 2) = 0 :=
      roundHalfEven_eq_of_even rfl (by norm_num) (by norm_num)
    exact h.not_ge (hhalf ▸ roundHalfEven_mono (not_lt.mp hle))
  · intro h
    exact lt_roundHalfEven (by simpa using h)

/-- Half above an odd number is rounded to the even number above it. -/
theorem roundHalfEven_lt_iff {q : ℚ} : roundHalfEven q < 10000 ↔ q < 19999 / 2 := by
  constructor
  · intro h
    by_contra hle
    have hhalf : roundHalfEven (19999 / 2) = 10000 :=
      roundHalfEven_eq_of_even rfl (by norm_num) (by norm_num)
    exact h.not_ge (hhalf ▸ roundHalfEven_mono (not_lt.mp hle))
  · intro h
    have hnear := abs_le.mp (abs_sub_roundHalfEven_le_half q)
    have hlt : (roundHalfEven q : ℚ) < 10000 := by linarith
    exact_mod_cast hlt

namespace Binary64

variable {x : Binary64} {q r : ℚ}

/-- A positive rational in the range of the format is rounded to a number with a value. -/
theorem exists_nearest_eq (hq : 0 < q) (h : q ≤ 1) : ∃ r, nearest q = finite r := by
  have habs : |q| ≤ 1 := by rwa [abs_of_pos hq]
  obtain ⟨r, hr, -⟩ := within_nearest habs (by norm_num)
  exact ⟨r, nearest_eq_of_toRat? hq hr⟩

theorem eq_one_of_beq (h : (x == 1) = true) : x = 1 := by
  cases x with
  | finite v => exact congrArg finite (Option.some.inj (of_decide_eq_true h))
  | infinite negative => cases h
  | negZero => exact absurd h (by decide)
  | nan => cases h

theorem nearest_one : nearest 1 = finite 1 := by
  exact_mod_cast nearest_intCast (k := 1) (by decide)

theorem one_div_finite {v : ℚ} (h : 1 ≤ v) : 1 / finite v = nearest (1 / v) := by
  change (if v = 0 then _ else if (1 : ℚ) = 0 then _ else nearest (1 / v)) = _
  rw [if_neg (by positivity), if_neg one_ne_zero]

/-- The reciprocal of a larger number is no larger, also when both are rounded. -/
theorem le_of_nearest_one_div {v w : ℚ} (hv : 0 < v) (h : v ≤ w) (hq : nearest (1 / v) = finite q)
    (hr : nearest (1 / w) = finite r) : r ≤ q :=
  le_of_nearest (one_div_pos.mpr (hv.trans_le h)) (one_div_le_one_div_of_le hv h) hr hq

/-- No number of the format lies between two multiples of the last place that is kept of numbers
from a power of two on. -/
theorem next_le {v : ℚ} (hv : nearest v = finite v) {k l : Nat} (hplaces : k + l = 52)
    (hk : 2 ^ k ≤ v) {m : Int} (h : m / 2 ^ l < v) : (m + 1 : Int) / 2 ^ l ≤ v := by
  have hpos : 0 < v := lt_of_lt_of_le (by positivity) hk
  have hplace : power 2 (-l) = (2 ^ l)⁻¹ := by
    rw [power_eq_zpow, zpow_neg, zpow_natCast, Nat.cast_ofNat]
  obtain ⟨⟨n, hn⟩, -⟩ := nearest_eq_self_iff.mp hv
  obtain ⟨j, hj⟩ : ∃ j : Int, unit v = j * power 2 (-l) := by
    refine exists_power_eq ?_
    have hbinade : ¬binade v < k := fun hlt => hk.not_gt <| by
      simpa [power_natCast] using (binade_lt_iff hpos).mp hlt
    rw [abs_of_pos hpos, quantum]
    omega
  have hmultiple : v = (n * j : Int) / 2 ^ l := by
    rw [hn, hj, hplace]
    push_cast
    ring
  rw [hmultiple] at h ⊢
  have hlt := (div_lt_div_iff_of_pos_right (by positivity)).mp h
  refine div_le_div_of_nonneg_right ?_ (by positivity)
  exact_mod_cast Int.add_one_le_of_lt (by exact_mod_cast hlt)

/-- The least numbers with a reciprocal that is less than all by half a unit of the fourth decimal
place. -/
theorem lt_of_one_div_iff {v : ℚ} (hv : nearest v = finite v) (h : 1 ≤ v)
    (hr : nearest (1 / v) = finite r) : r < 19999 / 20000 ↔ 20000 / 19999 < v := by
  -- the numbers of the format on both sides of the bound, and their reciprocals
  have hbelow : nearest (1 / (4503824818611426 / 2 ^ 52)) =
      .finite (562921805923641 / 2 ^ 49) := by decide +kernel
  have habove : nearest (1 / (4503824818611427 / 2 ^ 52)) =
      .finite (4503374447389127 / 2 ^ 52) := by decide +kernel
  rcases le_or_gt v (4503824818611426 / 2 ^ 52) with hle | hlt
  · have hr' := le_of_nearest_one_div (by positivity) hle hr hbelow
    exact iff_of_false (by linarith) (by linarith)
  · have hnext : 4503824818611427 / 2 ^ 52 ≤ v := by
      have hle := next_le hv (k := 0) (l := 52) (m := 4503824818611426) rfl (by simpa) hlt
      norm_num at hle ⊢
      exact hle
    have hr' := le_of_nearest_one_div (by norm_num) hnext habove hr
    exact iff_of_true (by linarith) (by linarith)

/-- The greatest numbers with a reciprocal of more than half a unit of the fourth decimal place. -/
theorem le_of_one_div_iff {v : ℚ} (hv : nearest v = finite v) (h : 1 ≤ v)
    (hr : nearest (1 / v) = finite r) : 1 / 20000 < r ↔ v ≤ 20000 := by
  have hbelow : nearest (1 / 20000) = .finite (7378697629483821 / 2 ^ 67) := by decide +kernel
  have habove : nearest (1 / (5497558138880001 / 2 ^ 38)) =
      .finite (7378697629483819 / 2 ^ 67) := by decide +kernel
  rcases le_or_gt v 20000 with hle | hlt
  · have hr' := le_of_nearest_one_div (by positivity) hle hr hbelow
    exact iff_of_true (by linarith) hle
  · have hnext : 5497558138880001 / 2 ^ 38 ≤ v := by
      have hle := next_le hv (k := 14) (l := 38) (m := 5497558138880000) rfl (by linarith)
        (by norm_num; exact hlt)
      norm_num at hle ⊢
      exact hle
    have hr' := le_of_nearest_one_div (by norm_num) hnext habove hr
    exact iff_of_false (by linarith) hlt.not_ge

/-- The reciprocal of a number that is not below one is a part, or there is none. -/
theorem reciprocal_cases (h : ¬x < 1) :
    1 / x = nan ∨ ∃ q, (1 / x).toRat? = some q ∧ 0 ≤ q := by
  cases x with
  | nan => exact .inl rfl
  | negZero => exact absurd rfl h
  | infinite negative =>
      cases negative with
      | true => exact absurd rfl h
      | false => exact .inr ⟨0, rfl, le_rfl⟩
  | finite v =>
      have hv : 1 ≤ v := not_lt.mp fun hlt => h (decide_eq_true hlt)
      have hpos : 0 < 1 / v := by positivity
      obtain ⟨r, hr⟩ := exists_nearest_eq hpos ((div_le_one (by positivity)).mpr hv)
      exact .inr ⟨r, by rw [one_div_finite hv, hr]; rfl, nonneg_of_nearest hpos hr⟩

theorem one_le_place_nearest (h : 1 ≤ q) : 1 ≤ (nearest q).place := by
  have hpos := place_nearest_pos h
  cases hq : nearest q with
  | finite r =>
      have hle : 1 ≤ r := le_of_nearest one_pos h nearest_one hq
      exact WithBot.coe_le_coe.mpr (WithTop.coe_le_coe.mpr hle)
  | infinite negative =>
      cases negative with
      | false => exact le_top
      | true =>
          rw [hq] at hpos
          exact absurd hpos not_lt_bot
  | negZero =>
      rw [hq] at hpos
      exact absurd hpos (lt_irrefl 0)
  | nan => exact absurd hq (nearest_ne_nan q)

theorem place_stepNumber (x : Binary64) : (stepNumber x).place = (x.roundPlaces 4).place := by
  rw [stepNumber]
  split
  · next v hinteger hv => exact place_truncate hinteger hv
  · rfl

/-- A number of ten thousandths between none and all is rounded to a number between zero and one. -/
theorem place_nearest_between {n : Int} (h₀ : 0 < n) (h₁ : n < 10000) :
    0 < (nearest (n / 10000 : ℚ)).place ∧ (nearest (n / 10000 : ℚ)).place < 1 := by
  have hn : (1 : ℚ) ≤ n ∧ (n : ℚ) ≤ 9999 := by
    constructor
    · exact_mod_cast h₀
    · exact_mod_cast Int.lt_add_one_iff.mp h₁
  have hlow : (1 / 16384 : ℚ) ≤ n / 10000 := by linarith
  have hhigh : (n / 10000 : ℚ) ≤ 16383 / 16384 := by linarith
  have hleast : nearest (1 / 16384) = finite (1 / 16384) := by decide +kernel
  have hgreatest : nearest (16383 / 16384) = finite (16383 / 16384) := by decide +kernel
  obtain ⟨r, hr⟩ := exists_nearest_eq (q := n / 10000) (by linarith) (by linarith)
  have hr₀ : 1 / 16384 ≤ r := le_of_nearest (by norm_num) hlow hleast hr
  have hr₁ : r ≤ 16383 / 16384 := le_of_nearest (by linarith) hhigh hr hgreatest
  rw [hr]
  constructor
  · exact WithBot.coe_lt_coe.mpr (WithTop.coe_lt_coe.mpr (by linarith))
  · exact WithBot.coe_lt_coe.mpr (WithTop.coe_lt_coe.mpr (by linarith))

theorem roundPlaces_ne_nan (hx : x.toRat? = some q) (places : Nat) : x.roundPlaces places ≠ nan := by
  cases x with
  | finite v =>
      rw [roundPlaces]
      split_ifs
      · rw [zero]
        split_ifs <;> simp
      · exact nearest_ne_nan _
  | negZero => simp [roundPlaces]
  | infinite | nan => cases hx

theorem isOrdered_stepNumber (hx : x.toRat? = some q) : (stepNumber x).IsOrdered := by
  rw [stepNumber]
  split
  · exact Number.isOrdered_int _
  · exact roundPlaces_ne_nan hx 4

/-- Where four decimal places of a number from zero on lie. -/
theorem place_stepNumber_of_nonneg (hx : x.toRat? = some q) (h₀ : 0 ≤ q) :
    (stepNumber x).place = if roundHalfEven (q * 10000) = 0 then 0
      else (nearest (roundHalfEven (q * 10000) / 10000 : ℚ)).place := by
  rw [place_stepNumber]
  cases x with
  | finite v =>
      obtain rfl := Option.some.inj hx
      rw [roundPlaces_of_nonneg 4 h₀]
      norm_num only
      split_ifs <;> rfl
  | negZero =>
      obtain rfl := Option.some.inj hx
      have hround : roundHalfEven (0 * 10000) = 0 := by
        rw [zero_mul]
        exact roundHalfEven_intCast 0
      rw [if_pos hround]
      rfl
  | infinite | nan => cases hx

/-- **The parts that are shown.** Four decimal places leave a part between none and all just if it
is more than half a unit of the last of them, and less than all by more than half a unit. -/
theorem stepNumber_between_iff (hx : x.toRat? = some q) (h₀ : 0 ≤ q) :
    0 < stepNumber x ∧ stepNumber x < 1 ↔ 1 / 20000 < q ∧ q < 19999 / 20000 := by
  have hround : 0 < roundHalfEven (q * 10000) ∧ roundHalfEven (q * 10000) < 10000 ↔
      1 / 20000 < q ∧ q < 19999 / 20000 := by
    rw [roundHalfEven_pos_iff, roundHalfEven_lt_iff]
    constructor <;> rintro ⟨hlow, hhigh⟩ <;> constructor <;> linarith
  have hplaces : 0 < stepNumber x ∧ stepNumber x < 1 ↔
      0 < (stepNumber x).place ∧ (stepNumber x).place < 1 :=
    and_congr (Number.lt_iff (Number.isOrdered_int 0) (isOrdered_stepNumber hx))
      (Number.lt_iff (isOrdered_stepNumber hx) (Number.isOrdered_int 1))
  rw [hplaces, place_stepNumber_of_nonneg hx h₀, ← hround]
  have hnonneg : 0 ≤ roundHalfEven (q * 10000) :=
    (roundHalfEven_between (b := ⌈q * 10000⌉) (by simpa using h₀) (Int.le_ceil _)).1
  generalize roundHalfEven (q * 10000) = n at hnonneg ⊢
  split_ifs with hn
  · exact iff_of_false (fun h => lt_irrefl _ h.1) (by omega)
  · rcases lt_or_ge n 10000 with hlt | hge
    · exact iff_of_true (place_nearest_between (by omega) hlt) ⟨by omega, hlt⟩
    · have hall : (1 : ℚ) ≤ n / 10000 := by
        rw [le_div_iff₀ (by norm_num)]
        exact_mod_cast hge
      exact iff_of_false (fun h => h.2.not_ge (one_le_place_nearest hall)) (by omega)

end Binary64

/-! ## Compiling a zoom -/

namespace ZoomParams

variable {p : ZoomParams} {steps : List Fields}

theorem steps_eq (p : ZoomParams) : p.steps =
    if p.factor < 1 then
      .error (.compilation "Zooming out is not supported by the preview renderer")
    else .ok [zoomStep (stepNumber (1 / p.factor))] := rfl

theorem compileZoom_eq (p : ZoomParams) : Studio.compileZoom p =
    if p.factor == 1 then .nothing else .ofVideo (zoomStages p.factor) := rfl

theorem steps_eq_ok_iff : p.steps = .ok steps ↔
    ¬p.factor < 1 ∧ steps = [zoomStep (stepNumber (1 / p.factor))] := by
  rw [steps_eq]
  split_ifs with h
  · simp [h]
  · simp [h, eq_comm]

/-- The renderer has nothing to do just if the factor is one. -/
theorem isEmpty_compileZoom (p : ZoomParams) :
    (Studio.compileZoom p).isEmpty = (p.factor == 1) := by
  rw [compileZoom_eq]
  split_ifs with h
  · rw [h]
    rfl
  · rw [Bool.eq_false_iff.mpr h, zoomStages]
    split_ifs <;> rfl

/-- A zoom is visible just if its step keeps a part of the picture between none and all. -/
theorem isVisible_iff_stepNumber (h : ¬p.factor < 1) :
    p.IsVisible ↔ 0 < stepNumber (1 / p.factor) ∧ stepNumber (1 / p.factor) < 1 := by
  rcases Binary64.reciprocal_cases h with hnan | ⟨q, hq, h₀⟩
  · rw [IsVisible, hnan]
    exact iff_of_false nofun (by decide)
  · rw [Binary64.stepNumber_between_iff hq h₀, IsVisible, hq]
    simp

theorem IsVisible.factor_ne_one (h : p.IsVisible) : (p.factor == 1) = false := by
  obtain ⟨q, hq, -, hlt⟩ := h
  refine Bool.eq_false_iff.mpr fun hone => ?_
  have hself : (1 / 1 : Binary64) = .finite 1 :=
    (Binary64.one_div_finite le_rfl).trans (by rw [div_one, Binary64.nearest_one])
  rw [Binary64.eq_one_of_beq hone, hself] at hq
  obtain rfl := Option.some.inj hq
  norm_num at hlt

/-- **A zoom is rendered alike** just if it is visible. -/
theorem zoomsAlike_iff {e : Expression} {d : Descriptor}
    (he : e.isEmpty = (Studio.compileZoom p).isEmpty) (hd : p.steps = .ok d.steps) :
    ZoomsAlike e d ↔ p.IsVisible := by
  obtain ⟨hfactor, hsteps⟩ := steps_eq_ok_iff.mp hd
  have hne : d.steps ≠ [] := by simp [hsteps]
  rw [isEmpty_compileZoom] at he
  constructor
  · intro halike
    obtain ⟨part, hpart, hlow, hhigh⟩ := halike.exists_part hne
    obtain rfl : stepNumber (1 / p.factor) = part := by
      simpa [zoomStep] using hsteps.symm.trans hpart
    exact (isVisible_iff_stepNumber hfactor).mpr ⟨hlow, hhigh⟩
  · intro hvisible
    have hfull : e.isEmpty = false := he.trans hvisible.factor_ne_one
    exact ⟨iff_of_false hne (by simp [hfull]), fun _ => ⟨_, hsteps,
      (isVisible_iff_stepNumber hfactor).mp hvisible⟩⟩

/-- **The zooms that are visible** are those by factors above `20000 / 19999`, up to 20000. -/
theorem isVisible_iff {v : ℚ} (hv : p.factor = .finite v) (hstored : nearest v = .finite v)
    (h : 1 ≤ v) : p.IsVisible ↔ 20000 / 19999 < v ∧ v ≤ 20000 := by
  have hpos : 0 < v := one_pos.trans_le h
  obtain ⟨r, hr⟩ := exists_nearest_eq (one_div_pos.mpr hpos) ((div_le_one hpos).mpr h)
  rw [IsVisible, hv, one_div_finite h, hr, ← lt_of_one_div_iff hstored h hr,
    ← le_of_one_div_iff hstored h hr]
  simp [toRat?, and_comm]

end ZoomParams

namespace Studio

variable {s : Studio} {p : ZoomParams} {window : Option Window} {fs : Fields} {kind : Value}
  {resource : Resource} {σ : Session} {d : Descriptor}

/-- The expression of a zoom, to which a window adds a warning. -/
theorem exists_compileOperation_adjustZoom (s : Studio) (p : ZoomParams) (window : Option Window)
    (σ : Session) : ∃ e, ((s.compileOperation ⟨.adjustZoom p, window⟩).exec σ).1 = .ok e ∧
      e.isEmpty = (compileZoom p).isEmpty := by
  rw [compileOperation]
  have hedit : (s.compileEdit (.adjustZoom p)).exec σ = (.ok (compileZoom p), σ) := rfl
  rw [exec_bind_of_ok hedit]
  cases window with
  | none => exact ⟨_, rfl, rfl⟩
  | some w => exact ⟨_, rfl, rfl⟩

/-- The steps of a zoom, which a window leaves as they are. -/
theorem returns_previewOperation_adjustZoom :
    Returns (s.previewOperation ⟨.adjustZoom p, window⟩ resource) fun d =>
      p.steps = .ok d.steps := by
  have hedit : Returns (s.previewEdit window (.adjustZoom p)) fun r => p.steps = .ok r.1 :=
    (returns_ofEdit fun _ h => h).bind fun _ hsteps => .pure hsteps
  exact hedit.bind fun (steps, warnings) hsteps => .after fun _ => .after fun _ => .pure hsteps

/-- **Which zooms are rendered alike.** Whatever the preview service is sent, the renderer gets an
expression as well, and the two agree just if the zoom is visible. -/
theorem exists_zoomsAlike_iff (s : Studio) {kind : Value} {fs : Fields} {window : Option Window}
    {resource : Resource} {σ : Session} {d : Descriptor}
    (hkind : Kind.ofValue? kind = some .adjustZoom)
    (hpreview : ((s.preview kind (.object fs) window resource).exec σ).1 = .ok d) (σ' : Session) :
    ∃ p e, ZoomParams.ofFields fs = .ok p ∧
      ((s.compile kind (.object fs) window).exec σ').1 = .ok e ∧
        (ZoomsAlike e d ↔ p.IsVisible) := by
  obtain ⟨⟨edit, w⟩, ho, hd⟩ := (preview_eq_ok_iff hkind).mp hpreview
  obtain ⟨p, hp, rfl⟩ := Outcome.map_eq_ok.mp (Operation.edit_of_ofFields ho)
  obtain ⟨e, he, hempty⟩ := exists_compileOperation_adjustZoom s p w σ'
  have hsteps := returns_previewOperation_adjustZoom σ d hd
  exact ⟨p, e, hp, (compile_eq_ok_iff hkind).mpr ⟨_, ho, he⟩,
    ZoomParams.zoomsAlike_iff hempty hsteps⟩

/-- A zoom by a number. -/
def zoomFields (factor : Number) : Value := .object [("zoom", .number factor)]

/-- A zoom by two keeps half of the picture. -/
theorem exists_zoomsAlike_two :
    let s : Studio := ⟨.default, .builtIn⟩
    validate (.string "adjustZoom") (zoomFields 2) = .ok .accepted ∧ ∃ d e,
      ((s.preview (.string "adjustZoom") (zoomFields 2) none .video).exec (.of default [] [])).1 =
        .ok d ∧
      ((s.compile (.string "adjustZoom") (zoomFields 2) none).exec (.of default [] [])).1 = .ok e ∧
      ZoomsAlike e d := by
  intro s
  have hok : ((s.preview (.string "adjustZoom") (zoomFields 2) none .video).exec
      (.of default [] [])).1.isOk = true := by decide +kernel
  obtain ⟨d, hd⟩ := Outcome.isOk_iff.mp hok
  obtain ⟨p, e, hp, he, halike⟩ :=
    exists_zoomsAlike_iff s (Kind.ofValue?_name .adjustZoom) hd (.of default [] [])
  refine ⟨by decide +kernel, d, e, hd, he, halike.mpr ?_⟩
  have hfactor : (ZoomParams.ofFields [("zoom", .number 2)]).map ZoomParams.factor =
      .ok (.finite 2) := by decide +kernel
  rw [hp] at hfactor
  exact (ZoomParams.isVisible_iff (Except.ok.inj hfactor) (by decide +kernel) (by norm_num)).mpr
    (by norm_num)

/-- **A zoom by one** has no expression, but a step that keeps all of the picture. -/
theorem not_zoomsAlike_one :
    let s : Studio := ⟨.default, .builtIn⟩
    validate (.string "adjustZoom") (zoomFields 1) = .ok .accepted ∧ ∃ d e,
      ((s.preview (.string "adjustZoom") (zoomFields 1) none .video).exec (.of default [] [])).1 =
        .ok d ∧
      ((s.compile (.string "adjustZoom") (zoomFields 1) none).exec (.of default [] [])).1 = .ok e ∧
      ¬ZoomsAlike e d := by
  intro s
  have hok : ((s.preview (.string "adjustZoom") (zoomFields 1) none .video).exec
      (.of default [] [])).1.isOk = true := by decide +kernel
  have hsome : ((s.preview (.string "adjustZoom") (zoomFields 1) none .video).exec
      (.of default [] [])).1.toOption.all (!·.steps.isEmpty) = true := by decide +kernel
  have hok' : ((s.compile (.string "adjustZoom") (zoomFields 1) none).exec
      (.of default [] [])).1.isOk = true := by decide +kernel
  have hnone : ((s.compile (.string "adjustZoom") (zoomFields 1) none).exec
      (.of default [] [])).1.toOption.all (·.isEmpty) = true := by decide +kernel
  obtain ⟨d, hd⟩ := Outcome.isOk_iff.mp hok
  obtain ⟨e, he⟩ := Outcome.isOk_iff.mp hok'
  have hsteps : d.steps ≠ [] := by simpa [hd, Except.toOption] using hsome
  have hempty : e.isEmpty = true := by simpa [he, Except.toOption] using hnone
  exact ⟨by decide +kernel, d, e, hd, he, fun halike =>
    hsteps (halike.steps_eq_nil_iff.mpr hempty)⟩

end Studio

end Montage
