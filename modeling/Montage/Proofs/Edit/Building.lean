import Montage.Edit.Operation
import Montage.Proofs.Number.Order
import Montage.Proofs.Outcome

/-!
# Building edits

An edit is built from the fields of a request if every field that it reads as a number is or writes
one. Most edits read the first value that is present under several keys; some read one key whatever
is under it.

## Main definitions

* `Value.IsReal`, `Fields.FirstIsReal`: a value, and the first present one of several, that is a
  number.
* `Value.ListsCues`: a value that lists captions.
* `Kind.HasNumbers`: the numbers that an edit reads are there.
* `Fields.HasWindow`: so are the times of its window, in order.

## Main statements

* `Edit.isOk_ofFields`: an edit is built if its numbers are there.
* `Window.isOk_ofFields`: a window is built if its times are there and in order.
-/
namespace Montage

/-- The value is or writes a binary number. -/
def Value.IsReal (v : Value) : Prop := ∃ x, v.toReal = .ok x

namespace Fields

/-- What is found first under the keys, if anything is, is or writes a number. -/
def FirstIsReal (fs : Fields) (keys : List String) : Prop := ∀ v ∈ fs.first? keys, v.IsReal

/-- What is under a key, whether it is present or not, is null or a number. -/
def HasTime (fs : Fields) (key : String) : Prop := fs.get key = .null ∨ (fs.get key).IsReal

/-- The times of a window are there as far as they are given, and in order once they are rounded. -/
structure HasWindow (fs : Fields) : Prop where
  start : fs.HasTime "startTime"
  finish : fs.HasTime "endTime"
  order : ∀ x y, (fs.get "startTime").toReal = .ok x → (fs.get "endTime").toReal = .ok y → ¬y ≤ x

end Fields

namespace Value

/-- The value is a caption whose times are numbers. -/
def IsCue (v : Value) : Prop :=
  ∃ fs : Fields, v = .object fs ∧ fs.FirstIsReal ["start", "startTime"] ∧
    fs.FirstIsReal ["end", "endTime"]

/-- The value, unless there is no truth to it, yields captions. -/
def ListsCues (v : Value) : Prop :=
  v.isTruthy = true → ∃ vs, v.items = .ok vs ∧ ∀ w ∈ vs, w.IsCue

end Value

/-- The numbers that an edit of the kind reads are there as far as they are given; a rectangle needs
all of its own. -/
def Kind.HasNumbers (fs : Fields) : Kind → Prop
  | .trim => fs.FirstIsReal ["start", "startTime"] ∧ fs.FirstIsReal ["end", "endTime"]
  | .removeClip => fs.FirstIsReal ["startTime", "start"] ∧ fs.FirstIsReal ["endTime", "end"]
  | .colorGrade => fs.HasTime "intensity"
  | .applyEffect => fs.FirstIsReal ["intensity"]
  | .addText | .customText => True
  | .filter => fs.FirstIsReal ["level", "intensity", "value"]
  | .addCaptions => (fs.value ["captions", "segments"]).ListsCues
  | .adjustIntensity => fs.FirstIsReal ["newIntensity", "intensity"]
  | .adjustZoom => fs.FirstIsReal ["newZoom", "zoom", "zoomLevel"]
  | .adjustSpeed => fs.FirstIsReal ["speed"]
  | .rotate => fs.FirstIsReal ["degrees", "rotation", "angle"]
  | .crop => ∀ key ∈ ["x", "y", "width", "height"], (fs.get key).IsReal

section

variable {fs : Fields} {keys : List String} {key : String} {v : Value}

theorem Value.isOk_toReal : v.toReal.isOk = true ↔ v.IsReal := Outcome.isOk_iff

theorem Value.not_isReal_null : ¬Value.null.IsReal := by
  rintro ⟨x, ⟨⟩⟩

namespace Fields

theorem isOk_real? : (fs.real? keys).isOk = true ↔ fs.FirstIsReal keys := by
  rw [real?, FirstIsReal]
  cases fs.first? keys <;> simp [Value.isOk_toReal]

theorem isOk_real {x : Binary64} : (fs.real keys x).isOk = true ↔ fs.FirstIsReal keys := by
  rw [real, FirstIsReal]
  cases fs.first? keys <;> simp [Value.isOk_toReal]

theorem requiredReal_eq_ok_iff {x : Binary64} :
    fs.requiredReal key = .ok x ↔ (fs.get key).toReal = .ok x := by
  rw [requiredReal, get]
  cases fs.get? key with
  | none => exact iff_of_false nofun nofun
  | some v => rfl

theorem isOk_requiredReal : (fs.requiredReal key).isOk = true ↔ (fs.get key).IsReal := by
  simp only [Outcome.isOk_iff, requiredReal_eq_ok_iff, Value.IsReal]

end Fields

theorem GradeParams.isOk_ofFields :
    (GradeParams.ofFields fs).isOk = true ↔ fs.HasTime "intensity" := by
  rw [ofFields, Fields.HasTime]
  cases fs.get "intensity" with
  | null => simp
  | _ =>
      dsimp only
      rw [Outcome.isOk_bind_of_forall fun _ => rfl, Value.isOk_toReal]
      simp

theorem Cue.isOk_ofFields :
    (Cue.ofFields fs).isOk = true ↔
      fs.FirstIsReal ["start", "startTime"] ∧ fs.FirstIsReal ["end", "endTime"] := by
  rw [ofFields]
  rw [Outcome.isOk_bind_bind fun _ _ => rfl, Bool.and_eq_true, Fields.isOk_real, Fields.isOk_real]

theorem Cue.isOk_ofValue : (Cue.ofValue v).isOk = true ↔ v.IsCue := by
  rw [ofValue, Value.IsCue]
  cases v with
  | object fs => simpa [Value.fields, Outcome.isOk_bind] using Cue.isOk_ofFields
  | _ => simp [Value.fields, Outcome.isOk_bind]

theorem CaptionParams.isOk_cuesOf : (CaptionParams.cuesOf v).isOk = true ↔ v.ListsCues := by
  rw [cuesOf, Value.ListsCues]
  split_ifs with htruthy
  · simp only [Outcome.isOk_bind, Outcome.isOk_mapM, Cue.isOk_ofValue, htruthy, forall_const]
  · simp [htruthy]

theorem CropParams.isOk_ofFields :
    (CropParams.ofFields fs).isOk = true ↔
      ∀ key ∈ ["x", "y", "width", "height"], (fs.get key).IsReal := by
  simp only [ofFields, Outcome.isOk_bind, List.forall_mem_cons, ← Fields.isOk_requiredReal]
  simp [Outcome.isOk_iff]

/-- **Which edits can be built.** -/
theorem Edit.isOk_ofFields {k : Kind} :
    (Edit.ofFields k fs).isOk = true ↔ k.HasNumbers fs := by
  cases k with
  | addText => simp [ofFields, Kind.HasNumbers]
  | customText => simp [ofFields, Kind.HasNumbers]
  | colorGrade =>
      rw [ofFields, Outcome.isOk_map, GradeParams.isOk_ofFields]
      rfl
  | crop =>
      rw [ofFields, Outcome.isOk_map, CropParams.isOk_ofFields]
      rfl
  | trim =>
      rw [ofFields, Outcome.isOk_map, TrimParams.ofFields, Outcome.isOk_bind_bind fun _ _ => rfl,
        Bool.and_eq_true, Fields.isOk_real, Fields.isOk_real?]
      rfl
  | removeClip =>
      rw [ofFields, Outcome.isOk_map, RemovalParams.ofFields, Outcome.isOk_bind_bind fun _ _ => rfl,
        Bool.and_eq_true, Fields.isOk_real, Fields.isOk_real]
      rfl
  | applyEffect =>
      rw [ofFields, Outcome.isOk_map, EffectParams.ofFields,
        Outcome.isOk_bind_of_forall fun _ => rfl, Fields.isOk_real]
      rfl
  | filter =>
      rw [ofFields, Outcome.isOk_map, FilterParams.ofFields,
        Outcome.isOk_bind_of_forall fun _ => rfl, Fields.isOk_real?]
      rfl
  | addCaptions =>
      rw [ofFields, Outcome.isOk_map, CaptionParams.ofFields,
        Outcome.isOk_bind_of_forall fun _ => rfl, CaptionParams.isOk_cuesOf]
      rfl
  | adjustIntensity =>
      rw [ofFields, Outcome.isOk_map, IntensityParams.ofFields,
        Outcome.isOk_bind_of_forall fun _ => rfl, Fields.isOk_real?]
      rfl
  | adjustZoom =>
      rw [ofFields, Outcome.isOk_map, ZoomParams.ofFields,
        Outcome.isOk_bind_of_forall fun _ => rfl, Fields.isOk_real?]
      rfl
  | adjustSpeed =>
      rw [ofFields, Outcome.isOk_map, SpeedParams.ofFields,
        Outcome.isOk_bind_of_forall fun _ => rfl, Fields.isOk_real]
      rfl
  | rotate =>
      rw [ofFields, Outcome.isOk_map, RotationParams.ofFields,
        Outcome.isOk_bind_of_forall fun _ => rfl, Fields.isOk_real]
      rfl

theorem Edit.kind_of_ofFields {k : Kind} {e : Edit} (h : Edit.ofFields k fs = .ok e) :
    e.kind = k := by
  cases k with
  | addText | customText =>
      obtain rfl := Except.ok.inj h
      rfl
  | _ =>
      obtain ⟨p, -, rfl⟩ := Outcome.map_eq_ok.mp h
      rfl

namespace Operation

variable {k : Kind} {window : Option Window} {o : Operation}

/-- The window of an operation: the given one, or the one that the fields ask for. -/
def windowOf (k : Kind) (fs : Fields) (window : Option Window) : Except Fault (Option Window) :=
  if window.isNone && !k.isBounded then Window.ofFields fs else .ok window

theorem ofFields_eq :
    Operation.ofFields k fs window = (do
      let w ← windowOf k fs window
      let e ← Edit.ofFields k fs
      return ⟨e, w⟩) := by
  rw [Operation.ofFields, windowOf]
  split_ifs <;> rfl

theorem edit_of_ofFields (h : Operation.ofFields k fs window = .ok o) :
    Edit.ofFields k fs = .ok o.edit := by
  rw [ofFields_eq] at h
  obtain ⟨w, -, h⟩ := Outcome.bind_eq_ok.mp h
  obtain ⟨e, he, h⟩ := Outcome.bind_eq_ok.mp h
  obtain rfl := Except.ok.inj h
  exact he

/-- An object of parameters is built from its fields. -/
@[simp] theorem ofValue_object :
    ofValue k (.object fs) window = Operation.ofFields k fs window := by
  cases fs with
  | nil => rfl
  | cons f fs => rfl

theorem build_of_kind {kind params : Value} (h : Kind.ofValue? kind = some k) :
    build kind params window = (ofValue k params window).mapError .fault := by
  rw [build, Kind.parse, h]

@[simp] theorem ofValue_null : ofValue k .null window = Operation.ofFields k [] window := rfl

end Operation

namespace Window

/-- A window whose bounds are not seen to be out of order is built. -/
theorem isOk_of {start : Number} {finish : Option Number} :
    (Window.of start finish).isOk = true ↔ ¬start < 0 ∧ ∀ e ∈ finish, ¬e ≤ start := by
  simp only [Window.of]
  split_ifs with hstart
  · simp [hstart]
  · cases finish with
    | none => simp [hstart]
    | some e =>
        dsimp only
        split_ifs with horder <;> simp [hstart, horder]

theorem isOk_time? : (time? fs key).isOk = true ↔ fs.HasTime key := by
  rw [time?, Fields.HasTime]
  split
  · simp [*]
  · rename_i hnull
    rw [Outcome.isOk_map, Value.isOk_toReal]
    exact ⟨.inr, fun h => h.resolve_left hnull⟩

theorem mem_of_time? {t : Option Binary64} (h : time? fs key = .ok t) {x : Binary64} :
    x ∈ t ↔ (fs.get key).toReal = .ok x := by
  rw [time?] at h
  split at h
  · rename_i hnull
    cases h
    rw [hnull]
    exact iff_of_false nofun nofun
  · obtain ⟨y, hy, rfl⟩ := Outcome.map_eq_ok.mp h
    rw [hy]
    simp

/-- A zero at the start of a window is taken for the positive one, which compares as it does. -/
theorem le_start_iff {x y : Binary64} : y ≤ (if x.isZero then .finite 0 else x) ↔ y ≤ x := by
  split_ifs with hzero
  · by_cases hy : y = .nan
    · exact iff_of_false (fun h => (Binary64.ne_nan_of_le h).1 hy)
        fun h => (Binary64.ne_nan_of_le h).1 hy
    · have hx : x ≠ .nan := by rintro rfl; cases hzero
      rw [Binary64.le_iff hy (by simp), Binary64.le_iff hy hx, Binary64.place_of_isZero hzero]
      rfl
  · rfl

theorem isOk_between {start finish : Option Binary64} (hstart : ∀ x ∈ start, 0 ≤ x.place)
    (hfinish : ∀ y ∈ finish, y = .nan ∨ 0 < y.place) :
    (between start finish).isOk = true ↔ ∀ x ∈ start, ∀ y ∈ finish, ¬y ≤ x := by
  simp only [between]
  cases start with
  | none =>
      cases finish with
      | none => simp
      | some y =>
          dsimp only
          rw [Outcome.isOk_map, isOk_of]
          have hy : ¬y ≤ .finite 0 := fun hle => (hfinish y rfl).elim (Binary64.ne_nan_of_le hle).1
            (Binary64.place_le_of_le hle).not_gt
          refine iff_of_true ⟨by decide, ?_⟩ (by simp)
          rintro e ⟨⟩
          exact hy
  | some x =>
      dsimp only
      have hx : ¬(if x.isZero then .finite 0 else x) < Binary64.finite 0 := fun hlt => by
        refine (Binary64.place_lt_of_lt hlt).not_ge ?_
        split_ifs
        · exact le_rfl
        · exact hstart x rfl
      have horder : (∀ e ∈ finish.map Number.real, ¬e ≤ .real (if x.isZero then .finite 0 else x)) ↔
          ∀ y ∈ finish, ¬y ≤ x := by
        simp only [Option.mem_map, forall_exists_index, and_imp, forall_apply_eq_imp_iff₂]
        exact forall₂_congr fun y _ => not_congr le_start_iff
      rw [Outcome.isOk_map, isOk_of, horder]
      simp only [Option.mem_some, forall_eq']
      exact and_iff_right hx

/-- **Which windows can be built**, when the times bound what they should. -/
theorem isOk_ofFields (hstart : ∀ x, (fs.get "startTime").toReal = .ok x → 0 ≤ x.place)
    (hfinish : ∀ y, (fs.get "endTime").toReal = .ok y → y = .nan ∨ 0 < y.place) :
    (Window.ofFields fs).isOk = true ↔ fs.HasWindow := by
  rw [ofFields]
  simp only [Outcome.isOk_bind]
  constructor
  · rintro ⟨t, ht, u, hu, hok⟩
    rw [isOk_between (fun x hx => hstart x ((mem_of_time? ht).mp hx))
      fun y hy => hfinish y ((mem_of_time? hu).mp hy)] at hok
    exact {
      start := isOk_time?.mp (Outcome.isOk_iff.mpr ⟨t, ht⟩)
      finish := isOk_time?.mp (Outcome.isOk_iff.mpr ⟨u, hu⟩)
      order := fun x y hx hy => hok x ((mem_of_time? ht).mpr hx) y ((mem_of_time? hu).mpr hy) }
  · intro h
    obtain ⟨t, ht⟩ := Outcome.isOk_iff.mp (isOk_time?.mpr h.start)
    obtain ⟨u, hu⟩ := Outcome.isOk_iff.mp (isOk_time?.mpr h.finish)
    refine ⟨t, ht, u, hu, ?_⟩
    rw [isOk_between (fun x hx => hstart x ((mem_of_time? ht).mp hx))
      fun y hy => hfinish y ((mem_of_time? hu).mp hy)]
    exact fun x hx y hy => h.order x y ((mem_of_time? ht).mp hx) ((mem_of_time? hu).mp hy)

end Window

end

end Montage
