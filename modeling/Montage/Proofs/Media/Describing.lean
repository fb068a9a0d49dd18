import Mathlib.Data.Set.List
import Montage.Media.Info
import Montage.Proofs.Edit.Building
import Montage.Proofs.Files.Path

/-!
# What a description has to tell

The description of a media file is whatever the inspecting program prints. Something is read of it,
or it is refused for want of a picture, if it has the shape of a description: streams that are
objects, a rate, and numbers in the places where numbers are read. Any other description is a fault.
A description without a duration has that shape, and a duration of zero is read of it.

## Main definitions

* `Value.IsRate`, `Value.IsWhole`: the values that are read as a rate, and as an integer.
* `MediaInfo.Tells`: what is read of the chosen streams and of the format can be read.
* `Value.IsDescription`: the shape of a description.
* `Value.LacksDuration`: no duration is told.

## Main statements

* `StreamChoice.ofStreams_eq_ok_iff`: which streams are chosen.
* `MediaInfo.isOk_rateOf_iff`: which values are rates.
* `MediaInfo.ofDescription_ne_fault_iff`: when reading a description is no fault.
* `MediaInfo.duration_of_lacksDuration`: what is read where no duration is told.
-/
namespace Montage

namespace Value

/-- The value is an integer, or it can be read as one. -/
def IsWhole (v : Value) : Prop := ∃ n, v.toInt = .ok n

/-- The text writes a fraction: its divisor is a number, and so is the dividend if it is read. -/
def IsFraction (text : String) : Prop :=
  ∃ a b : String, text.toList = a.toList ++ '/' :: b.toList ∧ '/' ∉ a.toList ∧ '/' ∉ b.toList ∧
    ∃ divisor, (string b).toReal = .ok divisor ∧ (0 < divisor → (string a).IsReal)

/-- The value is a text that writes a fraction, or one without a stroke that writes a number. -/
def IsRate (v : Value) : Prop :=
  ∃ s, v = .string s ∧ (IsFraction s ∨ '/' ∉ s.toList ∧ v.IsReal)

end Value

namespace MediaInfo

/-- What is read of the chosen streams and of the format can be read. A duration and a bit rate of
no value are not read. -/
structure Tells (fs video : Fields) (audio : Option Fields) : Prop where
  rate : (getOr video "r_frame_rate" (.string "30/1")).IsRate
  format : ∃ format : Fields, getOr fs "format" (.object []) = .object format ∧
    ((format.get "duration").isTruthy = true → (format.get "duration").IsReal) ∧
    ((format.get "bit_rate").isTruthy = true → (format.get "bit_rate").IsWhole)
  sound : ∀ a ∈ audio, (getOr a "sample_rate" (.int 0)).IsWhole

end MediaInfo

open MediaInfo

namespace Value

/-- The value is an object and its streams are objects. If there is a picture among them, then what
is read can be read. -/
def IsDescription (v : Value) : Prop :=
  ∃ (fs : Fields) (streams : List Fields), v = .object fs ∧
    (getOr fs "streams" (.list [])).items = .ok (streams.map Value.object) ∧
    ∀ video ∈ streams.find? (StreamChoice.isOf "video"),
      Tells fs video (streams.find? (StreamChoice.isOf "audio"))

/-- The format in the description tells no duration. -/
def LacksDuration (v : Value) : Prop :=
  ∀ fs format : Fields, v = .object fs → getOr fs "format" (.object []) = .object format →
    format.get "duration" = .null

end Value

variable {path : Path} {fs video format : Fields} {audio : Option Fields} {v : Value}
  {info : MediaInfo}

theorem Value.fields_eq_ok_iff {name : String} : v.fields name = .ok fs ↔ v = .object fs := by
  cases v <;> simp [fields]

/-! ## The streams -/

namespace StreamChoice

theorem isOf_audio_of_video {stream : Fields} (h : isOf "video" stream = true) :
    isOf "audio" stream = false := by
  rw [isOf] at h ⊢
  cases hkind : stream.get "codec_type" with
  | string s => simp_all
  | _ => rfl

/-- A stream is added to a choice just if the choice has no stream of its kind yet. -/
theorem add_eq (c : StreamChoice) (stream : Fields) : c.add stream =
    ⟨c.video.or (if isOf "video" stream then some stream else .none),
      c.audio.or (if isOf "audio" stream then some stream else .none)⟩ := by
  obtain ⟨video, audio⟩ := c
  rw [add]
  cases hvideo : isOf "video" stream with
  | true => cases video <;> simp [isOf_audio_of_video hvideo]
  | false => cases haudio : isOf "audio" stream <;> cases audio <;> simp

theorem foldlM_add (streams : List Fields) (c : StreamChoice) :
    (streams.map Value.object).foldlM (fun c v => (v.fields "get").map c.add) c =
      .ok ⟨c.video.or (streams.find? (isOf "video")),
        c.audio.or (streams.find? (isOf "audio"))⟩ := by
  induction streams generalizing c with
  | nil => simp [pure, Except.pure]
  | cons stream streams ih =>
      refine (ih (c.add stream)).trans ?_
      rw [add_eq, List.find?_cons, List.find?_cons]
      cases isOf "video" stream <;> cases isOf "audio" stream <;> simp

/-- **The first streams of both kinds** are chosen, where all streams are objects. -/
theorem ofStreams_eq_ok_iff {vs : List Value} {c : StreamChoice} : ofStreams vs = .ok c ↔
    ∃ streams : List Fields, vs = streams.map Value.object ∧
      c = ⟨streams.find? (isOf "video"), streams.find? (isOf "audio")⟩ := by
  constructor
  · intro h
    have hobjects : ∀ v ∈ vs, v ∈ Set.range Value.object := by
      intro v hv
      obtain ⟨fs, hfs⟩ := Outcome.isOk_iff.mp
        ((Outcome.isOk_foldlM (g := Value.fields "get") fun _ _ => Outcome.isOk_map).mp
          (Outcome.isOk_iff.mpr ⟨c, h⟩) v hv)
      exact ⟨fs, (Value.fields_eq_ok_iff.mp hfs).symm⟩
    obtain ⟨streams, rfl⟩ : vs ∈ Set.range (List.map Value.object) :=
      Set.range_list_map Value.object ▸ hobjects
    rw [ofStreams, foldlM_add] at h
    exact ⟨streams, rfl, (Except.ok.inj h).symm⟩
  · rintro ⟨streams, rfl, rfl⟩
    exact foldlM_add streams none

end StreamChoice

namespace MediaInfo

/-! ## The rate -/

theorem isOk_fraction_iff {text : String} :
    (fraction text).isOk = true ↔ Value.IsFraction text := by
  have hparts {a b : String} (h : Path.splitAt '/' text.toList = [a.toList, b.toList]) :
      (fraction text).isOk = true ↔ ∃ divisor, (Value.string b).toReal = .ok divisor ∧
        (0 < divisor → (Value.string a).IsReal) := by
    rw [fraction, h]
    dsimp only
    rw [String.ofList_toList, String.ofList_toList, Outcome.isOk_bind]
    refine exists_congr fun divisor => and_congr_right fun _ => ?_
    split_ifs with hpos
    · rw [imp_iff_right hpos, Outcome.isOk_bind_of_forall fun _ => rfl]
      exact Value.isOk_toReal (v := .string a)
    · exact iff_of_true rfl fun h => absurd h hpos
  constructor
  · intro h
    obtain ⟨as, bs, hsplit⟩ : ∃ as bs, Path.splitAt '/' text.toList = [as, bs] := by
      rw [fraction] at h
      split at h
      · exact ⟨_, _, ‹_›⟩
      · cases h
    rw [← String.toList_ofList (l := as), ← String.toList_ofList (l := bs)] at hsplit
    obtain ⟨htext, ha, hb⟩ := Path.splitAt_eq_pair_iff.mp hsplit
    exact ⟨_, _, htext, ha, hb, (hparts hsplit).mp h⟩
  · rintro ⟨a, b, htext, ha, hb, hread⟩
    exact (hparts (Path.splitAt_eq_pair_iff.mpr ⟨htext, ha, hb⟩)).mpr hread

theorem mem_of_isFraction {text : String} (h : Value.IsFraction text) : '/' ∈ text.toList := by
  obtain ⟨a, b, htext, -⟩ := h
  rw [htext]
  exact List.mem_append_right _ List.mem_cons_self

/-- **A rate** is a text that writes a fraction or a number. -/
theorem isOk_rateOf_iff : (rateOf v).isOk = true ↔ v.IsRate := by
  rw [Value.IsRate]
  cases v with
  | string s =>
      simp only [Value.string.injEq, exists_eq_left']
      by_cases hstroke : '/' ∈ s.toList
      · have hrate : rateOf (.string s) = fraction s := by
          simp [rateOf, hstroke]
        rw [hrate, isOk_fraction_iff]
        exact (or_iff_left fun h => h.1 hstroke).symm
      · have hrate : rateOf (.string s) = (Value.string s).toReal := by
          simp [rateOf, hstroke]
        rw [hrate, Value.isOk_toReal, or_iff_right fun h => hstroke (mem_of_isFraction h),
          and_iff_right hstroke]
  | list vs =>
      refine iff_of_false ?_ nofun
      unfold rateOf
      dsimp only
      generalize vs.any _ = divided
      cases divided <;> exact Bool.false_ne_true
  | object fs =>
      refine iff_of_false ?_ nofun
      unfold rateOf
      dsimp only
      cases Fields.has fs "/" <;> exact Bool.false_ne_true
  | _ => exact iff_of_false Bool.false_ne_true nofun

/-! ## The format -/

/-- The duration that the format tells. -/
def durationOf (format : Fields) : Except Fault Binary64 :=
  let duration := getOr format "duration" (.int 0)
  (if duration.isTruthy then duration else .int 0).toReal

/-- The bit rate that the format tells. -/
def bitrateOf (format : Fields) : Except Fault (Option Int) :=
  if (format.get "bit_rate").isTruthy then (format.get "bit_rate").toInt.map some else .ok none

theorem toReal_zero : (Value.int 0).toReal = .ok 0 := rfl

/-- A missing duration counts as zero, which is not read either. -/
theorem durationOf_eq : durationOf format =
    if (format.get "duration").isTruthy then (format.get "duration").toReal else .ok 0 := by
  rw [durationOf, getOr, Fields.get]
  cases format.get? "duration" with
  | none => exact toReal_zero
  | some v =>
      dsimp only [Option.getD_some]
      split_ifs
      · rfl
      · exact toReal_zero

theorem isOk_durationOf_iff : (durationOf format).isOk = true ↔
    ((format.get "duration").isTruthy = true → (format.get "duration").IsReal) := by
  rw [durationOf_eq]
  split_ifs with htruthy
  · rw [imp_iff_right htruthy]
    exact Value.isOk_toReal
  · exact iff_of_true rfl fun h => absurd h htruthy

theorem isOk_bitrateOf_iff : (bitrateOf format).isOk = true ↔
    ((format.get "bit_rate").isTruthy = true → (format.get "bit_rate").IsWhole) := by
  rw [bitrateOf]
  split_ifs with htruthy
  · rw [Outcome.isOk_map, imp_iff_right htruthy]
    exact Outcome.isOk_iff
  · exact iff_of_true rfl fun h => absurd h htruthy

/-- The information that is put together of the chosen streams and of what was read. -/
def assembled (path : Path) (video : Fields) (audio : Option Fields) (rate duration : Binary64)
    (bitrate audioRate : Option Int) : MediaInfo where
  path := path
  width := getOr video "width" (.int 0)
  height := getOr video "height" (.int 0)
  rate := .real rate
  duration := .real duration
  codec := getOr video "codec_name" (.string "unknown")
  pixelFormat := getOr video "pix_fmt" (.string "unknown")
  bitrate := bitrate
  audioCodec := (audio.map fun a => a.get "codec_name").getD .null
  audioRate := audioRate
  audioChannels := (audio.map fun a => a.get "channels").getD .null

/-- The information is put together out of four readings, one after another. -/
theorem described_eq (path : Path) (fs video : Fields) (audio : Option Fields) :
    ofDescription.described path fs video audio = (do
      let rate ← rateOf (getOr video "r_frame_rate" (.string "30/1"))
      let format ← (getOr fs "format" (.object [])).fields "get"
      let duration ← durationOf format
      let bitrate ← bitrateOf format
      let audioRate ← audio.mapM fun a => (getOr a "sample_rate" (.int 0)).toInt
      .ok (assembled path video audio rate duration bitrate audioRate)) := by
  unfold ofDescription.described
  refine bind_congr fun rate => bind_congr fun format => bind_congr fun duration => ?_
  rw [bitrateOf]
  split_ifs <;> rfl

/-- What is read of chosen streams, reading by reading. -/
theorem described_eq_ok (h : ofDescription.described path fs video audio = .ok info) :
    ∃ rate format duration bitrate audioRate,
      getOr fs "format" (.object []) = .object format ∧ durationOf format = .ok duration ∧
      (audio.mapM fun a => (getOr a "sample_rate" (.int 0)).toInt) = .ok audioRate ∧
      info = assembled path video audio rate duration bitrate audioRate := by
  rw [described_eq] at h
  obtain ⟨rate, -, h⟩ := Outcome.bind_eq_ok.mp h
  obtain ⟨format, hformat, h⟩ := Outcome.bind_eq_ok.mp h
  obtain ⟨duration, hduration, h⟩ := Outcome.bind_eq_ok.mp h
  obtain ⟨bitrate, -, h⟩ := Outcome.bind_eq_ok.mp h
  obtain ⟨audioRate, hsound, h⟩ := Outcome.bind_eq_ok.mp h
  exact ⟨rate, format, duration, bitrate, audioRate, Value.fields_eq_ok_iff.mp hformat, hduration,
    hsound, (Except.ok.inj h).symm⟩

theorem isOk_mapM_iff {f : Fields → Except Fault Int} :
    (audio.mapM f).isOk = true ↔ ∀ a ∈ audio, (f a).isOk = true := by
  cases audio with
  | none => exact iff_of_true rfl nofun
  | some a =>
      simp only [Option.mem_some, forall_eq']
      exact Bool.eq_iff_iff.mp (Outcome.isOk_map (x := f a) (f := some))

/-- What is read of the chosen streams can be read just if they tell it. -/
theorem isOk_described_iff :
    (ofDescription.described path fs video audio).isOk = true ↔ Tells fs video audio := by
  rw [described_eq]
  simp only [Outcome.isOk_bind]
  constructor
  · rintro ⟨rate, hrate, format, hformat, duration, hduration, bitrate, hbitrate, audioRate,
      hsound, -⟩
    refine ⟨isOk_rateOf_iff.mp (Outcome.isOk_iff.mpr ⟨rate, hrate⟩),
      ⟨format, Value.fields_eq_ok_iff.mp hformat, ?_, ?_⟩, ?_⟩
    · exact isOk_durationOf_iff.mp (Outcome.isOk_iff.mpr ⟨duration, hduration⟩)
    · exact isOk_bitrateOf_iff.mp (Outcome.isOk_iff.mpr ⟨bitrate, hbitrate⟩)
    · intro a ha
      exact Outcome.isOk_iff.mp (isOk_mapM_iff.mp (Outcome.isOk_iff.mpr ⟨audioRate, hsound⟩) a ha)
  · rintro ⟨hrate, ⟨format, hformat, hduration, hbitrate⟩, hsound⟩
    obtain ⟨rate, hrate⟩ := Outcome.isOk_iff.mp (isOk_rateOf_iff.mpr hrate)
    obtain ⟨duration, hduration⟩ := Outcome.isOk_iff.mp (isOk_durationOf_iff.mpr hduration)
    obtain ⟨bitrate, hbitrate⟩ := Outcome.isOk_iff.mp (isOk_bitrateOf_iff.mpr hbitrate)
    obtain ⟨audioRate, hsound⟩ := Outcome.isOk_iff.mp
      (isOk_mapM_iff.mpr fun a ha => Outcome.isOk_iff.mpr (hsound a ha))
    exact ⟨rate, hrate, format, Value.fields_eq_ok_iff.mpr hformat, duration, hduration, bitrate,
      hbitrate, audioRate, hsound, rfl⟩

/-! ## The whole description -/

/-- A step that may fault, and what comes after it. -/
theorem bind_ne_fault_iff {α β : Type} {x : Except Fault α} {f : α → Except Failure β} :
    (∀ c, (x.mapError Failure.fault >>= f) ≠ .error (.fault c)) ↔
      ∃ a, x = .ok a ∧ ∀ c, f a ≠ .error (.fault c) := by
  cases x with
  | error c => exact iff_of_false (fun h => h c rfl) nofun
  | ok a => simp [Outcome.mapError_ok, bind, Except.bind]

theorem mapError_ne_fault_iff {x : Except Fault MediaInfo} :
    (∀ c, x.mapError Failure.fault ≠ .error (.fault c)) ↔ x.isOk = true := by
  cases x with
  | error c => exact iff_of_false (fun h => h c rfl) Bool.false_ne_true
  | ok info => exact iff_of_true nofun rfl

/-- **Reading a description** is no fault just if it has the shape of one. -/
theorem ofDescription_ne_fault_iff :
    (∀ c, ofDescription path v ≠ .error (.fault c)) ↔ v.IsDescription := by
  constructor
  · intro h
    obtain ⟨fs, hfs, h⟩ := bind_ne_fault_iff.mp h
    obtain ⟨vs, hitems, h⟩ := bind_ne_fault_iff.mp h
    obtain ⟨choice, hchoice, h⟩ := bind_ne_fault_iff.mp h
    obtain ⟨streams, rfl, rfl⟩ := StreamChoice.ofStreams_eq_ok_iff.mp hchoice
    refine ⟨fs, streams, Value.fields_eq_ok_iff.mp hfs, hitems, ?_⟩
    intro video hvideo
    rw [Option.mem_def.mp hvideo] at h
    exact isOk_described_iff.mp (mapError_ne_fault_iff.mp h)
  · rintro ⟨fs, streams, rfl, hitems, htells⟩
    refine bind_ne_fault_iff.mpr ⟨fs, rfl, bind_ne_fault_iff.mpr ⟨_, hitems, ?_⟩⟩
    refine bind_ne_fault_iff.mpr
      ⟨_, StreamChoice.ofStreams_eq_ok_iff.mpr ⟨streams, rfl, rfl⟩, ?_⟩
    dsimp only
    cases hvideo : streams.find? (StreamChoice.isOf "video") with
    | none => nofun
    | some video => exact mapError_ne_fault_iff.mpr (isOk_described_iff.mpr (htells video hvideo))

/-- What is read of a description is read of its first streams of both kinds. -/
theorem ofDescription_eq_ok (h : ofDescription path v = .ok info) :
    ∃ (fs : Fields) (streams : List Fields) (video : Fields), v = .object fs ∧
      (getOr fs "streams" (.list [])).items = .ok (streams.map Value.object) ∧
      streams.find? (StreamChoice.isOf "video") = some video ∧
      ofDescription.described path fs video (streams.find? (StreamChoice.isOf "audio")) =
        .ok info := by
  obtain ⟨fs, hfs, h⟩ := Outcome.bind_eq_ok.mp h
  obtain ⟨vs, hitems, h⟩ := Outcome.bind_eq_ok.mp h
  obtain ⟨choice, hchoice, h⟩ := Outcome.bind_eq_ok.mp h
  rw [Outcome.mapError_eq_ok] at hfs hitems hchoice
  obtain ⟨streams, rfl, rfl⟩ := StreamChoice.ofStreams_eq_ok_iff.mp hchoice
  dsimp only at h
  cases hvideo : streams.find? (StreamChoice.isOf "video") with
  | none =>
      rw [hvideo] at h
      cases h
  | some video =>
      rw [hvideo] at h
      exact ⟨fs, streams, video, Value.fields_eq_ok_iff.mp hfs, hitems, hvideo,
        Outcome.mapError_eq_ok.mp h⟩

/-- **An unreported duration** is read as zero. -/
theorem duration_of_lacksDuration (h : ofDescription path v = .ok info) (hlacks : v.LacksDuration) :
    info.duration = .real 0 := by
  obtain ⟨fs, streams, video, hfs, -, -, hdescribed⟩ := ofDescription_eq_ok h
  obtain ⟨rate, format, duration, bitrate, audioRate, hformat, hduration, -, rfl⟩ :=
    described_eq_ok hdescribed
  rw [durationOf_eq, hlacks fs format hfs hformat] at hduration
  exact congrArg Value.real (Except.ok.inj hduration).symm

end MediaInfo

end Montage
