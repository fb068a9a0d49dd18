import Montage.Proofs.Media.Describing
import Montage.Proofs.Value

/-!
# The streams of a description

A description lists the streams of a file in any order. The picture is told of the first stream with
a picture and the sound of the first stream with sound, whatever stands before, between and after
them. That there is sound is told by the name of its codec alone, which a stream may lack: then there
counts as being no sound, though a stream with sound is listed.

## Main definitions

* `StreamChoice.IsFirst`: the first stream of a kind.
* `MediaInfo.HasPicture`, `MediaInfo.HasSound`, `MediaInfo.IsSilent`: what is told of one stream.
* `MediaInfo.Reflects`: information that tells of the listed streams what there is to tell.

## Main statements

* `StreamChoice.find?_isOf_eq_some_iff`: which stream is chosen.
* `MediaInfo.reflects_iff`: when the information reflects the streams it was read of.
-/
namespace Montage

open MediaInfo

namespace StreamChoice

/-- The stream is of the kind, and no stream before it is. -/
def IsFirst (kind : String) (streams : List Fields) (stream : Fields) : Prop :=
  stream.get "codec_type" = .string kind ∧ ∃ before after, streams = before ++ stream :: after ∧
    ∀ other ∈ before, other.get "codec_type" ≠ .string kind

end StreamChoice

namespace MediaInfo

/-- The picture is that of the stream. -/
structure HasPicture (info : MediaInfo) (video : Fields) : Prop where
  width : info.width = getOr video "width" (.int 0)
  height : info.height = getOr video "height" (.int 0)
  codec : info.codec = getOr video "codec_name" (.string "unknown")
  pixelFormat : info.pixelFormat = getOr video "pix_fmt" (.string "unknown")

/-- The sound is that of the stream. -/
structure HasSound (info : MediaInfo) (audio : Fields) : Prop where
  codec : info.audioCodec = audio.get "codec_name"
  rate : ∃ n, (getOr audio "sample_rate" (.int 0)).toInt = .ok n ∧ info.audioRate = some n
  channels : info.audioChannels = audio.get "channels"

/-- Nothing is told of a sound. -/
structure IsSilent (info : MediaInfo) : Prop where
  codec : info.audioCodec = .null
  rate : info.audioRate = none
  channels : info.audioChannels = .null

/-- The information tells of the first picture and of the first sound among the streams, and that
there is sound just if one of the streams has it. -/
structure Reflects (info : MediaInfo) (streams : List Fields) : Prop where
  picture : ∃ video, StreamChoice.IsFirst "video" streams video ∧ info.HasPicture video
  sound : ∀ audio, StreamChoice.IsFirst "audio" streams audio → info.HasSound audio
  silence : (∀ s ∈ streams, s.get "codec_type" ≠ .string "audio") → info.IsSilent
  audible : info.hasAudio = true ↔ ∃ s ∈ streams, s.get "codec_type" = .string "audio"

end MediaInfo

variable {kind : String} {streams : List Fields} {stream : Fields} {path : Path}
  {fs video : Fields} {audio : Option Fields} {info : MediaInfo}

/-! ## The first stream of a kind -/

namespace StreamChoice

theorem isOf_iff : isOf kind stream = true ↔ stream.get "codec_type" = .string kind := by
  rw [isOf]
  cases stream.get "codec_type" <;> simp

/-- **The first stream of a kind** is the one that is found. -/
theorem find?_isOf_eq_some_iff :
    streams.find? (isOf kind) = some stream ↔ IsFirst kind streams stream := by
  have hother : ∀ s : Fields, (!isOf kind s) = true ↔ s.get "codec_type" ≠ .string kind := by
    intro s
    rw [Bool.not_eq_true', ← Bool.not_eq_true, isOf_iff]
  simp only [List.find?_eq_some_iff_append, IsFirst, isOf_iff, hother]

theorem IsFirst.mem (h : IsFirst kind streams stream) : stream ∈ streams :=
  List.mem_of_find?_eq_some (find?_isOf_eq_some_iff.mpr h)

/-- There is one first stream of a kind. -/
theorem IsFirst.eq {other : Fields} (h : IsFirst kind streams stream)
    (hother : IsFirst kind streams other) : other = stream := by
  rw [← find?_isOf_eq_some_iff] at h hother
  exact Option.some.inj (hother.symm.trans h)

theorem find?_isOf_eq_none_iff :
    streams.find? (isOf kind) = .none ↔ ∀ s ∈ streams, s.get "codec_type" ≠ .string kind := by
  simp only [List.find?_eq_none, isOf_iff]

end StreamChoice

namespace MediaInfo

/-! ## What is told of the chosen streams -/

theorem hasPicture_of_described (h : ofDescription.described path fs video audio = .ok info) :
    info.HasPicture video := by
  obtain ⟨rate, format, duration, bitrate, audioRate, -, -, -, rfl⟩ := described_eq_ok h
  exact ⟨rfl, rfl, rfl, rfl⟩

theorem hasSound_of_described (h : ofDescription.described path fs video (some stream) = .ok info) :
    info.HasSound stream := by
  obtain ⟨rate, format, duration, bitrate, audioRate, -, -, hsound, rfl⟩ := described_eq_ok h
  obtain ⟨n, hn, hrate⟩ := Outcome.map_eq_ok.mp hsound
  exact ⟨rfl, ⟨n, hn, hrate.symm⟩, rfl⟩

theorem isSilent_of_described (h : ofDescription.described path fs video none = .ok info) :
    info.IsSilent := by
  obtain ⟨rate, format, duration, bitrate, audioRate, -, -, hsound, rfl⟩ := described_eq_ok h
  exact ⟨rfl, (Except.ok.inj hsound).symm, rfl⟩

/-- Sound is told of by its codec alone. -/
theorem hasAudio_iff : info.hasAudio = true ↔ info.audioCodec ≠ .null := by
  rw [hasAudio]
  cases info.audioCodec <;> simp

/-! ## All streams -/

/-- The streams of a description are those that it was read of. -/
theorem exists_described (h : ofDescription path (.object fs) = .ok info)
    (hstreams : fs.get "streams" = .list (streams.map .object)) :
    ∃ video, StreamChoice.IsFirst "video" streams video ∧
      ofDescription.described path fs video (streams.find? (StreamChoice.isOf "audio")) =
        .ok info := by
  obtain ⟨fs', streams', video, hfs, hitems, hvideo, hdescribed⟩ := ofDescription_eq_ok h
  obtain rfl : fs = fs' := Value.object.inj hfs
  have hlisted : getOr fs "streams" (.list []) = .list (streams.map .object) := by
    rw [getOr, Fields.get?_of_get hstreams rfl, Option.getD_some]
  rw [hlisted] at hitems
  have hsame : streams = streams' :=
    List.map_injective_iff.mpr (fun _ _ => Value.object.inj) (Except.ok.inj hitems)
  rw [← hsame] at hvideo hdescribed
  exact ⟨video, StreamChoice.find?_isOf_eq_some_iff.mp hvideo, hdescribed⟩

/-- **The streams of a description**, in any order, are reflected by what is read of it just if the
first stream with sound, if there is one, names its codec. -/
theorem reflects_iff (h : ofDescription path (.object fs) = .ok info)
    (hstreams : fs.get "streams" = .list (streams.map .object)) :
    info.Reflects streams ↔
      ∀ audio, StreamChoice.IsFirst "audio" streams audio → audio.get "codec_name" ≠ .null := by
  obtain ⟨video, hvideo, hdescribed⟩ := exists_described h hstreams
  constructor
  · intro hreflects audio haudio
    rw [← (hreflects.sound audio haudio).codec]
    exact hasAudio_iff.mp (hreflects.audible.mpr ⟨audio, haudio.mem, haudio.1⟩)
  · intro hnamed
    have hpicture : ∃ video, StreamChoice.IsFirst "video" streams video ∧ info.HasPicture video :=
      ⟨video, hvideo, hasPicture_of_described hdescribed⟩
    cases haudio : streams.find? (StreamChoice.isOf "audio") with
    | none =>
        rw [haudio] at hdescribed
        have hnone := StreamChoice.find?_isOf_eq_none_iff.mp haudio
        have hsilent := isSilent_of_described hdescribed
        refine ⟨hpicture, fun audio hfirst => ?_, fun _ => hsilent, iff_of_false ?_ ?_⟩
        · exact absurd hfirst.1 (hnone audio hfirst.mem)
        · exact fun htrue => hasAudio_iff.mp htrue hsilent.codec
        · rintro ⟨s, hs, hkind⟩
          exact hnone s hs hkind
    | some audio =>
        rw [haudio] at hdescribed
        have hfirst := StreamChoice.find?_isOf_eq_some_iff.mp haudio
        have hsound := hasSound_of_described hdescribed
        refine ⟨hpicture, fun other hother => ?_, fun hnone => ?_, iff_of_true ?_ ?_⟩
        · exact hfirst.eq hother ▸ hsound
        · exact absurd hfirst.1 (hnone audio hfirst.mem)
        · exact hasAudio_iff.mpr (hsound.codec ▸ hnamed audio hfirst)
        · exact ⟨audio, hfirst.mem, hfirst.1⟩

/-- A description of streams that tells nothing else. -/
def listing (streams : List Fields) : Fields := [("streams", .list (streams.map .object))]

/-- Two pictures and two sounds with other streams between them, the sound first. -/
def mixedStreams : List Fields :=
  [[("codec_type", .string "data")],
    [("codec_type", .string "audio"), ("codec_name", .string "aac"),
      ("sample_rate", .string "48000"), ("channels", .int 2)],
    [("codec_type", .string "subtitle")],
    [("codec_type", .string "video"), ("codec_name", .string "h264"), ("width", .int 640),
      ("height", .int 360)],
    [("codec_type", .string "audio")],
    [("codec_type", .string "video"), ("codec_name", .string "mjpeg")]]

/-- Streams in disorder, the first sound of which names its codec. -/
theorem reflects_mixedStreams :
    ∃ info, ofDescription (.ofString "in.mp4") (.object (listing mixedStreams)) = .ok info ∧
      (listing mixedStreams).get "streams" = .list (mixedStreams.map .object) ∧
      info.Reflects mixedStreams := by
  obtain ⟨info, hinfo⟩ := Outcome.isOk_iff.mp (by decide +kernel :
    (ofDescription (.ofString "in.mp4") (.object (listing mixedStreams))).isOk = true)
  refine ⟨info, hinfo, rfl, (reflects_iff hinfo rfl).mpr ?_⟩
  intro audio haudio
  have hfirst : StreamChoice.IsFirst "audio" mixedStreams
      [("codec_type", .string "audio"), ("codec_name", .string "aac"),
        ("sample_rate", .string "48000"), ("channels", .int 2)] :=
    StreamChoice.find?_isOf_eq_some_iff.mp rfl
  rw [hfirst.eq haudio]
  nofun

/-- **Sound in a codec without a name** is listed, and counts as no sound. -/
theorem not_reflects_namelessSound :
    ∃ info, ofDescription (.ofString "in.mp4") (.object (listing
        [[("codec_type", .string "video")], [("codec_type", .string "audio")]])) = .ok info ∧
      ¬info.Reflects [[("codec_type", .string "video")], [("codec_type", .string "audio")]] := by
  obtain ⟨info, hinfo⟩ := Outcome.isOk_iff.mp (by decide +kernel :
    (ofDescription (.ofString "in.mp4") (.object (listing
      [[("codec_type", .string "video")], [("codec_type", .string "audio")]]))).isOk = true)
  refine ⟨info, hinfo, fun hreflects => ?_⟩
  have hfirst : StreamChoice.IsFirst "audio"
      [[("codec_type", .string "video")], [("codec_type", .string "audio")]]
      [("codec_type", .string "audio")] := StreamChoice.find?_isOf_eq_some_iff.mp rfl
  have hnull : info.audioCodec = .null := (hreflects.sound _ hfirst).codec
  have haudible := hreflects.audible.mpr ⟨_, hfirst.mem, hfirst.1⟩
  exact hasAudio_iff.mp haudible hnull

end MediaInfo

end Montage
