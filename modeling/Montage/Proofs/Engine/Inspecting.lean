import Montage.Proofs.Engine.HandingBack
import Montage.Proofs.Json.Refusing
import Montage.Proofs.Media.Describing

/-!
# Answers that inspecting can use

Where the inspecting program cannot be run, or prints what is no text of the format, the file is
opened instead. But where it prints such a text, nothing is left to fall back to: a value without
the shape of a description is a fault, and so is an integer that is too long, also of a file that
can be opened.

## Main definitions

* `ProbeAnswer.IsUsable`: the answers that inspecting can use.

## Main statements

* `exec_inspect`: what is known of a file that is described.
* `contained_inspect_iff_isUsable`: when inspecting a file that can be opened is no fault.
-/
namespace Montage

open Montage.Action

/-- The answer has the shape of a description, or it is none at all, so that the file is opened. An
integer of too many digits is neither. -/
def ProbeAnswer.IsUsable : ProbeAnswer → Prop
  | printed text => (∀ v, Json.parse text = .ok v → v.IsDescription) ∧
      ∀ count, Json.parse text ≠ .error (.value (.tooManyDigits count))
  | data v => v.IsDescription
  | missing | exited _ => True

variable {s : Session} {path : Path} {program v : Value}

theorem isDescribed_iff : IsDescribed path v ↔ v.IsDescription :=
  MediaInfo.ofDescription_ne_fault_iff

/-- Where a file is described, what is read of the description is known of it. -/
theorem exec_inspect (hexists : s.files.exists? path = .ok true)
    (hdescription : s.description program path = .ok v) : (inspect program path).exec s =
      (MediaInfo.ofDescription path v,
        { s with probed := s.probed ++ [(program.text, path.text)] }) := by
  have hfound : (exists? path).exec s = (.ok true, s) := by
    rw [exec_exists?, hexists, Outcome.mapError_ok]
  unfold inspect
  rw [exec_bind_of_ok hfound]
  refine (exec_bind_of_ok exec_describe).trans ?_
  rw [hdescription]
  rfl

/-- Whether a file that can be opened is inspected depends on the answer alone. -/
theorem inspects_iff_isUsable {answer : ProbeAnswer} (hopens : s.Opens path)
    (hanswer : (s.probe? path.text).map ProbeScript.answer = some answer) :
    s.Inspects path ↔ answer.IsUsable := by
  rw [Session.Inspects, hanswer]
  cases answer with
  | printed text =>
      rw [ProbeAnswer.IsUsable]
      dsimp only
      cases hparse : Json.parse text with
      | ok v => simp [isDescribed_iff]
      | error f =>
          -- A text is refused as a text, after which the file is opened, or for an integer in it.
          rcases Json.fault_of_parse hparse with ⟨reason, rfl⟩ | ⟨count, -, rfl⟩
          · refine iff_of_true hopens ⟨?_, ?_⟩
            · intro v hv
              cases hv
            · intro count hcount
              cases hcount
          · exact iff_of_false id fun h => h.2 count rfl
  | data v => exact isDescribed_iff
  | missing => exact iff_of_true hopens trivial
  | exited status => exact iff_of_true hopens trivial

/-- **Inspecting a file that can be opened** yields information or is refused just if the answer of
the program is of use, or is none at all. -/
theorem contained_inspect_iff_isUsable (hexists : s.files.exists? path = .ok true)
    (hopens : s.Opens path) : (inspect program path).Contained s ↔
      ∀ answer ∈ (s.probe? path.text).map ProbeScript.answer, answer.IsUsable := by
  rw [contained_inspect_iff hexists]
  cases hanswer : (s.probe? path.text).map ProbeScript.answer with
  | none =>
      rw [Session.Inspects, hanswer]
      refine iff_of_true hopens ?_
      intro answer hnone
      cases hnone
  | some answer =>
      simp only [Option.mem_some, forall_eq']
      exact inspects_iff_isUsable hopens hanswer

/-! ## A film that can be opened -/

/-- A stored film that can be opened, and what is answered of it. -/
def answeringSession (answer : ProbeAnswer) : Session :=
  { Engine.filmSession .plain with
    probes := [("*", ⟨answer, some ⟨.int 640, .int 360, .int 25, .int 10, .bool true⟩⟩)] }

/-- A description of a picture that tells nothing else. -/
def barePicture : Value :=
  .object [("streams", .list [.object [("codec_type", .string "video")]])]

theorem exists?_answeringSession (answer : ProbeAnswer) :
    (answeringSession answer).files.exists? (.ofString "in.mp4") = .ok true :=
  Engine.exists?_filmSession .plain

theorem isDescription_barePicture : barePicture.IsDescription := by
  refine ⟨_, [[("codec_type", .string "video")]], rfl, rfl, ?_⟩
  rintro video ⟨⟩
  exact ⟨MediaInfo.isOk_rateOf_iff.mp (by decide +kernel), ⟨[], rfl, nofun, nofun⟩, nofun⟩

/-- A description of a bare picture is enough. -/
theorem contained_inspect_barePicture :
    (answeringSession (.data barePicture)).files.exists? (.ofString "in.mp4") = .ok true ∧
      (answeringSession (.data barePicture)).Opens (.ofString "in.mp4") ∧
      (inspect (.string "ffprobe") (.ofString "in.mp4")).Contained
        (answeringSession (.data barePicture)) := by
  refine ⟨exists?_answeringSession _, rfl,
    (contained_inspect_iff_isUsable (exists?_answeringSession _) rfl).mpr ?_⟩
  rintro answer ⟨⟩
  exact isDescription_barePicture

/-- **A list is no description**, and the file is not opened instead. -/
theorem not_contained_inspect_list :
    (answeringSession (.data (.list []))).files.exists? (.ofString "in.mp4") = .ok true ∧
      (answeringSession (.data (.list []))).Opens (.ofString "in.mp4") ∧
      ¬(inspect (.string "ffprobe") (.ofString "in.mp4")).Contained
        (answeringSession (.data (.list []))) := by
  refine ⟨exists?_answeringSession _, rfl, ?_⟩
  rw [contained_inspect_iff (exists?_answeringSession _)]
  intro h
  exact h _ rfl

end Montage
