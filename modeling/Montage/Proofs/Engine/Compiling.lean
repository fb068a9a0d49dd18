import Montage.Proofs.Engine.Chaining
import Montage.Proofs.Preview.Fitting

/-!
# Compiling what was prepared

The kind and the parameters of a request that was prepared are prepared again, and compiled for the
renderer or for the preview service. The check lets edits through that do not fit: with those a
fault escapes, and with all others the compiler yields something or refuses.

## Main statements

* `Studio.contained_checked_iff`: a fault escapes just if the edit does not fit.
-/
namespace Montage

open Montage.Action

namespace Studio

variable {s : Studio} {i : Instruction} {o : Operation} {σ : Session}

theorem contained_checkedFilter_iff (h : i.prepare = .ok o) :
    (s.checkedFilter i.operation i.params none).Contained σ ↔ s.FilterFits σ.files o.edit := by
  obtain ⟨k, fs, gs, hprepares⟩ := Instruction.exists_of_prepare h
  rw [checkedFilter, hprepares.checkedOperation_eq, if_neg (by simp),
    contained_bind_of_ok (exec_ofFailure _)]
  exact contained_compileOperation_iff hprepares.isChecked hprepares.hasReals

/-- An edit that needs a timeline is refused for a picture, and it fits the preview service. -/
theorem contained_checkedPreview_iff (h : i.prepare = .ok o) (resource : Resource) :
    (s.checkedPreview i.operation i.params none resource).Contained σ ↔ s.PreviewFits o.edit := by
  obtain ⟨k, fs, gs, hprepares⟩ := Instruction.exists_of_prepare h
  rw [checkedPreview, hprepares.checkedOperation_eq]
  split_ifs with hrefused
  · have hfits : s.PreviewFits o.edit := by
      have htimeline : o.edit.kind.needsTimeline = true := by
        rw [← hrefused.2, ← hprepares.kind_eq]
        rfl
      cases hedit : o.edit with
      | colorGrade p | addText p | customText p =>
          rw [hedit] at htimeline
          cases htimeline
      | _ => trivial
    refine iff_of_true (contained_bind.mpr ⟨.of_refusal rfl, fun o' σ' ho => ?_⟩) hfits
    rw [exec_ofFailure] at ho
    cases ho
  · rw [contained_bind_of_ok (exec_ofFailure _)]
    exact contained_previewOperation_iff hprepares.isChecked hprepares.hasReals

/-- The fields of a request for a rectangle of the given width. -/
def cropFields (width : Number) : Fields :=
  [("x", .int 0), ("y", .int 0), ("width", .number width), ("height", .int 10)]

/-- A request for a rectangle of the given width. -/
def cropTo (width : Number) : Instruction := ⟨.string "crop", .object (cropFields width), .video⟩

theorem prepare_cropTo (width : Number) {p : CropParams}
    (haccepted : instructionProblems (cropTo width) = .ok [])
    (hp : CropParams.ofFields (cropFields width) = .ok p) :
    (Request.typed (cropTo width)).prepare = .ok ⟨.crop p, none⟩ := by
  have hbuilt : Operation.ofFields .crop (cropFields width) none = .ok ⟨.crop p, none⟩ := by
    rw [Operation.ofFields_eq, Edit.ofFields, hp]
    rfl
  exact Instruction.Prepares.prepare_eq_ok
    ⟨Kind.ofValue?_name .crop, rfl, haccepted, rfl, hbuilt⟩

end Studio

end Montage
