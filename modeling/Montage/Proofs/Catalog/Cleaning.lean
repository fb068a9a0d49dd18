import Montage.Catalog.Sanitize
import Montage.Proofs.Catalog.Accepted

/-!
# Cleaning keeps what is built

The texts of accepted parameters can be cleaned, and the cleaned parameters have the same times and
numbers as before.

## Main statements

* `isCue_sanitizeCue`: a cleaned caption has its times.
* `exists_sanitizeParams`: accepted parameters can be cleaned, which changes no number in them.
-/
namespace Montage

variable {k : Kind} {fs : Fields}

/-- A cleaned caption has the times that it had. -/
theorem isCue_sanitizeCue {v w : Value} (h : sanitizeCue v = .ok w) : w.IsCue ↔ v.IsCue := by
  simp only [sanitizeCue] at h
  split at h
  · obtain rfl := Except.ok.inj h
    simp [Value.IsCue, Fields.FirstIsReal, Fields.first?_set_of_not_mem]
  · cases h

/-- Objects can be cleaned one by one, and are captions after that if they were before. -/
theorem exists_sanitizeCues {vs : List Value} (h : ∀ v ∈ vs, ∃ cue : Fields, v = .object cue) :
    ∃ ws, vs.mapM sanitizeCue = .ok ws ∧ ((∀ w ∈ ws, w.IsCue) ↔ ∀ v ∈ vs, v.IsCue) := by
  induction vs with
  | nil => exact ⟨[], rfl, Iff.rfl⟩
  | cons v vs ih =>
      obtain ⟨⟨cue, rfl⟩, hvs⟩ := List.forall_mem_cons.mp h
      obtain ⟨ws, hws, hcues⟩ := ih hvs
      have hcue : ∃ w, sanitizeCue (.object cue) = .ok w := ⟨_, rfl⟩
      obtain ⟨w, hw⟩ := hcue
      refine ⟨w :: ws, by rw [List.mapM_cons, hw, hws]; rfl, ?_⟩
      rw [List.forall_mem_cons, List.forall_mem_cons, isCue_sanitizeCue hw, hcues]

/-- What is kept of parameters when their texts are cleaned: the times, and the numbers that an edit
reads. -/
structure Fields.Alike (k : Kind) (fs gs : Fields) : Prop where
  start : gs.get "startTime" = fs.get "startTime"
  finish : gs.get "endTime" = fs.get "endTime"
  numbers : k.HasNumbers gs ↔ k.HasNumbers fs

theorem Value.listsCues_list {vs : List Value} :
    (Value.list vs).ListsCues ↔ ∀ v ∈ vs, v.IsCue := by
  rw [ListsCues, isTruthy]
  cases vs with
  | nil => simp
  | cons v vs => simp [items]

/-- Checked captions are cleaned under the key where they are read. -/
theorem exists_set_captions (h : fieldProblems .addCaptions fs = .ok []) {key : String}
    {vs : List Value} (hkey : key = "captions" ∨ key = "segments")
    (heither : fs.either "captions" "segments" .null = .list vs)
    (hfs : fs.first? ["captions", "segments"] = some (.list vs))
    (hgs : ∀ ws, (fs.set key (.list ws)).first? ["captions", "segments"] = some (.list ws)) :
    ∃ gs, (do return fs.set key (.list (← vs.mapM sanitizeCue)) : Except Fault Fields) = .ok gs ∧
      fs.Alike .addCaptions gs := by
  obtain ⟨ws, hws, hcues⟩ := exists_sanitizeCues (exists_object_of_captions h heither)
  refine ⟨fs.set key (.list ws), by rw [hws]; rfl, ?_, ?_, ?_⟩
  · exact Fields.get_set_of_ne (by rcases hkey with rfl | rfl <;> decide)
  · exact Fields.get_set_of_ne (by rcases hkey with rfl | rfl <;> decide)
  · simpa [Kind.HasNumbers, Fields.value, hfs, hgs ws, Value.listsCues_list] using hcues

/-- **Accepted parameters can be cleaned**, and stay alike. -/
theorem exists_sanitizeParams (h : fieldProblems k fs = .ok []) :
    ∃ gs, sanitizeParams k fs = .ok gs ∧ fs.Alike k gs := by
  rw [sanitizeParams]
  split_ifs with htext hcaptions hhas
  · split
    · refine ⟨_, rfl, Fields.get_set_of_ne (by decide), Fields.get_set_of_ne (by decide), ?_⟩
      cases k with
      | addText | customText => exact Iff.rfl
      | _ => cases htext
    · exact ⟨fs, rfl, rfl, rfl, Iff.rfl⟩
  · subst hcaptions
    dsimp only
    split
    · rename_i vs hvs
      have hget := Fields.get?_of_get hvs rfl
      refine exists_set_captions h (.inl rfl) (by simp [Fields.either, hget]) ?_ fun ws => ?_
      · exact Fields.first?_cons_of_present hget rfl
      · exact Fields.first?_cons_of_present Fields.get?_set_self rfl
    · exact ⟨fs, rfl, rfl, rfl, Iff.rfl⟩
  · subst hcaptions
    have hnone : fs.get? "captions" = none := by simpa [Fields.has] using hhas
    dsimp only
    split
    · rename_i vs hvs
      have hget := Fields.get?_of_get hvs rfl
      refine exists_set_captions h (.inr rfl) (by simp [Fields.either, hnone, hget]) ?_ fun ws => ?_
      · rw [Fields.first?_cons_of_none hnone, Fields.first?_cons_of_present hget rfl]
      · have hnone' : (fs.set "segments" (.list ws)).get? "captions" = none :=
          (Fields.get?_set_of_ne (by decide)).trans hnone
        rw [Fields.first?_cons_of_none hnone',
          Fields.first?_cons_of_present Fields.get?_set_self rfl]
    · exact ⟨fs, rfl, rfl, rfl, Iff.rfl⟩
  · exact ⟨fs, rfl, rfl, rfl, Iff.rfl⟩

end Montage
