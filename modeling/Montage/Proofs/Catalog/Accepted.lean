import Montage.Proofs.Catalog.Range
import Montage.Proofs.Edit.Building
import Montage.Proofs.Number.Nearest
import Montage.Proofs.Value

/-!
# Accepted parameters

Parameters are accepted if no field has a problem and no rule is broken. What is then known of a
number is that its parameter admits it; of the captions, that they are objects with their times.

## Main statements

* `fieldProblems_eq_nil`: what acceptance means for each field and for the rules.
* `FieldSpec.exists_number`: a number that was accepted is admitted.
* `place_startTime_nonneg`, `endTime_after_zero`: the times of an accepted window.
* `exists_object_of_cues`: accepted captions are objects.
-/
namespace Montage

variable {k : Kind} {fs : Fields}

theorem fieldProblems_eq_nil :
    fieldProblems k fs = .ok [] ↔
      (∀ f ∈ checkedFields k, f.problems fs = .ok []) ∧ ruleProblems k fs = .ok [] := by
  rw [fieldProblems, ← Outcome.exists_mapM_flatten_nil]
  constructor
  · intro h
    obtain ⟨found, hfound, hrest⟩ := Outcome.bind_eq_ok.mp h
    obtain ⟨rules, hrules, happend⟩ := Outcome.bind_eq_ok.mp hrest
    obtain ⟨hfound', rfl⟩ := List.append_eq_nil_iff.mp (Except.ok.inj happend)
    exact ⟨⟨found, hfound, hfound'⟩, hrules⟩
  · rintro ⟨⟨found, hfound, hnil⟩, hrules⟩
    refine Outcome.bind_eq_ok.mpr ⟨found, hfound, Outcome.bind_eq_ok.mpr ⟨[], hrules, ?_⟩⟩
    rw [hnil, List.nil_append]

namespace FieldSpec

variable {f : FieldSpec} {key : String} {v : Value} {n : Number}

theorem Judges.admits (h : f.Judges n (.ok [])) : n.IsOrdered → f.Admits n := by
  generalize hp : (Except.ok [] : Problems) = p at h
  cases h with
  | silent hadm => exact hadm
  | shown hadm msg =>
      obtain ⟨s, -, hs⟩ := Outcome.map_eq_ok.mp hp.symm
      cases hs

/-- What an accepted number is found as is a number, and its parameter admits it. -/
theorem exists_number (hreg : f.Regular) (htype : f.type = .number) (h : f.problems fs = .ok [])
    (hfind : f.find? fs = some (key, v)) :
    ∃ n : Number, v = .number n ∧ (n.IsOrdered → f.Admits n) := by
  rw [problems, hfind] at h
  simp only [valueProblems, htype] at h
  cases v with
  | number n => exact ⟨n, rfl, (h ▸ judges_rangeProblems hreg : f.Judges n (.ok [])).admits⟩
  | _ => cases h

end FieldSpec

/-- What is or writes a number is present. -/
theorem Value.IsReal.isPresent {v : Value} (h : v.IsReal) : v.isPresent = true := by
  obtain ⟨x, hx⟩ := h
  cases v with
  | null => cases hx
  | string s =>
      rw [Value.isPresent, decide_eq_true_eq]
      rintro rfl
      have hempty : (Value.string "").toReal = .error (.value (.notReal "")) := by decide +kernel
      rw [hempty] at hx
      cases hx
  | _ => rfl

/-- An edit with a window lists its times last. -/
theorem windowFields_suffix (h : (specOf k).windowed = true) :
    windowFields <:+ (specOf k).fields := by
  cases k with
  | colorGrade | applyEffect | addText | customText | filter | adjustIntensity =>
      exact List.suffix_append _ _
  | _ => cases h

theorem mem_checkedFields_of_window (hk : k.isBounded = false) {f : FieldSpec}
    (hf : f ∈ windowFields) : f ∈ checkedFields k := by
  unfold checkedFields
  dsimp only
  rw [hk, Bool.or_false]
  split_ifs with hwindow
  · exact (windowFields_suffix hwindow).mem hf
  · exact List.mem_append_right _ hf

/-- A number that is accepted under the only key of its parameter is admitted. -/
theorem exists_admitted (h : fieldProblems k fs = .ok []) {f : FieldSpec} (hf : f ∈ checkedFields k)
    (htype : f.type = .number) (hkeys : f.aliases = []) {x : Binary64}
    (hx : (fs.get f.name).toReal = .ok x) :
    ∃ n : Number, fs.get f.name = .number n ∧ x = n.toReal ∧ (n.IsOrdered → f.Admits n) := by
  have hpresent : (fs.get f.name).isPresent = true := Value.IsReal.isPresent ⟨x, hx⟩
  have hget := Fields.get?_of_get rfl hpresent
  have hfind : f.find? fs = some (f.name, fs.get f.name) := by
    simp [FieldSpec.find?, FieldSpec.keys, hkeys, Fields.pick?, hget, hpresent]
  obtain ⟨n, hn, hadm⟩ := FieldSpec.exists_number (regular_of_mem_checkedFields f hf) htype
    ((fieldProblems_eq_nil.mp h).1 f hf) hfind
  refine ⟨n, hn, ?_, hadm⟩
  rw [hn, Value.toReal, Number.toReal?] at hx
  split_ifs at hx
  exact (Except.ok.inj hx).symm

theorem place_startTime_nonneg (hk : k.isBounded = false) (h : fieldProblems k fs = .ok [])
    {x : Binary64} (hx : (fs.get "startTime").toReal = .ok x) : 0 ≤ x.place := by
  have hf : ({ name := "startTime", minimum := some 0 } : FieldSpec) ∈ windowFields := by
    simp [windowFields]
  obtain ⟨n, -, rfl, hadm⟩ := exists_admitted h (mem_checkedFields_of_window hk hf) rfl rfl hx
  by_cases hn : n.IsOrdered
  · refine Number.place_toReal_nonneg ?_
    exact (Number.le_iff (by decide) hn).mp ((hadm hn).minimum 0 rfl)
  · rw [Number.toReal_of_not_isOrdered hn]
    exact le_rfl

theorem endTime_after_zero (hk : k.isBounded = false) (h : fieldProblems k fs = .ok [])
    {y : Binary64} (hy : (fs.get "endTime").toReal = .ok y) : y = .nan ∨ 0 < y.place := by
  have hf : ({ name := "endTime", above := some 0 } : FieldSpec) ∈ windowFields := by
    simp [windowFields]
  obtain ⟨n, -, rfl, hadm⟩ := exists_admitted h (mem_checkedFields_of_window hk hf) rfl rfl hy
  by_cases hn : n.IsOrdered
  · refine .inr (Number.place_toReal_pos ?_)
    exact (Number.lt_iff (by decide) hn).mp ((hadm hn).above 0 rfl)
  · exact .inl (Number.toReal_of_not_isOrdered hn)

/-- A caption without problems is an object. -/
theorem exists_object_of_cueProblems {i : Nat} {v : Value} (h : cueProblems i v = []) :
    ∃ cue : Fields, v = .object cue := by
  cases v with
  | object cue => exact ⟨cue, rfl⟩
  | _ => cases h

theorem exists_object_of_cuesProblems {i : Nat} {vs : List Value} (h : cuesProblems i vs = []) :
    ∀ v ∈ vs, ∃ cue : Fields, v = .object cue := by
  induction vs generalizing i with
  | nil => simp
  | cons v vs ih =>
      obtain ⟨hv, hvs⟩ := List.append_eq_nil_iff.mp h
      exact List.forall_mem_cons.mpr ⟨exists_object_of_cueProblems hv, ih hvs⟩

/-- Captions that were checked have no problems. -/
theorem cuesProblems_of_captions (h : fieldProblems .addCaptions fs = .ok []) {vs : List Value}
    (hvs : fs.either "captions" "segments" .null = .list vs) : cuesProblems 0 vs = [] := by
  have hrules := (fieldProblems_eq_nil.mp h).2
  obtain ⟨-, hcues⟩ : orderProblems "startTime" (fs.get "startTime") "endTime" (fs.get "endTime") =
      .ok [] ∧ cuesProblems 0 vs = [] := by
    simpa [ruleProblems, Kind.isText, Kind.isBounded, hvs, Outcome.bind_eq_ok] using hrules
  exact hcues

/-- Captions that were checked are objects. -/
theorem exists_object_of_captions (h : fieldProblems .addCaptions fs = .ok []) {vs : List Value}
    (hvs : fs.either "captions" "segments" .null = .list vs) :
    ∀ v ∈ vs, ∃ cue : Fields, v = .object cue :=
  exists_object_of_cuesProblems (cuesProblems_of_captions h hvs)

end Montage
