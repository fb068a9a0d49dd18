import Montage.Engine.Prepare
import Montage.Proofs.Edit.Absent
import Montage.Proofs.Edit.Checked

/-!
# Unknown keys

The check of a request, its cleaning, the parameters of its edit and the window around it each name
the keys that they look at. All of these are keys that the catalogue lists for the kind of edit, or
the bounds of a window. So two requests that agree on the keys that are known come to the same edit,
and what else is in them is ignored.

## Main definitions

* `Kind.knownKeys`: the names of the parameters of an edit, and the bounds of a window.
* `Fields.AgreeOn`: fields with the same values under some keys.
* `SameEdit`: parameters that are checked, built and rendered alike.

## Main statements

* `fieldProblems_congr`, `Operation.ofFields_congr`: the check and the operation depend on the known
  keys only.
* `sanitizeParams_congr`: cleaning keeps an agreement on the known keys.
* `sameEdit_of_agreeOn`: so does the whole way of a request to a renderer.
* `sameEdit_set`: what is put under an unknown key is ignored.
-/
namespace Montage

/-- The keys that an edit knows: every name of a parameter that the catalogue lists, and the bounds
of a window. -/
def Kind.knownKeys (k : Kind) : List String :=
  (specOf k).fields.flatMap FieldSpec.keys ++ ["startTime", "endTime"]

/-- The fields have the same values, if any, under the keys. -/
def Fields.AgreeOn (keys : List String) (fs gs : Fields) : Prop :=
  ∀ key ∈ keys, gs.get? key = fs.get? key

/-- The operation of an edit whose parameters are cleaned before. -/
def Operation.buildCleaned (k : Kind) (fs : Fields) (window : Option Window) :
    Except Failure Operation := do
  build (.string k.name) (.object (← (sanitizeParams k fs).mapError Failure.fault)) window

/-- The parameters make no difference to an edit: to the verdict on it, to the operation that is
built or the failure to build it, with cleaned parameters and after the check, and to what both
renderers make of it, with or without a check. -/
structure SameEdit (k : Kind) (fs gs : Fields) : Prop where
  verdict : validate (.string k.name) (.object gs) = validate (.string k.name) (.object fs)
  operation : ∀ window, Operation.buildCleaned k gs window = Operation.buildCleaned k fs window
  prepared : ∀ resource, (⟨.string k.name, .object gs, resource⟩ : Instruction).prepare =
    (⟨.string k.name, .object fs, resource⟩ : Instruction).prepare
  filter : ∀ (s : Studio) window, s.compile (.string k.name) (.object gs) window =
    s.compile (.string k.name) (.object fs) window
  preview : ∀ (s : Studio) window resource,
    s.preview (.string k.name) (.object gs) window resource =
      s.preview (.string k.name) (.object fs) window resource
  checkedFilter : ∀ (s : Studio) window, s.checkedFilter (.string k.name) (.object gs) window =
    s.checkedFilter (.string k.name) (.object fs) window
  checkedPreview : ∀ (s : Studio) window resource,
    s.checkedPreview (.string k.name) (.object gs) window resource =
      s.checkedPreview (.string k.name) (.object fs) window resource

variable {k : Kind} {fs gs : Fields} {key other : String} {keys looked : List String}
  {d : Value} {window : Option Window}

/-! ## Fields that agree -/

namespace Fields.AgreeOn

/-- A value under another key leaves the agreement with the fields as they were. -/
theorem of_set (hkey : key ∉ keys) (v : Value) : AgreeOn keys fs (fs.set key v) :=
  fun _ hmem => get?_set_of_ne fun heq => hkey (heq ▸ hmem)

section

variable (h : fs.AgreeOn keys gs)

include h

theorem set (key : String) (v : Value) : AgreeOn keys (fs.set key v) (gs.set key v) := by
  intro key' hmem
  rw [get?_set, get?_set, h key' hmem]

theorem get (hkey : key ∈ keys) : gs.get key = fs.get key := by
  rw [Fields.get, h key hkey, Fields.get]

theorem has (hkey : key ∈ keys) : gs.has key = fs.has key := by
  rw [Fields.has, h key hkey, Fields.has]

theorem either (hkey : key ∈ keys) (hother : other ∈ keys) :
    gs.either key other d = fs.either key other d := by
  rw [Fields.either, h key hkey, h other hother, Fields.either]

theorem requiredReal (hkey : key ∈ keys) : gs.requiredReal key = fs.requiredReal key := by
  rw [Fields.requiredReal, h key hkey, Fields.requiredReal]

variable (hlooked : looked ⊆ keys)

include hlooked

theorem pick? : gs.pick? looked = fs.pick? looked := by
  induction looked with
  | nil => rfl
  | cons key looked ih =>
      obtain ⟨hkey, hrest⟩ := List.cons_subset.mp hlooked
      rw [pick?_cons, pick?_cons, h.get hkey, ih hrest]

theorem first? : gs.first? looked = fs.first? looked := by
  rw [Fields.first?, h.pick? hlooked, Fields.first?]

theorem real? : gs.real? looked = fs.real? looked := by
  rw [Fields.real?, h.first? hlooked, Fields.real?]

theorem real {x : Binary64} : gs.real looked x = fs.real looked x := by
  rw [Fields.real, h.first? hlooked, Fields.real]

theorem text {s : String} : gs.text looked s = fs.text looked s := by
  rw [Fields.text, h.first? hlooked, Fields.text]

theorem value : gs.value looked = fs.value looked := by
  rw [Fields.value, h.first? hlooked, Fields.value]

end

end Fields.AgreeOn

/-! ## Checking -/

/-- Only known keys are checked. -/
theorem FieldSpec.keys_subset_of_mem {f : FieldSpec} (hf : f ∈ checkedFields k) :
    f.keys ⊆ k.knownKeys := by
  have hmem : f ∈ (specOf k).fields ∨ f ∈ windowFields := by
    rw [checkedFields] at hf
    split_ifs at hf
    · exact .inl hf
    · exact List.mem_append.mp hf
  intro key hkey
  rcases hmem with hmem | hmem
  · exact List.mem_append_left _ (List.mem_flatMap.mpr ⟨f, hmem, hkey⟩)
  · refine List.mem_append_right _ ?_
    simp only [windowFields, List.mem_cons, List.not_mem_nil, or_false] at hmem
    rcases hmem with rfl | rfl <;> simp [List.mem_singleton.mp hkey]

section

variable (h : fs.AgreeOn k.knownKeys gs)

include h

theorem FieldSpec.problems_congr {f : FieldSpec} (hf : f ∈ checkedFields k) :
    f.problems gs = f.problems fs := by
  rw [problems, find?, h.pick? (keys_subset_of_mem hf), ← find?, ← problems]

theorem textRule_congr : textRule k gs = textRule k fs := by
  rw [textRule, textRule]
  cases k with
  | addText | customText => rw [h.get (by decide)]
  | _ => rfl

theorem trimRule_congr : trimRule k gs = trimRule k fs := by
  rw [trimRule, trimRule]
  split_ifs with htrim
  · subst htrim
    rw [h.either (by decide) (by decide), h.either (by decide) (by decide)]
  · rfl

theorem windowRule_congr : windowRule k gs = windowRule k fs := by
  rw [windowRule, windowRule, h.get (by simp [Kind.knownKeys]), h.get (by simp [Kind.knownKeys])]

theorem cueRule_congr : cueRule k gs = cueRule k fs := by
  cases k with
  | addCaptions =>
      simp only [cueRule]
      rw [h.either (by decide) (by decide)]
  | _ => rfl

/-- **The check** depends on the known keys only. -/
theorem fieldProblems_congr : fieldProblems k gs = fieldProblems k fs := by
  rw [fieldProblems, fieldProblems, ruleProblems_eq, ruleProblems_eq, textRule_congr h,
    trimRule_congr h, windowRule_congr h, cueRule_congr h,
    Outcome.mapM_congr fun f hf => FieldSpec.problems_congr h hf]

/-! ## Building -/

/-- **The parameters** that an edit uses depend on the known keys only. -/
theorem Edit.ofFields_congr : Edit.ofFields k gs = Edit.ofFields k fs := by
  cases k with
  | trim => simp (disch := decide) only [Edit.ofFields, TrimParams.ofFields, h.real, h.real?]
  | removeClip => simp (disch := decide) only [Edit.ofFields, RemovalParams.ofFields, h.real]
  | colorGrade => simp (disch := decide) only [Edit.ofFields, GradeParams.ofFields, h.text, h.get]
  | applyEffect =>
      simp (disch := decide) only [Edit.ofFields, EffectParams.ofFields, h.text, h.real]
  | addText | customText =>
      simp (disch := decide) only [Edit.ofFields, TextParams.ofFields, h.text, h.value]
  | filter => simp (disch := decide) only [Edit.ofFields, FilterParams.ofFields, h.text, h.real?]
  | addCaptions => simp (disch := decide) only [Edit.ofFields, CaptionParams.ofFields, h.value]
  | adjustIntensity =>
      simp (disch := decide) only [Edit.ofFields, IntensityParams.ofFields, h.value, h.real?]
  | adjustZoom => simp (disch := decide) only [Edit.ofFields, ZoomParams.ofFields, h.value, h.real?]
  | adjustSpeed => simp (disch := decide) only [Edit.ofFields, SpeedParams.ofFields, h.real]
  | rotate => simp (disch := decide) only [Edit.ofFields, RotationParams.ofFields, h.real]
  | crop => simp (disch := decide) only [Edit.ofFields, CropParams.ofFields, h.requiredReal]

theorem Window.ofFields_congr : Window.ofFields gs = Window.ofFields fs := by
  rw [Window.ofFields, Window.ofFields, Window.time?, Window.time?, Window.time?, Window.time?,
    h.get (by simp [Kind.knownKeys]), h.get (by simp [Kind.knownKeys])]

/-- **The operation** that is built depends on the known keys only. -/
theorem Operation.ofFields_congr :
    Operation.ofFields k gs window = Operation.ofFields k fs window := by
  rw [ofFields_eq, ofFields_eq, Edit.ofFields_congr h, windowOf, Window.ofFields_congr h, windowOf]

theorem build_congr : Operation.build (.string k.name) (.object gs) window =
    Operation.build (.string k.name) (.object fs) window := by
  have hkind : Kind.ofValue? (.string k.name) = some k := Kind.ofValue?_name k
  rw [Operation.build_of_kind hkind, Operation.build_of_kind hkind, Operation.ofValue_object,
    Operation.ofValue_object, Operation.ofFields_congr h]

/-- **Cleaning** fails alike, or the cleaned parameters agree on the known keys again. -/
theorem sanitizeParams_congr :
    (∃ f, sanitizeParams k fs = .error f ∧ sanitizeParams k gs = .error f) ∨
      ∃ fs' gs', sanitizeParams k fs = .ok fs' ∧ sanitizeParams k gs = .ok gs' ∧
        fs'.AgreeOn k.knownKeys gs' := by
  by_cases hcaptions : k = .addCaptions
  · subst hcaptions
    have hhas : gs.has "captions" = fs.has "captions" := h.has (by decide)
    have hkey : (if fs.has "captions" = true then "captions" else "segments") ∈
        Kind.addCaptions.knownKeys := by
      split_ifs <;> decide
    simp only [sanitizeParams, Kind.isText, Bool.false_eq_true, if_false, if_true, hhas]
    generalize (if fs.has "captions" = true then "captions" else "segments") = key at hkey
    rw [h.get hkey]
    cases fs.get key with
    | list cues =>
        dsimp only
        cases cues.mapM sanitizeCue with
        | error f => exact .inl ⟨f, rfl, rfl⟩
        | ok cleaned => exact .inr ⟨_, _, rfl, rfl, h.set key _⟩
    | _ => exact .inr ⟨fs, gs, rfl, rfl, h⟩
  · rw [sanitizeParams, sanitizeParams, if_neg hcaptions, if_neg hcaptions]
    split_ifs with htext
    · have hget : gs.get "text" = fs.get "text" := by
        cases k with
        | addText | customText => exact h.get (by decide)
        | _ => cases htext
      rw [hget]
      cases fs.get "text" with
      | string s => exact .inr ⟨_, _, rfl, rfl, h.set "text" _⟩
      | _ => exact .inr ⟨fs, gs, rfl, rfl, h⟩
    · exact .inr ⟨fs, gs, rfl, rfl, h⟩

/-! ## The way to a renderer -/

theorem buildCleaned_congr :
    Operation.buildCleaned k gs window = Operation.buildCleaned k fs window := by
  rw [Operation.buildCleaned, Operation.buildCleaned]
  rcases sanitizeParams_congr h with ⟨f, hfs, hgs⟩ | ⟨fs', gs', hfs, hgs, hagree⟩
  · rw [hfs, hgs]
  · rw [hfs, hgs]
    exact build_congr hagree

theorem validate_congr :
    validate (.string k.name) (.object gs) = validate (.string k.name) (.object fs) := by
  simp only [validate, problems, Kind.ofValue?_name k, fieldProblems_congr h]

theorem instructionProblems_congr (resource : Resource) :
    instructionProblems ⟨.string k.name, .object gs, resource⟩ =
      instructionProblems ⟨.string k.name, .object fs, resource⟩ := by
  rw [instructionProblems_eq (Kind.ofValue?_name k) rfl,
    instructionProblems_eq (Kind.ofValue?_name k) rfl, fieldProblems_congr h]

/-- **Preparing** an edit depends on the known keys only. -/
theorem prepare_congr (resource : Resource) :
    (⟨.string k.name, .object gs, resource⟩ : Instruction).prepare =
      (⟨.string k.name, .object fs, resource⟩ : Instruction).prepare := by
  have hkind : Kind.ofValue? (.string k.name) = some k := Kind.ofValue?_name k
  have hproblems := instructionProblems_congr h resource
  by_cases haccepted : instructionProblems ⟨.string k.name, .object fs, resource⟩ = .ok []
  · rw [Instruction.prepare_eq hkind haccepted rfl,
      Instruction.prepare_eq hkind (hproblems.trans haccepted) rfl]
    rcases sanitizeParams_congr h with ⟨f, hfs, hgs⟩ | ⟨fs', gs', hfs, hgs, hagree⟩
    · rw [hfs, hgs]
    · have hbuilt : Operation.ofFields k gs' none = Operation.ofFields k fs' none :=
        Operation.ofFields_congr hagree
      rw [hfs, hgs]
      simp only [Outcome.mapError_ok, bind, Except.bind, hbuilt]
  · -- What is not accepted does not come to be cleaned.
    rw [Instruction.prepare, Instruction.prepare, hproblems, Kind.parse, hkind]
    cases hfound : instructionProblems ⟨.string k.name, .object fs, resource⟩ with
    | error f => rfl
    | ok found =>
        cases found with
        | nil => exact absurd hfound haccepted
        | cons p ps => rfl

/-- The same holds of parts that are checked and limited to a window. -/
theorem checkedOperation_congr (resource : Resource) :
    checkedOperation (.string k.name) (.object gs) window resource =
      checkedOperation (.string k.name) (.object fs) window resource := by
  have hobject : ∀ ps : Fields, (Value.object ps).orElse (.object []) = .object ps := by
    intro ps
    cases ps <;> rfl
  have hparse : Kind.parse (.string k.name) = .ok k := by rw [Kind.parse, Kind.ofValue?_name]
  rw [checkedOperation, checkedOperation, hparse, hobject, hobject]
  simp only [Outcome.mapError_ok, bind, Except.bind, prepare_congr h]

/-- **What depends on the known keys only**: the verdict on an edit, its operation, and what both
renderers make of it. -/
theorem sameEdit_of_agreeOn : SameEdit k fs gs where
  verdict := validate_congr h
  operation _ := buildCleaned_congr h
  prepared := prepare_congr h
  filter s window := by simp only [Studio.compile, Studio.operationOf, build_congr h]
  preview s window resource := by simp only [Studio.preview, Studio.operationOf, build_congr h]
  checkedFilter s window := by simp only [Studio.checkedFilter, checkedOperation_congr h]
  checkedPreview s window resource := by simp only [Studio.checkedPreview, checkedOperation_congr h]

end

/-- **Unknown keys are ignored**: whatever is put under a key that is neither a name of a parameter
in the catalogue nor a bound of a window makes no difference to an edit. -/
theorem sameEdit_set (k : Kind) (fs : Fields) {key : String} (hkey : key ∉ k.knownKeys)
    (v : Value) : SameEdit k fs (fs.set key v) :=
  sameEdit_of_agreeOn (.of_set hkey v)

/-- A remark beside an angle. -/
theorem sameEdit_remark :
    "remark" ∉ Kind.rotate.knownKeys ∧
      SameEdit .rotate [("degrees", .int 90)]
        [("degrees", .int 90), ("remark", .string "upright")] := by
  have hkey : "remark" ∉ Kind.rotate.knownKeys := by decide
  exact ⟨hkey, sameEdit_set .rotate [("degrees", .int 90)] hkey (.string "upright")⟩

end Montage
