import Montage.Catalog.Check
import Montage.Proofs.Edit.Building
import Montage.Proofs.Value

/-!
# Parameters that count as absent

Null and the empty text are what a form sends for a parameter that was not filled in. They count as
absent wherever a parameter is looked for under several keys. Some keys are also read directly, and
there null, the empty text and no value at all are three different things.

## Main definitions

* `MayBeLeftOut`: a value under a key makes no difference to an edit.
* `Kind.rawKeys`, `Kind.textKeys`: the keys that an edit reads directly.
* `textRule`, `trimRule`, `windowRule`, `cueRule`: the rules about several parameters, one by one.

## Main statements

* `fieldProblems_erase`, `Operation.ofFields_erase`: the check and the operation are the same
  without any other key under which nothing is present.
* `mayBeLeftOut_iff`: a value that is not present can be left out just under those keys.
-/
namespace Montage

/-- A value under a key makes no difference to the verdict on an edit, nor to the operation that is
built or the failure to build it. -/
def MayBeLeftOut (kind : Value) (key : String) (v : Value) : Prop :=
  ∀ (fs : Fields) (window : Option Window), fs.get? key = some v →
    validate kind (.object (Fields.erase fs key)) = validate kind (.object fs) ∧
    Operation.build kind (.object (Fields.erase fs key)) window =
      Operation.build kind (.object fs) window

namespace Kind

/-- The keys that an edit reads directly, so that null under one of them is not the same as no
value: it hides the value under the other name of the parameter, or the default. -/
def rawKeys : Kind → List String
  | trim => ["start", "startTime", "end"]
  | addCaptions => ["captions"]
  | crop => ["x", "y", "width", "height"]
  | _ => []

/-- The keys under which only null is the same as no value. -/
def textKeys (k : Kind) : List String :=
  (if k.isBounded then [] else ["startTime", "endTime"]) ++
    match k with
    | colorGrade => ["intensity"]
    | addText | customText => ["text"]
    | _ => []

/-- The edit takes a value that is not present for something else than an absent one. -/
def TakesEmpty (k : Kind) (key : String) (v : Value) : Prop :=
  key ∈ k.rawKeys ∨ key ∈ k.textKeys ∧ v = .string ""

theorem eq_name_of_ofValue? {kind : Value} {k : Kind} (h : ofValue? kind = some k) :
    kind = .string k.name := by
  cases kind with
  | string s =>
      rw [ofValue?, ofName?] at h
      have hname := List.find?_some h
      rw [of_decide_eq_true hname]
  | _ => cases h

end Kind

variable {k : Kind} {fs : Fields} {key key' other : String} {keys : List String} {v d : Value}

theorem Value.isPresent_eq_false : v.isPresent = false ↔ v = .null ∨ v = .string "" := by
  cases v <;> simp [isPresent]

namespace Fields

section

variable (hv : (fs.get key).isPresent = false)

include hv

theorem real?_erase : real? (erase fs key) keys = fs.real? keys := by
  rw [real?, first?_erase hv, real?]

theorem real_erase {x : Binary64} : real (erase fs key) keys x = fs.real keys x := by
  rw [real, first?_erase hv, real]

theorem text_erase {s : String} : text (erase fs key) keys s = fs.text keys s := by
  rw [text, first?_erase hv, text]

theorem value_erase : value (erase fs key) keys = fs.value keys := by
  rw [value, first?_erase hv, value]

theorem problems_erase {f : FieldSpec} : f.problems (erase fs key) = f.problems fs := by
  rw [FieldSpec.problems, FieldSpec.find?, pick?_erase hv, ← FieldSpec.find?, ← FieldSpec.problems]

end

/-- Null is what is found where nothing is, so null can be left out of what is read directly. -/
theorem get_erase (h : key' = key → fs.get key = .null) :
    (erase fs key).get key' = fs.get key' := by
  by_cases hkey : key' = key
  · rw [hkey, get_erase_self, h hkey]
  · exact get_erase_of_ne hkey

/-- Of two names of a parameter, the second is looked at only where the first is absent. -/
theorem either_erase (key' other : String) (d : Value) (h : fs.get? key = some v)
    (hkey : key' ≠ key) :
    (erase fs key).either key' other d = fs.either key' other d ∨
      (erase fs key).either key' other d = d ∧ fs.either key' other d = v := by
  rw [either, either, get?_erase_of_ne hkey]
  cases fs.get? key' with
  | some w => exact .inl rfl
  | none =>
      by_cases hother : other = key
      · subst hother
        rw [get?_erase, if_pos rfl, h]
        exact .inr ⟨rfl, rfl⟩
      · rw [get?_erase_of_ne hother]
        exact .inl rfl

end Fields

/-- The rule that a text edit has a text to write. -/
def textRule (k : Kind) (fs : Fields) : List String :=
  match k.isText, fs.get "text" with
  | true, .string s => if s.isBlank then ["text must not be empty"] else []
  | _, _ => []

/-- The rule about the two times of a trim. -/
def trimRule (k : Kind) (fs : Fields) : Problems :=
  if k = .trim then
    orderProblems "start" (fs.either "start" "startTime" (.int 0))
      "end" (fs.either "end" "endTime" .null)
  else .ok []

/-- The rule about the two times of a window. -/
def windowRule (k : Kind) (fs : Fields) : Problems :=
  if k.isBounded then .ok []
  else orderProblems "startTime" (fs.get "startTime") "endTime" (fs.get "endTime")

/-- The rule about each of the captions. -/
def cueRule (k : Kind) (fs : Fields) : List String :=
  match k, fs.either "captions" "segments" .null with
  | .addCaptions, .list vs => cuesProblems 0 vs
  | _, _ => []

theorem ruleProblems_eq :
    ruleProblems k fs = (do
      let trim ← trimRule k fs
      let window ← windowRule k fs
      .ok (textRule k fs ++ trim ++ window ++ cueRule k fs)) := by
  simp only [ruleProblems, trimRule, windowRule]
  split_ifs <;> rfl

/-- Times that are not both numbers are in no order. -/
theorem orderProblems_of_number?_eq_none {startName endName : String} {start finish : Value}
    (h : finish.number? = none) : orderProblems startName start endName finish = .ok [] := by
  cases finish with
  | number n => cases h
  | _ => cases start <;> rfl

section

variable (h : fs.get? key = some v) (hv : v.isPresent = false)

include h

theorem Fields.get_eq : fs.get key = v := by rw [get, h, Option.getD_some]

include hv

theorem Value.eq_null_of_ne_empty (hne : v ≠ .string "") : fs.get key = .null :=
  (Fields.get_eq h).trans ((isPresent_eq_false.mp hv).resolve_right hne)

/-- A rule about two times is the same without a second name of the second time. -/
theorem orderProblems_either_erase {start : Value} {startName endName : String}
    (hkey : key' ≠ key) :
    orderProblems startName start endName
        (Fields.either (Fields.erase fs key) key' other .null) =
      orderProblems startName start endName (fs.either key' other .null) := by
  rcases Fields.either_erase key' other .null h hkey with heq | ⟨hnull, hsome⟩
  · rw [heq]
  · rw [hnull, hsome, orderProblems_of_number?_eq_none rfl,
      orderProblems_of_number?_eq_none]
    rcases Value.isPresent_eq_false.mp hv with rfl | rfl <;> rfl

variable (hk : ¬k.TakesEmpty key v)

include hk

omit h hv in
theorem ne_of_mem_rawKeys (key' : String) (hkey : key' ∈ k.rawKeys) : key' ≠ key :=
  fun heq => hk (.inl (heq ▸ hkey))

theorem get_erase_of_mem_textKeys (key' : String) (hkey : key' ∈ k.textKeys) :
    (Fields.erase fs key).get key' = fs.get key' := by
  refine Fields.get_erase fun heq => ?_
  exact Value.eq_null_of_ne_empty h hv fun hempty => hk (.inr ⟨heq ▸ hkey, hempty⟩)

theorem textRule_erase : textRule k (Fields.erase fs key) = textRule k fs := by
  rw [textRule, textRule]
  cases htext : k.isText with
  | false => rfl
  | true =>
      have hmem : "text" ∈ k.textKeys := by
        cases k with
        | addText | customText => simp [Kind.textKeys]
        | _ => cases htext
      rw [get_erase_of_mem_textKeys h hv hk "text" hmem]

theorem trimRule_erase : trimRule k (Fields.erase fs key) = trimRule k fs := by
  rw [trimRule, trimRule]
  split_ifs with htrim
  · subst htrim
    have hraw := ne_of_mem_rawKeys hk
    have hstart : (Fields.erase fs key).either "start" "startTime" (.int 0) =
        fs.either "start" "startTime" (.int 0) := by
      rw [Fields.either, Fields.either,
        Fields.get?_erase_of_ne (hraw "start" (by simp [Kind.rawKeys])),
        Fields.get?_erase_of_ne (hraw "startTime" (by simp [Kind.rawKeys]))]
    rw [hstart, orderProblems_either_erase h hv (hraw "end" (by simp [Kind.rawKeys]))]
  · rfl

theorem windowRule_erase : windowRule k (Fields.erase fs key) = windowRule k fs := by
  rw [windowRule, windowRule]
  split_ifs with hbounded
  · rfl
  · rw [get_erase_of_mem_textKeys h hv hk "startTime" (by simp [Kind.textKeys, hbounded]),
      get_erase_of_mem_textKeys h hv hk "endTime" (by simp [Kind.textKeys, hbounded])]

theorem cueRule_erase : cueRule k (Fields.erase fs key) = cueRule k fs := by
  cases k with
  | addCaptions =>
      have hkey : "captions" ≠ key := ne_of_mem_rawKeys hk "captions" (by simp [Kind.rawKeys])
      simp only [cueRule]
      rcases Fields.either_erase "captions" "segments" .null h hkey with heq | ⟨hnull, hsome⟩
      · rw [heq]
      · rw [hnull, hsome]
        rcases Value.isPresent_eq_false.mp hv with rfl | rfl <;> rfl
  | _ => rfl

/-- **The check** is the same without the key. -/
theorem fieldProblems_erase : fieldProblems k (Fields.erase fs key) = fieldProblems k fs := by
  have hpresent : (fs.get key).isPresent = false := Fields.get_eq h ▸ hv
  rw [fieldProblems, fieldProblems, ruleProblems_eq, ruleProblems_eq, textRule_erase h hv hk,
    trimRule_erase h hv hk, windowRule_erase h hv hk, cueRule_erase h hv hk]
  simp only [Fields.problems_erase hpresent]

theorem Window.ofFields_erase (hbounded : k.isBounded = false) :
    Window.ofFields (Fields.erase fs key) = Window.ofFields fs := by
  rw [Window.ofFields, Window.ofFields, Window.time?, Window.time?, Window.time?, Window.time?,
    get_erase_of_mem_textKeys h hv hk "startTime" (by simp [Kind.textKeys, hbounded]),
    get_erase_of_mem_textKeys h hv hk "endTime" (by simp [Kind.textKeys, hbounded])]

/-- **The parameters** that an edit uses are the same without the key. -/
theorem Edit.ofFields_erase : Edit.ofFields k (Fields.erase fs key) = Edit.ofFields k fs := by
  have hpresent : (fs.get key).isPresent = false := Fields.get_eq h ▸ hv
  cases k with
  | trim =>
      simp only [Edit.ofFields, TrimParams.ofFields, Fields.real_erase hpresent,
        Fields.real?_erase hpresent]
  | removeClip =>
      simp only [Edit.ofFields, RemovalParams.ofFields, Fields.real_erase hpresent]
  | colorGrade =>
      simp only [Edit.ofFields, GradeParams.ofFields, Fields.text_erase hpresent,
        get_erase_of_mem_textKeys h hv hk "intensity" (by simp [Kind.textKeys])]
  | applyEffect =>
      simp only [Edit.ofFields, EffectParams.ofFields, Fields.text_erase hpresent,
        Fields.real_erase hpresent]
  | addText | customText =>
      simp only [Edit.ofFields, TextParams.ofFields, Fields.text_erase hpresent,
        Fields.value_erase hpresent]
  | filter =>
      simp only [Edit.ofFields, FilterParams.ofFields, Fields.text_erase hpresent,
        Fields.real?_erase hpresent]
  | addCaptions =>
      simp only [Edit.ofFields, CaptionParams.ofFields, Fields.value_erase hpresent]
  | adjustIntensity =>
      simp only [Edit.ofFields, IntensityParams.ofFields, Fields.value_erase hpresent,
        Fields.real?_erase hpresent]
  | adjustZoom =>
      simp only [Edit.ofFields, ZoomParams.ofFields, Fields.value_erase hpresent,
        Fields.real?_erase hpresent]
  | adjustSpeed => simp only [Edit.ofFields, SpeedParams.ofFields, Fields.real_erase hpresent]
  | rotate => simp only [Edit.ofFields, RotationParams.ofFields, Fields.real_erase hpresent]
  | crop =>
      have hraw : ∀ key' ∈ Kind.rawKeys .crop, (Fields.erase fs key).get? key' = fs.get? key' :=
        fun key' hmem => Fields.get?_erase_of_ne (ne_of_mem_rawKeys hk key' hmem)
      simp only [Edit.ofFields, CropParams.ofFields, Fields.requiredReal,
        hraw "x" (by simp [Kind.rawKeys]), hraw "y" (by simp [Kind.rawKeys]),
        hraw "width" (by simp [Kind.rawKeys]), hraw "height" (by simp [Kind.rawKeys])]

/-- **The operation** that is built is the same without the key. -/
theorem Operation.ofFields_erase {window : Option Window} :
    Operation.ofFields k (Fields.erase fs key) window = Operation.ofFields k fs window := by
  rw [Operation.ofFields_eq, Operation.ofFields_eq, Edit.ofFields_erase h hv hk]
  cases hbounded : k.isBounded with
  | true => simp [Operation.windowOf, hbounded]
  | false => rw [Operation.windowOf, Window.ofFields_erase h hv hk hbounded, Operation.windowOf]

end

/-- Without the keys that an edit reads directly, what is not present can be left out. -/
theorem MayBeLeftOut.of_not_takesEmpty {kind : Value} (hv : v.isPresent = false)
    (hk : ∀ k, Kind.ofValue? kind = some k → ¬k.TakesEmpty key v) : MayBeLeftOut kind key v := by
  intro fs window h
  cases hkind : Kind.ofValue? kind with
  | none => simp [validate, problems, Operation.build, Kind.parse, hkind]
  | some k =>
      have hcheck := fieldProblems_erase h hv (hk k hkind)
      have hbuild : Operation.ofFields k (Fields.erase fs key) window =
          Operation.ofFields k fs window := Operation.ofFields_erase h hv (hk k hkind)
      simp only [validate, problems, hkind, hcheck, Operation.build_of_kind hkind,
        Operation.ofValue_object, hbuild, and_self]

/-- Parameters beside which a key that is read directly matters. -/
def Kind.others : Kind → Fields
  | trim => [("startTime", .int 5), ("end", .int 0), ("endTime", .int 3)]
  | addCaptions => [("segments", .list [.int 5])]
  | crop => [("x", .int 1), ("y", .int 1), ("width", .int 1), ("height", .int 1)]
  | _ => []

/-- What shows of the check of a request and of the operation that is built: the verdict, and the
fault of what cannot be built. -/
def shownOutcome (k : Kind) (fs : Fields) : Option Verdict × Option Fault :=
  ((validate (.string k.name) (.object fs)).toOption,
    match Operation.build (.string k.name) (.object fs) none with
    | .error (.fault cause) => some cause
    | _ => none)

theorem shownOutcome_erase_ne (hv : v.isPresent = false) (hk : k.TakesEmpty key v) :
    shownOutcome k (Fields.erase (k.others.set key v) key) ≠
      shownOutcome k (k.others.set key v) := by
  have hraw : ∀ w ∈ [Value.null, .string ""], ∀ key ∈ k.rawKeys,
      shownOutcome k (Fields.erase (k.others.set key w) key) ≠
        shownOutcome k (k.others.set key w) := by
    cases k <;> decide +kernel
  have htext : ∀ key ∈ k.textKeys,
      shownOutcome k (Fields.erase (k.others.set key (.string "")) key) ≠
        shownOutcome k (k.others.set key (.string "")) := by
    cases k <;> decide +kernel
  rcases hk with hkey | ⟨hkey, rfl⟩
  · exact hraw v (by simpa using Value.isPresent_eq_false.mp hv) key hkey
  · exact htext key hkey

/-- **What counts as absent.** A value that is not present makes no difference under any key but
those that the edit reads directly. -/
theorem mayBeLeftOut_iff {kind : Value} (hv : v.isPresent = false) :
    MayBeLeftOut kind key v ↔ ∀ k, Kind.ofValue? kind = some k → ¬k.TakesEmpty key v := by
  refine ⟨fun h k hkind hk => ?_, .of_not_takesEmpty hv⟩
  obtain rfl := Kind.eq_name_of_ofValue? hkind
  obtain ⟨hverdict, hbuild⟩ := h (k.others.set key v) none Fields.get?_set_self
  exact shownOutcome_erase_ne hv hk (by rw [shownOutcome, hverdict, hbuild, shownOutcome])

theorem mayBeLeftOut_null_zoom : MayBeLeftOut (.string "adjustZoom") "zoom" .null := by
  refine (mayBeLeftOut_iff rfl).mpr fun k hk => ?_
  obtain rfl : Kind.adjustZoom = k := Option.some.inj (Eq.trans (by decide) hk)
  simp [Kind.TakesEmpty, Kind.rawKeys, Kind.textKeys, Kind.isBounded]

/-- A grade whose intensity was left empty cannot be built. -/
theorem not_mayBeLeftOut_empty_intensity :
    ¬MayBeLeftOut (.string "colorGrade") "intensity" (.string "") := by
  intro h
  obtain ⟨-, hbuild⟩ := h [("preset", .string "warm"), ("intensity", .string "")] none rfl
  have hok : (Operation.build (.string "colorGrade")
      (.object (Fields.erase [("preset", .string "warm"), ("intensity", .string "")] "intensity"))
      none).isOk = false := by
    rw [hbuild]
    decide +kernel
  exact absurd hok (by decide +kernel)

end Montage
