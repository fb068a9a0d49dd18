import Montage.Proofs.Edit.Ranges
import Montage.Proofs.Engine.Preparing
import Montage.Proofs.Number.Finite

/-!
# What is known of a prepared edit

A request is checked, its texts are cleaned, and its edit is built. What the edit takes over as it
stands was seen by the check: colours, fonts and styles are texts, sizes are in their range, and the
strength of an effect lies between zero and one. The times of its window are binary numbers.

## Main definitions

* `Edit.IsChecked`: what the check says about the parameters of an edit.
* `Instruction.Prepares`: how an operation comes out of a request.

## Main statements

* `Instruction.exists_of_prepare`: the steps by which an operation was prepared.
* `Instruction.Prepares.isChecked`: the edit of a prepared operation is checked.
* `Instruction.Prepares.checkedOperation_eq`: preparing the same parts again.
-/
namespace Montage

/-- The value is null or a text. -/
def Value.IsText : Value → Prop
  | .null | .string _ => True
  | _ => False

/-- The size of a text is in its range, and what else it is given is made of texts; the colour is
not empty. -/
structure TextParams.IsChecked (p : TextParams) : Prop where
  size : p.size.IsTextSize
  color : p.color ≠ ""
  background : p.background.IsText
  style : p.style.IsText

/-- The size of captions is in its range, and what else they are given is made of texts. -/
structure CaptionParams.IsChecked (p : CaptionParams) : Prop where
  file : p.file.IsText
  color : p.color.IsText
  size : p.size.IsTextSize
  background : p.background.IsText

/-- What the check says about the parameters that an edit uses as they are, and about the strength
of an effect. -/
def Edit.IsChecked : Edit → Prop
  | .applyEffect p => 0 ≤ p.intensity ∧ p.intensity ≤ 1
  | .addText p | .customText p => p.IsChecked
  | .addCaptions p => p.IsChecked
  | _ => True

/-- The bounds of the window are binary numbers. -/
structure Window.HasReals (w : Window) : Prop where
  start : ∃ x, w.start = .real x
  finish : ∀ e ∈ w.finish, ∃ x, e = .real x

/-- The operation `o` comes out of a request for the edit `k` with the fields `fs`: they are
accepted, and it is built from the fields `gs` into which they are cleaned. -/
structure Instruction.Prepares (i : Instruction) (k : Kind) (fs gs : Fields) (o : Operation) :
    Prop where
  kind : Kind.ofValue? i.operation = some k
  params : i.params = .object fs
  accepted : instructionProblems i = .ok []
  cleaned : sanitizeParams k fs = .ok gs
  built : Operation.ofFields k gs none = .ok o

variable {k : Kind} {fs gs : Fields} {i : Instruction} {o : Operation}

/-! ## How an operation is prepared -/

namespace Kind

theorem ofValue?_name (k : Kind) : ofValue? (.string k.name) = some k := by
  cases k <;> decide +kernel

end Kind

namespace Instruction

theorem prepare_eq (hkind : Kind.ofValue? i.operation = some k)
    (haccepted : instructionProblems i = .ok []) (hparams : i.params = .object fs) :
    i.prepare = (do
      let gs ← (sanitizeParams k fs).mapError Failure.fault
      match Operation.ofFields k gs none with
      | .ok o => .ok o
      | .error f =>
        if f.isOfForm then
          .error (.edit (.malformed ("Invalid parameters for " ++ k.name ++ ": " ++ f.message)))
        else .error (.fault f)) := by
  rw [prepare, Kind.parse, hkind, haccepted, hparams]
  rfl

/-- Accepted parameters are an object, unless they are null, which cannot be cleaned. -/
theorem exists_fields_of_prepare (h : i.prepare = .ok o) :
    ∃ k fs, Kind.ofValue? i.operation = some k ∧ i.params = .object fs ∧
      instructionProblems i = .ok [] := by
  rw [prepare] at h
  obtain ⟨k, hk, h⟩ := Outcome.bind_eq_ok.mp h
  obtain ⟨found, hfound, h⟩ := Outcome.bind_eq_ok.mp h
  rw [Outcome.mapError_eq_ok] at hk hfound
  have hkind : Kind.ofValue? i.operation = some k := by
    rw [Kind.parse] at hk
    cases hvalue : Kind.ofValue? i.operation with
    | none => simp [hvalue] at hk
    | some j => simpa [hvalue] using hk
  cases found with
  | cons p ps => cases h
  | nil =>
      refine ⟨k, ?_⟩
      cases hparams : i.params with
      | object fs => exact ⟨fs, hkind, rfl, hfound⟩
      | null =>
          rw [hparams] at h
          cases h
      | _ =>
          -- the check of anything else has a problem
          simp only [instructionProblems, problems] at hfound
          rw [hkind, hparams] at hfound
          cases hfound

/-- **How an operation was prepared.** -/
theorem exists_of_prepare (h : i.prepare = .ok o) : ∃ k fs gs, i.Prepares k fs gs o := by
  obtain ⟨k, fs, hkind, hparams, haccepted⟩ := exists_fields_of_prepare h
  rw [prepare_eq hkind haccepted hparams] at h
  obtain ⟨gs, hgs, h⟩ := Outcome.bind_eq_ok.mp h
  refine ⟨k, fs, gs, hkind, hparams, haccepted, Outcome.mapError_eq_ok.mp hgs, ?_⟩
  rcases hbuilt : Operation.ofFields k gs none with f | o'
  · rw [hbuilt] at h
    dsimp only at h
    split_ifs at h
  · rw [hbuilt] at h
    rw [Except.ok.inj h]

end Instruction

theorem Request.prepare_eq_ok {r : Request} (hi : r.instruction = .ok i)
    (h : r.prepare = .ok o) : i.prepare = .ok o := by
  rw [Request.prepare, hi] at h
  exact h

/-! ## Values that were checked -/

theorem mem_checkedFields_of_isText (hk : k.isText = true) {f : FieldSpec} (hf : f ∈ textFields) :
    f ∈ checkedFields k := by
  cases k with
  | addText | customText => exact hf
  | _ => cases hk

/-- A text that is required or given is null or a text once it was accepted. -/
theorem isText_value {f : FieldSpec} (h : fieldProblems k fs = .ok []) (hf : f ∈ checkedFields k)
    (htype : f.type = .text ∨ f.type = .path) : (fs.value f.keys).IsText := by
  rw [Fields.value]
  cases hfirst : fs.first? f.keys with
  | none => trivial
  | some v =>
      obtain ⟨key, hproblems⟩ := FieldSpec.exists_valueProblems h hf hfirst
      cases v with
      | null => trivial
      | string s => trivial
      | _ => rcases htype with htype | htype <;> simp [FieldSpec.valueProblems, htype,
          FieldSpec.textProblems] at hproblems

/-- A number in a range that is closed on both sides can be compared, and is in the range after it
is rounded. -/
theorem between_of_accepted {f : FieldSpec} {x : Binary64} {a b : Int}
    (h : fieldProblems k fs = .ok []) (hf : f ∈ checkedFields k) (htype : f.type = .number)
    (hmin : f.minimum = some (.int a)) (hmax : f.maximum = some (.int b))
    (hchoices : f.choices = []) (ha : -2 ^ 53 < a) (hb : b < 2 ^ 53) (hx : fs.Uses f.keys x) :
    .finite a ≤ x ∧ x ≤ .finite b := by
  obtain ⟨v, hfirst, hx⟩ := hx
  obtain ⟨key, hproblems⟩ := FieldSpec.exists_valueProblems h hf hfirst
  simp only [FieldSpec.valueProblems, htype] at hproblems
  cases v with
  | number n =>
      obtain ⟨hlow, hhigh⟩ := FieldSpec.between_of_rangeProblems hmin hmax hchoices hproblems
      obtain rfl : n.toReal = x := by
        rw [Value.toReal, Number.toReal?] at hx
        split_ifs at hx
        exact Except.ok.inj hx
      exact Number.toReal_between (Binary64.ne_nan_of_le hlow).2 ha hb hlow hhigh
  | _ => cases hproblems

namespace Value

variable {v : Value}

/-- What is present has a text. -/
theorem text_ne_empty (h : v.isPresent = true) (htext : v.IsText) : v.text ≠ "" := by
  cases v with
  | null => cases h
  | string s => exact of_decide_eq_true h
  | _ => cases htext

theorem IsText.exists_string (h : v.IsText) (htruthy : v.isTruthy = true) :
    ∃ t, v = .string t ∧ t ≠ "" := by
  cases v with
  | null => cases htruthy
  | string t => exact ⟨t, rfl, of_decide_eq_true htruthy⟩
  | _ => cases h

namespace IsTextSize

variable (h : v.IsTextSize)

include h

/-- A number in the range of sizes has an integer part. -/
theorem isOk_toInt (n : Number) (hn : v.count? = some n) : n.toInt.isOk = true := by
  cases v with
  | number m =>
      obtain rfl := Option.some.inj hn
      exact Number.isOk_toInt_iff.mpr (Number.isFinite_of_between h.1 h.2)
  | bool b => cases h
  | _ => cases hn

/-- The digits of a text in the range of sizes write an integer. -/
theorem isOk_integer (hcount : v.count? = none)
    (hdigits : Text.allDigits v.text.strip.lowerCase.toList = true) :
    (Numeral.integer v.text.strip.lowerCase).isOk = true := by
  cases v with
  | null => exact absurd hdigits (by decide +kernel)
  | string t =>
      obtain ⟨m, hm, -⟩ := h hdigits
      cases hread : Numeral.integer t.strip.lowerCase with
      | error e => simp [hread, Except.toOption] at hm
      | ok m => exact congrArg Except.isOk hread
  | number n => cases hcount
  | _ => cases h

end IsTextSize

end Value

theorem Fields.isPresent_of_first? {keys : List String} {v : Value}
    (h : fs.first? keys = some v) : v.isPresent = true := by
  induction keys with
  | nil => cases h
  | cons key keys ih =>
      rw [first?_cons] at h
      split_ifs at h with hpresent
      · exact Option.some.inj h ▸ hpresent
      · exact ih h

/-- Cleaning changes nothing but the texts to be shown. -/
theorem first?_sanitizeParams (h : sanitizeParams k fs = .ok gs) {keys : List String}
    (hkeys : ∀ key ∈ ["text", "captions", "segments"], key ∉ keys) :
    gs.first? keys = fs.first? keys := by
  have hset : ∀ key ∈ ["text", "captions", "segments"], ∀ v,
      (fs.set key v).first? keys = fs.first? keys :=
    fun key hkey v => Fields.first?_set_of_not_mem (hkeys key hkey)
  rw [sanitizeParams] at h
  split_ifs at h with htext hcaptions hhas
  · split at h
    · obtain rfl := Except.ok.inj h
      exact hset "text" (by simp) _
    · obtain rfl := Except.ok.inj h
      rfl
  · dsimp only at h
    split at h
    · obtain ⟨ws, -, h⟩ := Outcome.bind_eq_ok.mp h
      obtain rfl := Except.ok.inj h
      exact hset "captions" (by simp) _
    · obtain rfl := Except.ok.inj h
      rfl
  · dsimp only at h
    split at h
    · obtain ⟨ws, -, h⟩ := Outcome.bind_eq_ok.mp h
      obtain rfl := Except.ok.inj h
      exact hset "segments" (by simp) _
    · obtain rfl := Except.ok.inj h
      rfl
  · obtain rfl := Except.ok.inj h
    rfl

theorem value_sanitizeParams (h : sanitizeParams k fs = .ok gs) {keys : List String}
    (hkeys : ∀ key ∈ ["text", "captions", "segments"], key ∉ keys) :
    gs.value keys = fs.value keys := by
  rw [Fields.value, first?_sanitizeParams h hkeys, Fields.value]

section

variable (h : fieldProblems k fs = .ok []) (hgs : sanitizeParams k fs = .ok gs)

include h hgs

/-- The colour of a text is never empty: it is the given one, or white. -/
theorem TextParams.isChecked_ofFields (hk : k.isText = true) :
    (TextParams.ofFields gs).IsChecked := by
  have hmem : ∀ f ∈ textFields, f ∈ checkedFields k := fun _ => mem_checkedFields_of_isText hk
  have hsize : (fs.value ["fontSize", "size"]).IsTextSize :=
    isTextSize_value h (hmem _ (.tail _ (.tail _ (.head _)))) rfl rfl rfl rfl
  have hcolor : (fs.value ["fontColor", "color"]).IsText :=
    isText_value h (hmem _ (.tail _ (.tail _ (.tail _ (.head _))))) (.inl rfl)
  have hback : (fs.value ["backgroundColor", "bgColor", "background"]).IsText :=
    isText_value h (hmem _ (.tail _ (.tail _ (.tail _ (.tail _ (.head _)))))) (.inl rfl)
  have hstyle : (fs.value ["style", "fontStyle"]).IsText :=
    isText_value h (hmem _ (.tail _ (.tail _ (.tail _ (.tail _ (.tail _ (.tail _ (.head _))))))))
      (.inl rfl)
  rw [← value_sanitizeParams hgs (by decide)] at hsize hcolor hback hstyle
  refine ⟨isTextSize_wholeSize hsize, ?_, hback, hstyle⟩
  rw [Fields.value] at hcolor
  simp only [TextParams.ofFields, Fields.text]
  cases hgiven : gs.first? ["fontColor", "color"] with
  | none => decide
  | some v =>
      rw [hgiven] at hcolor
      exact Value.text_ne_empty (Fields.isPresent_of_first? hgiven) hcolor

theorem CaptionParams.isChecked_ofFields {p : CaptionParams} (hk : k = .addCaptions)
    (hp : CaptionParams.ofFields gs = .ok p) : p.IsChecked := by
  subst hk
  obtain ⟨cues, -, hp⟩ := Outcome.bind_eq_ok.mp hp
  obtain rfl := Except.ok.inj hp
  have hfile : (fs.value ["subtitleFile", "subtitlePath", "srtPath"]).IsText :=
    isText_value h (.head _) (.inr rfl)
  have hcolor : (fs.value ["subtitleColor", "color"]).IsText :=
    isText_value h (.tail _ (.tail _ (.head _))) (.inl rfl)
  have hsize : (fs.value ["subtitleSize", "size", "fontSize"]).IsTextSize :=
    isTextSize_value h (.tail _ (.tail _ (.tail _ (.head _)))) rfl rfl rfl rfl
  have hback : (fs.value ["backgroundColor", "bgColor"]).IsText :=
    isText_value h (.tail _ (.tail _ (.tail _ (.tail _ (.tail _ (.tail _ (.head _)))))))
      (.inl rfl)
  rw [← value_sanitizeParams hgs (by decide)] at hfile hcolor hsize hback
  exact ⟨hfile, hcolor, hsize, hback⟩

theorem EffectParams.isChecked_ofFields {p : EffectParams} (hk : k = .applyEffect)
    (hp : EffectParams.ofFields gs = .ok p) : 0 ≤ p.intensity ∧ p.intensity ≤ 1 := by
  subst hk
  obtain ⟨x, hx, hp⟩ := Outcome.bind_eq_ok.mp hp
  obtain rfl := Except.ok.inj hp
  rcases Fields.uses_of_real hx with rfl | ⟨v, hfirst, hv⟩
  · exact (by decide +kernel :
      (0 : Binary64) ≤ .nearest (1 / 2) ∧ .nearest (1 / 2) ≤ (1 : Binary64))
  · rw [first?_sanitizeParams hgs (by decide)] at hfirst
    exact between_of_accepted h (.tail _ (.head _)) rfl rfl rfl rfl (by decide) (by decide)
      ⟨v, hfirst, hv⟩

theorem Edit.isChecked_ofFields {e : Edit} (he : Edit.ofFields k gs = .ok e) : e.IsChecked := by
  cases k with
  | addText | customText =>
      obtain rfl := Except.ok.inj he
      exact TextParams.isChecked_ofFields h hgs rfl
  | applyEffect =>
      obtain ⟨p, hp, rfl⟩ := Outcome.map_eq_ok.mp he
      exact EffectParams.isChecked_ofFields h hgs rfl hp
  | addCaptions =>
      obtain ⟨p, hp, rfl⟩ := Outcome.map_eq_ok.mp he
      exact CaptionParams.isChecked_ofFields h hgs rfl hp
  | _ =>
      obtain ⟨p, hp, rfl⟩ := Outcome.map_eq_ok.mp he
      trivial

end

/-! ## Windows -/

theorem Window.hasReals_between {start finish : Option Binary64} {w : Window}
    (h : Window.between start finish = .ok (some w)) : w.HasReals := by
  have hof : ∀ {x : Binary64} {t : Option Binary64},
      (Window.of (.real x) (t.map .real)).map some = .ok (some w) → w.HasReals := by
    intro x t hw
    obtain ⟨w', hw', hsome⟩ := Outcome.map_eq_ok.mp hw
    obtain rfl := Option.some.inj hsome
    simp only [Window.of] at hw'
    split_ifs at hw'
    cases t with
    | none =>
        obtain rfl := Except.ok.inj hw'
        refine ⟨⟨x, rfl⟩, ?_⟩
        intro e he
        cases he
    | some y =>
        dsimp only [Option.map] at hw'
        split_ifs at hw'
        obtain rfl := Except.ok.inj hw'
        refine ⟨⟨x, rfl⟩, ?_⟩
        rintro e ⟨⟩
        exact ⟨y, rfl⟩
  simp only [Window.between] at h
  split at h
  · cases h
  · exact hof h

/-- The window of a request has binary numbers for its bounds. -/
theorem Operation.hasReals_of_ofFields (h : Operation.ofFields k gs none = .ok o) :
    ∀ w ∈ o.window, w.HasReals := by
  rw [ofFields_eq] at h
  obtain ⟨window, hwindow, h⟩ := Outcome.bind_eq_ok.mp h
  obtain ⟨e, -, h⟩ := Outcome.bind_eq_ok.mp h
  obtain rfl := Except.ok.inj h
  rintro w rfl
  rw [windowOf] at hwindow
  split_ifs at hwindow
  · obtain ⟨start, -, hwindow⟩ := Outcome.bind_eq_ok.mp hwindow
    obtain ⟨finish, -, hwindow⟩ := Outcome.bind_eq_ok.mp hwindow
    exact Window.hasReals_between hwindow
  · cases hwindow

/-! ## Prepared operations -/

namespace Instruction.Prepares

variable (h : i.Prepares k fs gs o)

include h

theorem kind_eq : o.kind = k := Edit.kind_of_ofFields (Operation.edit_of_ofFields h.built)

/-- **The edit of a prepared operation is checked.** -/
theorem isChecked : o.edit.IsChecked :=
  Edit.isChecked_ofFields (fieldProblems_of_accepted h.kind h.params h.accepted) h.cleaned
    (Operation.edit_of_ofFields h.built)

theorem hasReals : ∀ w ∈ o.window, w.HasReals := Operation.hasReals_of_ofFields h.built

theorem prepare_eq_ok : i.prepare = .ok o := by
  rw [prepare_eq h.kind h.accepted h.params, h.cleaned]
  simp only [Outcome.mapError_ok, bind, Except.bind, h.built]

/-- **The same parts again.** The operation is prepared once more from the kind and the parameters,
for any media that the edit makes sense for, and refused for others. -/
theorem checkedOperation_eq (resource : Resource) :
    checkedOperation i.operation i.params none resource =
      if resource = .image ∧ k.needsTimeline then
        .error (.edit (refusalOf [k.name ++ " cannot be applied to an image"]))
      else .ok o := by
  have hparse : Kind.parse i.operation = .ok k := by rw [Kind.parse, h.kind]
  have hparams : i.params.orElse (.object []) = .object fs := by
    rw [h.params, Value.orElse]
    cases fs <;> rfl
  have hkind : Kind.ofValue? (Value.string k.name) = some k := Kind.ofValue?_name k
  have hfields := fieldProblems_of_accepted h.kind h.params h.accepted
  have hproblems := instructionProblems_eq (i := ⟨.string k.name, .object fs, resource⟩) hkind rfl
  rw [hfields] at hproblems
  have hchecked : checkedOperation i.operation i.params none resource =
      (⟨.string k.name, .object fs, resource⟩ : Instruction).prepare := by
    rw [checkedOperation, hparse, hparams]
    simp only [Outcome.mapError_ok, bind, Except.bind]
    cases (⟨.string k.name, .object fs, resource⟩ : Instruction).prepare <;> rfl
  rw [hchecked]
  by_cases hresource : resource = .image ∧ k.needsTimeline = true
  · rw [if_pos hresource] at hproblems ⊢
    rw [prepare, Kind.parse, hkind, hproblems]
    rfl
  · rw [if_neg hresource] at hproblems ⊢
    exact prepare_eq_ok ⟨hkind, rfl, hproblems, h.cleaned, h.built⟩

end Instruction.Prepares

end Montage
