import Montage.Proofs.Edit.Checked
import Montage.Proofs.Text.Cleaning

/-!
# The wording of an accepted text

The text of a request is checked not to be blank before it is cleaned. So a text of nothing but
characters that are dropped is accepted and shows nothing, and a long text may be cut after a blank.
The text of any other accepted request is clean.

## Main definitions

* `Request.TextOutlastsCleaning`: what a request has to see to by itself.

## Main statements

* `Instruction.Prepares.exists_text`: the text of an operation is the given one, cleaned.
* `Request.text_isClean_iff`: when the text of an accepted request is clean.
-/
namespace Montage

/-- Something that shows is left of the text of the request when it is cleaned, and the text is not
cut after a blank. -/
def Request.TextOutlastsCleaning (r : Request) : Prop :=
  ∀ (i : Instruction) (fs : Fields) (s : String), r.instruction = .ok i → i.params = .object fs →
    fs.get "text" = .string s → OutlastsCleaning s

variable {fs gs : Fields} {i : Instruction} {k : Kind} {o : Operation} {p : TextParams} {s : String}

/-! ## The text in the fields -/

/-- The parameters of an accepted text hold a text. -/
theorem exists_text_of_accepted (hk : k.isText = true) (h : fieldProblems k fs = .ok []) :
    ∃ s, fs.get "text" = .string s := by
  let f : FieldSpec := { name := "text", type := .text, required := true }
  have hmem : f ∈ checkedFields k := mem_checkedFields_of_isText hk (.head _)
  have hproblems : f.problems fs = .ok [] := (fieldProblems_eq_nil.mp h).1 f hmem
  have hfind : f.find? fs =
      if (fs.get "text").isPresent then some ("text", fs.get "text") else none :=
    Fields.pick?_cons
  by_cases hpresent : (fs.get "text").isPresent = true
  · rw [if_pos hpresent] at hfind
    rw [FieldSpec.problems, hfind] at hproblems
    cases hget : fs.get "text" with
    | string s => exact ⟨s, rfl⟩
    | _ => simp [FieldSpec.valueProblems, FieldSpec.textProblems, hget, f] at hproblems
  · rw [if_neg hpresent] at hfind
    simp [FieldSpec.problems, hfind, f] at hproblems

theorem sanitizeParams_text (hk : k.isText = true) (hget : fs.get "text" = .string s) :
    sanitizeParams k fs = .ok (fs.set "text" (.string (sanitize s))) := by
  rw [sanitizeParams, if_pos hk, hget]

/-- The empty text is read as none, which stands for the empty text. -/
theorem text_ofFields_set (fs : Fields) (s : String) :
    (TextParams.ofFields (fs.set "text" (.string s))).text = s := by
  have hget : (fs.set "text" (.string s)).get "text" = .string s := by
    rw [Fields.get, Fields.get?_set_self, Option.getD_some]
  rw [TextParams.ofFields, Fields.text, Fields.first?_cons, hget, Fields.first?_nil]
  by_cases hs : s = ""
  · subst hs
    rfl
  · have hpresent : (Value.string s).isPresent = true := decide_eq_true hs
    rw [if_pos hpresent]
    rfl

/-! ## Requests for texts -/

/-- **The text of an operation** is the given one, cleaned. -/
theorem Instruction.Prepares.exists_text (h : i.Prepares k fs gs o)
    (hedit : o.edit = .addText p ∨ o.edit = .customText p) :
    ∃ s, fs.get "text" = .string s ∧ p.text = sanitize s := by
  have hbuilt := Operation.edit_of_ofFields h.built
  have hkind := h.kind_eq
  have hk : k.isText = true ∧ p = TextParams.ofFields gs := by
    rw [Operation.kind] at hkind
    rcases hedit with hedit | hedit <;> rw [hedit] at hkind hbuilt <;> subst hkind <;>
      cases hbuilt <;> exact ⟨rfl, rfl⟩
  obtain ⟨s, hget⟩ := exists_text_of_accepted hk.1
    (fieldProblems_of_accepted h.kind h.params h.accepted)
  have hcleaned := h.cleaned
  rw [sanitizeParams_text hk.1 hget] at hcleaned
  refine ⟨s, hget, ?_⟩
  rw [hk.2, ← Except.ok.inj hcleaned, text_ofFields_set]

/-- **The text of an accepted request** is clean just if something that shows is left of it when it
is cleaned and it is not cut after a blank. -/
theorem Request.text_isClean_iff {r : Request} (hprepare : r.prepare = .ok o)
    (hedit : o.edit = .addText p ∨ o.edit = .customText p) :
    IsClean p.text ↔ r.TextOutlastsCleaning := by
  obtain ⟨i, hi, hio⟩ := Outcome.bind_eq_ok.mp hprepare
  obtain ⟨k, fs, gs, h⟩ := Instruction.exists_of_prepare hio
  obtain ⟨s, hs, htext⟩ := h.exists_text hedit
  rw [htext, isClean_sanitize_iff, TextOutlastsCleaning]
  constructor
  · intro hlasts i' fs' s' hi' hparams' hs'
    obtain rfl := Except.ok.inj (hi.symm.trans hi')
    obtain rfl := Value.object.inj (h.params.symm.trans hparams')
    obtain rfl := Value.string.inj (hs.symm.trans hs')
    exact hlasts
  · intro hlasts
    exact hlasts i fs s hi h.params hs

/-! ## Texts of brackets and blanks -/

/-- A request for a line of text. -/
def textOf (s : String) : Request :=
  .untyped (.object [("operation", .string "addText"), ("params", .object [("text", .string s)])])

/-- A line of text with nothing said of its look. -/
def TextParams.plain (s : String) : TextParams :=
  { text := s, position := "bottom", size := .null, color := "white", background := .null,
    font := .null, style := .null }

/-- How a request for a line of text is prepared. -/
theorem prepare_textOf {t : String}
    (haccepted : instructionProblems ⟨.string "addText", .object [("text", .string s)], .video⟩ =
      .ok [])
    (ht : sanitize s = t) :
    (textOf s).prepare = .ok ⟨.addText (.plain t), none⟩ := by
  have hcleaned : sanitizeParams .addText [("text", .string s)] = .ok [("text", .string t)] := by
    rw [sanitizeParams_text rfl rfl, ht]
    rfl
  have hplain : TextParams.ofFields [("text", .string t)] = .plain t :=
    congrArg TextParams.plain (text_ofFields_set [] t)
  have hbuilt : Operation.ofFields .addText [("text", .string t)] none =
      .ok ⟨.addText (.plain t), none⟩ := by
    rw [Operation.ofFields_eq, Edit.ofFields, hplain]
    rfl
  have hprepares : Instruction.Prepares ⟨.string "addText", .object [("text", .string s)], .video⟩
      .addText [("text", .string s)] [("text", .string t)] ⟨.addText (.plain t), none⟩ :=
    ⟨Kind.ofValue?_name .addText, rfl, haccepted, hcleaned, hbuilt⟩
  exact hprepares.prepare_eq_ok

/-- A line of text with brackets and blanks around it. -/
theorem text_isClean_heading :
    (textOf " <b>Hi\x07</b> ").prepare = .ok ⟨.addText (.plain "bHi/b"), none⟩ ∧
      (IsClean (TextParams.plain "bHi/b").text ↔
        (textOf " <b>Hi\x07</b> ").TextOutlastsCleaning) := by
  have hprepare : (textOf " <b>Hi\x07</b> ").prepare = .ok ⟨.addText (.plain "bHi/b"), none⟩ :=
    prepare_textOf (by decide +kernel) (by decide +kernel)
  exact ⟨hprepare, Request.text_isClean_iff hprepare (.inl rfl)⟩

/-- **A text of brackets** is accepted, and nothing is left of it. -/
theorem not_isClean_brackets :
    ∃ o p, (textOf "<>").prepare = .ok o ∧ o.edit = .addText p ∧ ¬IsClean p.text := by
  have hprepare : (textOf "<>").prepare = .ok ⟨.addText (.plain ""), none⟩ :=
    prepare_textOf (by decide +kernel) (by decide +kernel)
  have hblank : ("" : String).isBlank ≠ false := by decide
  exact ⟨_, _, hprepare, rfl, fun hclean => hblank hclean.shown⟩

end Montage
