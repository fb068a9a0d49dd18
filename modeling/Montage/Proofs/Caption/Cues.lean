import Montage.Proofs.Edit.Checked
import Montage.Proofs.Text.Cleaning

/-!
# The captions of an accepted request

The captions of a request are looked for three times: to check them, to clean their texts, and to
build them. The check and the cleaning take what is under the key `captions`, if that is there at
all; what is built are the first captions that are present under `captions` or `segments`. So the
captions under `segments` are built as they are given if `captions` is there without a value. In all
other requests the captions that are built were checked and cleaned.

## Main definitions

* `Cue.IsProper`: a caption as the check and the cleaning should leave it.
* `Fields.givenCues`, `Fields.hidesCues`: the captions of a request, and whether they are hidden
  from the check.
* `Request.CaptionsFit`: what a request has to see to by itself.

## Main statements

* `Instruction.Prepares.exists_givenCues`: the captions that are built of the given ones.
* `Request.cues_isProper_iff`: when all captions of an accepted request are proper.
-/
namespace Montage

/-- The caption starts at zero or later, ends after its start, and its text is short and free of
brackets and controls. -/
structure Cue.IsProper (c : Cue) : Prop where
  start : 0 ≤ c.start
  order : c.start < c.finish
  length : c.text.length ≤ maxTextLength
  kept : ∀ d ∈ c.text.toList, d ≠ '<' ∧ d ≠ '>' ∧ isDroppedControl d = false

/-- The caption with its text cleaned. -/
def Cue.cleaned (c : Cue) : Cue := { c with text := sanitize c.text }

namespace Fields

/-- The captions that are asked for, as they are given. -/
def givenCues (fs : Fields) : Except Fault (List Cue) :=
  CaptionParams.cuesOf (fs.value ["captions", "segments"])

/-- The key `captions` is there without a value, so that the check does not look any further. -/
def hidesCues (fs : Fields) : Bool := fs.has "captions" && !(fs.get "captions").isPresent

end Fields

/-- The captions of the request are in order after their times are rounded, and those that are
hidden from the check are proper by themselves. -/
def Request.CaptionsFit (r : Request) : Prop :=
  ∀ (i : Instruction) (fs : Fields) (cues : List Cue), r.instruction = .ok i →
    i.params = .object fs → fs.givenCues = .ok cues →
      ∀ c ∈ cues, if fs.hidesCues then c.IsProper else c.start < c.finish

variable {fs gs : Fields} {i : Instruction} {k : Kind} {o : Operation} {p : CaptionParams}
  {v w : Value} {vs ws : List Value} {c : Cue} {s : String}

/-! ## Captions one by one -/

/-- **A cleaned caption** is built as the caption with its text cleaned. -/
theorem ofValue_sanitizeCue (h : sanitizeCue v = .ok w) :
    Cue.ofValue w = (Cue.ofValue v).map Cue.cleaned := by
  cases v with
  | object cue =>
      obtain rfl := Except.ok.inj h
      have htimes : ∀ keys, "text" ∉ keys → ∀ t x,
          Fields.real (Fields.set cue "text" t) keys x = Fields.real cue keys x := by
        intro keys hkeys t x
        rw [Fields.real, Fields.real, Fields.first?_set_of_not_mem hkeys]
      simp only [Cue.ofValue, Value.fields, bind, Except.bind, Cue.ofFields]
      rw [htimes _ (by decide), htimes _ (by decide), Fields.get?_set_self]
      cases Fields.real cue ["start", "startTime"] 0 with
      | error f => rfl
      | ok x => cases Fields.real cue ["end", "endTime"] 0 <;> rfl
  | _ => cases h

theorem mapM_ofValue_of_sanitizeCues (h : vs.mapM sanitizeCue = .ok ws) :
    ws.mapM Cue.ofValue = (vs.mapM Cue.ofValue).map (List.map Cue.cleaned) := by
  rw [← Outcome.mapM_map]
  induction vs generalizing ws with
  | nil =>
      obtain rfl : [] = ws := Except.ok.inj h
      rfl
  | cons v vs ih =>
      rw [List.mapM_cons] at h
      obtain ⟨w, hw, h⟩ := Outcome.bind_eq_ok.mp h
      obtain ⟨rest, hrest, h⟩ := Outcome.bind_eq_ok.mp h
      obtain rfl : w :: rest = ws := Except.ok.inj h
      rw [List.mapM_cons, List.mapM_cons, ofValue_sanitizeCue hw, ih hrest]

theorem cuesOf_list (vs : List Value) : CaptionParams.cuesOf (.list vs) = vs.mapM Cue.ofValue := by
  cases vs <;> rfl

/-- A time is the number that was checked, rounded. -/
theorem eq_toReal_of_either {key other : String} {n : Number} {x y : Binary64}
    (hn : fs.either key other .null = .number n) (hx : fs.real [key, other] y = .ok x) :
    x = n.toReal := by
  have hfirst : fs.first? [key, other] = some (.number n) := by
    rw [Fields.either] at hn
    cases hkey : fs.get? key with
    | some v =>
        rw [hkey, Option.getD_some] at hn
        exact Fields.first?_cons_of_present (hn ▸ hkey) rfl
    | none =>
        rw [hkey, Option.getD_none] at hn
        rw [Fields.first?_cons_of_none hkey]
        exact Fields.first?_cons_of_present (Fields.get?_of_get hn rfl) rfl
  rw [Fields.real, hfirst] at hx
  simp only [Value.toReal, Number.toReal?] at hx
  split_ifs at hx
  exact (Except.ok.inj hx).symm

/-- **A checked caption** is proper after it is cleaned, if its times are in order still. -/
theorem isProper_cleaned_iff {n : Nat} (hv : cueProblems n v = [])
    (hc : Cue.ofValue v = .ok c) : c.cleaned.IsProper ↔ c.start < c.finish := by
  obtain ⟨cue, rfl⟩ := exists_object_of_cueProblems hv
  obtain ⟨-, htimes⟩ := List.append_eq_nil_iff.mp hv
  obtain ⟨start, hstart, hc⟩ : ∃ start, Fields.real cue ["start", "startTime"] 0 = .ok start ∧
      _ := Outcome.bind_eq_ok.mp hc
  obtain ⟨finish, -, hc⟩ := Outcome.bind_eq_ok.mp hc
  obtain rfl := Except.ok.inj hc
  refine ⟨fun h => h.order, fun horder => ⟨?_, horder, length_sanitize_le _, ?_⟩⟩
  · split at htimes
    · next x y hx hy =>
      obtain rfl := eq_toReal_of_either hx hstart
      have hordered : x.IsOrdered := by
        by_contra hx'
        exact (Binary64.ne_nan_of_lt horder).1 (Number.toReal_of_not_isOrdered hx')
      have hlow : ¬x < 0 := by
        intro hx'
        rw [if_pos (Or.inl hx')] at htimes
        cases htimes
      exact Number.zero_le_toReal hordered
        ((Number.not_lt_iff hordered (Number.isOrdered_int 0)).mp hlow)
    · cases htimes
  · intro d hd
    exact isKept_iff.mp (isKept_of_mem_sanitize hd)

/-! ## Lists of captions -/

namespace Fields

/-- The key under which captions are checked and cleaned. -/
def cueKey (fs : Fields) : String := if fs.has "captions" then "captions" else "segments"

theorem either_captions : fs.either "captions" "segments" .null = fs.get fs.cueKey := by
  rw [either, cueKey, has]
  cases hget : fs.get? "captions" <;> simp [get, hget]

/-- Captions that are not hidden are built from what is under their key. -/
theorem first?_captions (h : fs.hidesCues = false) :
    fs.first? ["captions", "segments"] = fs.first? [fs.cueKey] := by
  rw [cueKey, has]
  cases hget : fs.get? "captions" with
  | none => exact first?_cons_of_none hget
  | some v =>
      have hpresent : v.isPresent = true := by
        simpa [hidesCues, has, get, hget] using h
      rw [first?_cons_of_present hget hpresent]
      exact (first?_cons_of_present hget hpresent).symm

theorem first?_set_cueKey (hv : v.isPresent = true) :
    (fs.set fs.cueKey v).first? ["captions", "segments"] = some v := by
  rw [cueKey, has]
  cases hget : fs.get? "captions" with
  | some w => exact first?_cons_of_present get?_set_self hv
  | none =>
      have hnone : (fs.set "segments" v).get? "captions" = none :=
        (get?_set_of_ne (by decide)).trans hget
      exact (first?_cons_of_none hnone).trans (first?_cons_of_present get?_set_self hv)

end Fields

theorem sanitizeParams_captions (fs : Fields) :
    sanitizeParams .addCaptions fs =
      match fs.get fs.cueKey with
      | .list cues => do return fs.set fs.cueKey (.list (← cues.mapM sanitizeCue))
      | _ => .ok fs := rfl

/-- The captions of accepted parameters are in a list. -/
theorem exists_list_of_first? (h : fieldProblems .addCaptions fs = .ok [])
    (hv : fs.first? ["captions", "segments"] = some v) : ∃ vs, v = .list vs := by
  obtain ⟨key, hproblems⟩ := FieldSpec.exists_valueProblems h (.tail _ (.head _)) hv
  cases v with
  | list vs => exact ⟨vs, rfl⟩
  | _ => cases hproblems

theorem exists_cueProblems_of_mem {n : Nat} (h : cuesProblems n vs = []) (hv : v ∈ vs) :
    ∃ m, cueProblems m v = [] := by
  induction vs generalizing n with
  | nil => exact absurd hv List.not_mem_nil
  | cons w vs ih =>
      obtain ⟨hw, hvs⟩ := List.append_eq_nil_iff.mp h
      rcases List.mem_cons.mp hv with rfl | hv
      · exact ⟨n, hw⟩
      · exact ih hvs hv

/-- Captions that are hidden are built as they are given. -/
theorem eq_of_hidesCues (hhides : fs.hidesCues = true)
    (hgs : sanitizeParams .addCaptions fs = .ok gs) : gs = fs := by
  rw [Fields.hidesCues, Bool.and_eq_true, Bool.not_eq_true'] at hhides
  rw [sanitizeParams_captions, Fields.cueKey, if_pos hhides.1] at hgs
  split at hgs
  · next cues hlist =>
    rw [hlist] at hhides
    cases hhides.2
  · exact (Except.ok.inj hgs).symm

/-- What is present first is under the key that the cleaning takes. -/
theorem Fields.get_cueKey (hshown : fs.hidesCues = false)
    (hfirst : fs.first? ["captions", "segments"] = some v) : fs.get fs.cueKey = v := by
  have hkey := Fields.first?_captions hshown
  rw [hfirst, Fields.first?_cons] at hkey
  split_ifs at hkey
  · exact (Option.some.inj hkey).symm
  · cases hkey

/-- Where nothing is present, nothing is under that key. -/
theorem Fields.isPresent_cueKey (hshown : fs.hidesCues = false)
    (hfirst : fs.first? ["captions", "segments"] = none) :
    (fs.get fs.cueKey).isPresent = false := by
  have hkey := Fields.first?_captions hshown
  rw [hfirst, Fields.first?_cons] at hkey
  by_contra hpresent
  rw [if_pos (Bool.eq_true_of_not_eq_false hpresent)] at hkey
  cases hkey

/-- **Captions that are not hidden** are checked, cleaned and built from one list. -/
theorem exists_givenCues_of_shown {cues : List Cue} (h : fieldProblems .addCaptions fs = .ok [])
    (hshown : fs.hidesCues = false) (hgs : sanitizeParams .addCaptions fs = .ok gs)
    (hcues : gs.givenCues = .ok cues) :
    ∃ vs given, cuesProblems 0 vs = [] ∧ vs.mapM Cue.ofValue = .ok given ∧
      fs.givenCues = .ok given ∧ cues = given.map Cue.cleaned := by
  rw [sanitizeParams_captions] at hgs
  rw [Fields.givenCues, Fields.value] at hcues ⊢
  cases hfirst : fs.first? ["captions", "segments"] with
  | none =>
      -- No list is under the key, so that there is nothing to clean.
      have habsent := Fields.isPresent_cueKey hshown hfirst
      obtain rfl : fs = gs := by
        split at hgs
        · next vs hlist =>
          rw [hlist] at habsent
          cases habsent
        · exact Except.ok.inj hgs
      rw [hfirst] at hcues
      obtain rfl : [] = cues := Except.ok.inj hcues
      exact ⟨[], [], rfl, rfl, rfl, rfl⟩
  | some v =>
      obtain ⟨vs, rfl⟩ := exists_list_of_first? h hfirst
      have hlist := Fields.get_cueKey hshown hfirst
      rw [hlist] at hgs
      obtain ⟨ws, hws, hgs⟩ := Outcome.bind_eq_ok.mp hgs
      obtain rfl := Except.ok.inj hgs
      rw [Fields.first?_set_cueKey rfl, Option.getD_some, cuesOf_list,
        mapM_ofValue_of_sanitizeCues hws] at hcues
      obtain ⟨given, hgiven, rfl⟩ := Outcome.map_eq_ok.mp hcues
      refine ⟨vs, given, ?_, hgiven, ?_, rfl⟩
      · exact cuesProblems_of_captions h (Fields.either_captions.trans hlist)
      · rw [Option.getD_some, cuesOf_list, hgiven]

/-! ## Requests for captions -/

namespace Instruction.Prepares

variable (h : i.Prepares k fs gs o) (hedit : o.edit = .addCaptions p)

include h hedit

/-- The captions of an operation are those of the cleaned parameters. -/
theorem givenCues_eq : k = .addCaptions ∧ gs.givenCues = .ok p.cues := by
  have hkind : k = .addCaptions := by
    rw [← h.kind_eq, Operation.kind, hedit]
    rfl
  subst hkind
  have hbuilt := Operation.edit_of_ofFields h.built
  rw [hedit] at hbuilt
  obtain ⟨q, hq, heq⟩ := Outcome.map_eq_ok.mp hbuilt
  obtain rfl := Edit.addCaptions.inj heq
  obtain ⟨cues, hcues, hq⟩ := Outcome.bind_eq_ok.mp hq
  obtain rfl := Except.ok.inj hq
  exact ⟨rfl, hcues⟩

/-- The captions of an operation are built of the given ones, and they are proper just if the given
ones are, as far as these are left to themselves. -/
theorem exists_givenCues : ∃ cues, fs.givenCues = .ok cues ∧ ((∀ c ∈ p.cues, c.IsProper) ↔
    ∀ c ∈ cues, if fs.hidesCues then c.IsProper else c.start < c.finish) := by
  obtain ⟨rfl, hcues⟩ := h.givenCues_eq hedit
  have haccepted := fieldProblems_of_accepted h.kind h.params h.accepted
  cases hhides : fs.hidesCues with
  | true =>
      obtain rfl := eq_of_hidesCues hhides h.cleaned
      refine ⟨p.cues, hcues, ?_⟩
      simp only [if_true]
  | false =>
      obtain ⟨vs, given, hchecked, hgiven, hfs, heq⟩ :=
        exists_givenCues_of_shown haccepted hhides h.cleaned hcues
      have hproper : ∀ c ∈ given, c.cleaned.IsProper ↔ c.start < c.finish := by
        intro c hc
        obtain ⟨v, hv, hvc⟩ := (Outcome.mem_of_mapM hgiven).1 c hc
        obtain ⟨n, hn⟩ := exists_cueProblems_of_mem hchecked hv
        exact isProper_cleaned_iff hn hvc
      refine ⟨given, hfs, ?_⟩
      simp only [heq, List.forall_mem_map, Bool.false_eq_true, if_false]
      exact forall₂_congr hproper

end Instruction.Prepares

/-- **The captions of an accepted request** are all proper just if the request sees to the order of
their rounded times, and to all of it where it hides them. -/
theorem Request.cues_isProper_iff {r : Request} (hprepare : r.prepare = .ok o)
    (hedit : o.edit = .addCaptions p) : (∀ c ∈ p.cues, c.IsProper) ↔ r.CaptionsFit := by
  obtain ⟨i, hi, hio⟩ := Outcome.bind_eq_ok.mp hprepare
  obtain ⟨k, fs, gs, h⟩ := Instruction.exists_of_prepare hio
  obtain ⟨cues, hcues, hproper⟩ := h.exists_givenCues hedit
  rw [hproper, CaptionsFit]
  constructor
  · intro hall i' fs' cues' hi' hparams' hcues'
    obtain rfl := Except.ok.inj (hi.symm.trans hi')
    obtain rfl := Value.object.inj (h.params.symm.trans hparams')
    obtain rfl := Except.ok.inj (hcues.symm.trans hcues')
    exact hall
  · intro hfit
    exact hfit i fs cues hi h.params hcues

/-! ## Captions under the second key -/

/-- Fields for one caption under the key `segments`, after other fields. -/
def segmentFields (fs : Fields) (text : String) (start finish : Int) : Fields :=
  fs ++ [("segments", .list [.object
    [("text", .string text), ("start", .int start), ("end", .int finish)]])]

/-- A request for captions. -/
def captionsOf (fs : Fields) : Request :=
  .untyped (.object [("operation", .string "addCaptions"), ("params", .object fs)])

/-- Captions with nothing said of their look. -/
def CaptionParams.plain (cues : List Cue) : CaptionParams :=
  { file := .null, cues, color := .null, size := .null, position := .null, style := .null,
    background := .null }

/-- How a request for captions without a window is prepared. -/
theorem prepare_captionsOf
    (haccepted : instructionProblems ⟨.string "addCaptions", .object fs, .video⟩ = .ok [])
    (hgs : sanitizeParams .addCaptions fs = .ok gs) (hp : CaptionParams.ofFields gs = .ok p)
    (hwindow : Operation.windowOf .addCaptions gs none = .ok none) :
    (captionsOf fs).prepare = .ok ⟨.addCaptions p, none⟩ := by
  have hbuilt : Operation.ofFields .addCaptions gs none = .ok ⟨.addCaptions p, none⟩ := by
    rw [Operation.ofFields_eq, Edit.ofFields, hp, hwindow]
    rfl
  have hprepares : Instruction.Prepares ⟨.string "addCaptions", .object fs, .video⟩ .addCaptions
      fs gs ⟨.addCaptions p, none⟩ :=
    ⟨Kind.ofValue?_name .addCaptions, rfl, haccepted, hgs, hbuilt⟩
  exact hprepares.prepare_eq_ok

/-- The parameters of one caption under the key `segments`, alone or after an empty key
`captions`. -/
theorem ofFields_segmentFields {start finish : Int} (hfs : fs = [] ∨ fs = [("captions", .null)])
    (hcues : (segmentFields fs s start finish).givenCues = .ok [c]) :
    CaptionParams.ofFields (segmentFields fs s start finish) = .ok (.plain [c]) := by
  rw [Fields.givenCues] at hcues
  rw [CaptionParams.ofFields, hcues]
  rcases hfs with rfl | rfl <;> rfl

/-- A caption under the second key, when there is nothing under the first. -/
theorem cues_isProper_segments :
    (captionsOf (segmentFields [] "<i>Hi</i>" 0 1)).prepare =
        .ok ⟨.addCaptions (.plain [⟨"iHi/i", 0, .nearest 1⟩]), none⟩ ∧
      ((∀ c ∈ (CaptionParams.plain [⟨"iHi/i", 0, .nearest 1⟩]).cues, c.IsProper) ↔
        (captionsOf (segmentFields [] "<i>Hi</i>" 0 1)).CaptionsFit) := by
  have hclean : sanitize "<i>Hi</i>" = "iHi/i" := by decide +kernel
  have hgs : sanitizeParams .addCaptions (segmentFields [] "<i>Hi</i>" 0 1) =
      .ok (segmentFields [] "iHi/i" 0 1) := by
    rw [← hclean]
    rfl
  have hprepare : (captionsOf (segmentFields [] "<i>Hi</i>" 0 1)).prepare =
      .ok ⟨.addCaptions (.plain [⟨"iHi/i", 0, .nearest 1⟩]), none⟩ :=
    prepare_captionsOf (by decide +kernel) hgs
      (ofFields_segmentFields (.inl rfl) (by decide +kernel)) rfl
  exact ⟨hprepare, Request.cues_isProper_iff hprepare rfl⟩

/-- **A caption that is hidden from the check** by an empty first key ends before it starts. -/
theorem not_isProper_hidden_segments :
    ∃ o p, (captionsOf (segmentFields [("captions", .null)] "<b>Hi</b>" 5 1)).prepare = .ok o ∧
      o.edit = .addCaptions p ∧ ∃ c ∈ p.cues, ¬c.IsProper := by
  have hprepare : (captionsOf (segmentFields [("captions", .null)] "<b>Hi</b>" 5 1)).prepare =
      .ok ⟨.addCaptions (.plain [⟨"<b>Hi</b>", .nearest 5, .nearest 1⟩]), none⟩ :=
    prepare_captionsOf (by decide +kernel) rfl
      (ofFields_segmentFields (.inr rfl) (by decide +kernel)) rfl
  have horder : ¬(Binary64.nearest 5 < .nearest 1) := by decide +kernel
  exact ⟨_, _, hprepare, rfl, _, .head _, fun hproper => horder hproper.order⟩

end Montage
