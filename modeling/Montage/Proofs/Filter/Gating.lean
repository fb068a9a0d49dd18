import Mathlib.Tactic
import Montage.Filter.Compile
import Montage.Proofs.Look.Table
import Montage.Proofs.Number.Order
import Montage.Proofs.Session

/-!
# Gates

The filters of an edit are compiled without any gate. A window of time is added afterwards, in one
place: as an option of the only stage, or on the overlay that lays a longer chain over the untouched
picture. No stage has an option of the name under which a gate is written, so it stands there once.

## Main definitions

* `Stage.IsUngated`: a stage without a gate, and without an option that could be taken for one.
* `Expression.IsUngated`: the filters of an edit before a window is added.
* `Expression.Limited`: what a window does to the filters of an edit.
* `Expression.IsLimitedOnce`: the filters are limited to a window in one place.

## Main statements

* `Studio.returns_compileEdit`: the filters of an edit have no gate.
* `Studio.returns_compileOperation`: the filters of an operation are those of its edit, limited to
  its window.
* `Studio.isLimitedOnce_of_compileOperation`: a gate is written once, and for the whole look.
-/
namespace Montage

/-- The stage has no gate, and no option of the name of a gate. -/
structure Stage.IsUngated (s : Stage) : Prop where
  gate_eq : s.gate = none
  key_notMem : "enable" ∉ s.options.map Prod.fst

/-- The warning about an edit that cannot be limited to a window. -/
def windowWarning (kind : Kind) : String :=
  kind.name ++ " does not support time windows, applying to the whole clip"

/-- The text is a remark on what a request asks for: such remarks begin with the word unknown, or
with the word no. -/
def IsRemark (warning : String) : Prop :=
  warning.toList.head? = some 'U' ∨ warning.toList.head? = some 'N'

/-- All texts are remarks. -/
def AreRemarks (warnings : List String) : Prop := ∀ w ∈ warnings, IsRemark w

/-- The filters of an edit before a window is added: nothing in them is limited to a time, an edit
that can be limited to a window has no filters for the sound, and nothing is said about windows. -/
structure Expression.IsUngated (kind : Kind) (e : Expression) : Prop where
  gate_eq : e.gate = none
  stages : ∀ s ∈ e.video, s.IsUngated
  audio_eq : (specOf kind).windowed = true → e.audio = []
  remarks : AreRemarks e.warnings

/-- What becomes of the filters `e` of an edit that is limited to a window. -/
inductive Expression.Limited (kind : Kind) (w : Window) (e : Expression) : Expression → Prop
  /-- There is a picture to be limited. -/
  | gated (hwindowed : (specOf kind).windowed = true) (hvideo : e.video ≠ []) :
      Limited kind w e { e with gate := some ⟨w.start, w.finish⟩ }
  | empty (hwindowed : (specOf kind).windowed = true) (hvideo : e.video = []) : Limited kind w e e
  | warned (hwindowed : (specOf kind).windowed = false) :
      Limited kind w e (e.warn (windowWarning kind))

open Montage.Action

/-! ## Stages -/

namespace Stage

theorem isUngated_of {name : String} {options : List (String × OptionValue)}
    (h : "enable" ∉ options.map Prod.fst) : (Stage.of name options).IsUngated := ⟨rfl, h⟩

theorem isUngated_ofArgs {name : String} {args : List OptionValue} :
    (Stage.ofArgs name args).IsUngated := ⟨rfl, List.not_mem_nil⟩

end Stage

theorem isUngated_sepiaStage (amount : Binary64) : (sepiaStage amount).IsUngated :=
  Stage.isUngated_of (by simp [channels])

theorem isUngated_tintStage (color : String) (strength : Binary64) :
    (tintStage color strength).IsUngated := by
  rw [tintStage]
  split <;> exact Stage.isUngated_of (by simp)

theorem isUngated_subtitleStage (path : Path) (overrides : Option String) :
    (subtitleStage path overrides).IsUngated := by
  cases overrides <;> exact Stage.isUngated_of (by simp)

theorem isUngated_of_mem_zoomStages {zoom : Binary64} :
    ∀ s ∈ zoomStages zoom, s.IsUngated := by
  rw [zoomStages]
  split_ifs <;> simpa using ⟨Stage.isUngated_of (by simp), Stage.isUngated_of (by simp)⟩

theorem isUngated_of_mem_rotationStages {degrees : Binary64} :
    ∀ s ∈ rotationStages degrees, s.IsUngated := by
  rw [rotationStages]
  split_ifs
  · exact nofun
  · simpa using Stage.isUngated_ofArgs
  · simpa using Stage.isUngated_ofArgs
  · simpa using ⟨Stage.isUngated_of (by simp), Stage.isUngated_of (by simp)⟩
  · simpa using Stage.isUngated_of (by simp)

theorem isUngated_of_mem_trimStages {p : TrimParams} {trim setpts : String} :
    ∀ s ∈ trimStages p trim setpts, s.IsUngated := by
  rw [trimStages]
  split <;> simpa using ⟨Stage.isUngated_of (by simp), Stage.isUngated_ofArgs⟩

/-! ## Looks -/

namespace Grade

theorem enable_notMem_balance (g : Grade) : "enable" ∉ g.balance.map Prod.fst := by
  simp only [balance, List.map_append, List.mem_append, not_or]
  refine ⟨⟨⟨?_, ?_⟩, ?_⟩, ?_⟩ <;> split_ifs <;> simp

theorem isUngated_of_stages {g : Grade} {stages : List Stage} (h : g.stages = .ok stages) :
    ∀ s ∈ stages, s.IsUngated := by
  have hcurve : ∀ s ∈ (if g.curve.isTruthy then
      [Stage.of "curves" [("preset", .literal g.curve)]] else []), s.IsUngated := by
    split_ifs
    · simpa using Stage.isUngated_of (by simp)
    · exact nofun
  have hbalance : ∀ s ∈ (if g.balance.isEmpty then [] else [Stage.of "eq" g.balance]),
      s.IsUngated := by
    split_ifs
    · exact nofun
    · simpa using Stage.isUngated_of g.enable_notMem_balance
  have hgray : ∀ s ∈ (if g.isGrayscale then [Stage.of "hue" [("s", .int 0)]] else []),
      s.IsUngated := by
    split_ifs
    · simpa using Stage.isUngated_of (by simp)
    · exact nofun
  have hsepia : ∀ s ∈ (if g.sepia.isZero then [] else [sepiaStage (fraction g.sepia)]),
      s.IsUngated := by
    split_ifs
    · exact nofun
    · simpa using isUngated_sepiaStage _
  rw [Grade.stages] at h
  split at h
  · rw [← Except.ok.inj h]
    simp only [List.forall_mem_append]
    exact ⟨⟨⟨⟨hcurve, hbalance⟩, hgray⟩, hsepia⟩, nofun⟩
  · rw [← Except.ok.inj h]
    simp only [List.forall_mem_append]
    exact ⟨⟨⟨⟨hcurve, hbalance⟩, hgray⟩, hsepia⟩, by simpa using isUngated_tintStage _ _⟩
  · split at h
    · cases h
    · rw [← Except.ok.inj h]
      simp only [List.forall_mem_append]
      exact ⟨⟨⟨⟨hcurve, hbalance⟩, hgray⟩, hsepia⟩, nofun⟩

end Grade

/-- The options of a stage of an effect keep their names. -/
theorem StageForm.isUngated_of_expand {f : StageForm} {strength : Number} {level : Option Number}
    {s : Stage} (hf : "enable" ∉ f.options.map Prod.fst) (h : f.expand strength level = .ok s) :
    s.IsUngated := by
  obtain ⟨options, hoptions, hs⟩ := Outcome.bind_eq_ok.mp h
  rw [← Except.ok.inj hs]
  refine Stage.isUngated_of fun hkey => hf ?_
  obtain ⟨o, ho, hname⟩ := List.mem_map.mp hkey
  obtain ⟨form, hform, hresolved⟩ := (Outcome.mem_of_mapM hoptions).1 o ho
  obtain ⟨v, -, hv⟩ := Outcome.bind_eq_ok.mp hresolved
  rw [← hname, ← Except.ok.inj hv]
  exact List.mem_map_of_mem hform

namespace Effect

/-- No stage of the effect has an option of the name of a gate. -/
def IsUngated (e : Effect) : Prop := ∀ f ∈ e.stages, "enable" ∉ f.options.map Prod.fst

instance (e : Effect) : Decidable e.IsUngated := inferInstanceAs (Decidable (∀ f ∈ _, _))

theorem isUngated_of_expand {e : Effect} {strength : Number} {level : Option Number}
    {stages : List Stage} (he : e.IsUngated) (h : e.expand strength level = .ok stages) :
    ∀ s ∈ stages, s.IsUngated := by
  intro s hs
  obtain ⟨f, hf, hexpand⟩ := (Outcome.mem_of_mapM h).1 s hs
  exact StageForm.isUngated_of_expand (he f hf) hexpand

end Effect

/-! ## Remarks -/

namespace AreRemarks

theorem captionSize {v : Value} {size : Int} {warnings : List String}
    (h : Montage.captionSize v = .ok (size, warnings)) : AreRemarks warnings := by
  rw [Montage.captionSize] at h
  split at h
  · obtain ⟨n, -, hn⟩ := Outcome.map_eq_ok.mp h
    rw [← (Prod.mk.inj hn).2]
    exact nofun
  · dsimp only at h
    split at h
    · obtain ⟨n, -, hn⟩ := Outcome.map_eq_ok.mp h
      rw [← (Prod.mk.inj hn).2]
      exact nofun
    · split at h
      · rw [← (Prod.mk.inj (Except.ok.inj h)).2]
        exact nofun
      · rw [← (Prod.mk.inj (Except.ok.inj h)).2]
        simp [AreRemarks, IsRemark]

/-- The warnings of a style of captions, part by part. -/
theorem captionStyle {defaults : Fields} {p : CaptionParams} {r : CaptionStyle × List String}
    (h : CaptionStyle.resolve defaults p = .ok r) : AreRemarks r.2 := by
  rw [CaptionStyle.resolve] at h
  extract_lets place name font rest at h
  -- What follows the colour is the same whether the colour is known or not.
  have hrest : ∀ c, rest c = .ok r → AreRemarks c.2 → AreRemarks r.2 := by
    rintro ⟨primary, colorWarnings⟩ h hcolor
    obtain ⟨⟨size, sizeWarnings⟩, hsize, h⟩ := Outcome.bind_eq_ok.mp h
    have hsize : AreRemarks sizeWarnings := captionSize hsize
    dsimp only at h
    split at h
    · obtain ⟨c, hc, h⟩ := Outcome.bind_eq_ok.mp h
      cases c with
      | none =>
          rw [← Except.ok.inj h]
          simp only [AreRemarks, List.forall_mem_append]
          refine ⟨⟨⟨⟨hcolor, hsize⟩, ?_⟩, ?_⟩, by simp [IsRemark]⟩ <;> split <;> simp [IsRemark]
      | some c =>
          rw [← Except.ok.inj h]
          simp only [AreRemarks, List.forall_mem_append]
          refine ⟨⟨⟨⟨hcolor, hsize⟩, ?_⟩, ?_⟩, nofun⟩ <;> split <;> simp [IsRemark]
    · rw [← Except.ok.inj h]
      simp only [AreRemarks, List.forall_mem_append]
      refine ⟨⟨⟨⟨hcolor, hsize⟩, ?_⟩, ?_⟩, nofun⟩ <;> split <;> simp [IsRemark]
  clear_value rest
  obtain ⟨c, hc, h⟩ := Outcome.bind_eq_ok.mp h
  cases c with
  | none => exact hrest _ h (by simp [AreRemarks, IsRemark])
  | some c => exact hrest _ h nofun

theorem textSize {v : Value} {default_ size : Int} {warnings : List String}
    (h : Montage.textSize v default_ = .ok (size, warnings)) : AreRemarks warnings := by
  unfold Montage.textSize at h
  split at h
  · rw [← (Prod.mk.inj (Except.ok.inj h)).2]
    exact nofun
  · obtain ⟨n, -, hn⟩ := Outcome.map_eq_ok.mp h
    rw [← (Prod.mk.inj hn).2]
    exact nofun
  · extract_lets key at h
    split at h
    · obtain ⟨n, -, hn⟩ := Outcome.map_eq_ok.mp h
      rw [← (Prod.mk.inj hn).2]
      exact nofun
    · split at h
      · rw [← (Prod.mk.inj (Except.ok.inj h)).2]
        exact nofun
      · rw [← (Prod.mk.inj (Except.ok.inj h)).2]
        simp [AreRemarks, IsRemark]

theorem textPlace {key shown margin : String} :
    AreRemarks (Montage.textPlace key shown margin).2 := by
  rw [Montage.textPlace]
  split
  split
  · exact nofun
  · simp [AreRemarks, IsRemark]

theorem grade {looks : Looks} {name : Value} : AreRemarks (looks.grade name).notices := by
  intro n hn
  rw [Found.notices_of n hn]
  simp [IsRemark]

theorem effect {name : Value} : AreRemarks (effectNamed name).notices := by
  intro n hn
  rw [Found.notices_of n hn]
  simp [IsRemark]

theorem filter {name : Value} : AreRemarks (filterNamed name).notices := by
  intro n hn
  rw [Found.notices_of n hn]
  simp [IsRemark]

end AreRemarks

/-! ## Edits -/

/-- No built-in effect or filter has an option of the name of a gate. -/
theorem isUngated_of_mem_effects :
    ∀ e ∈ neutralEffect :: (effects ++ filters), e.IsUngated := by decide +kernel

namespace Expression

theorem isUngated_ofVideo {kind : Kind} {stages : List Stage} {warnings : List String}
    (hstages : ∀ s ∈ stages, s.IsUngated) (hwarnings : AreRemarks warnings) :
    IsUngated kind { ofVideo stages with warnings } := ⟨rfl, hstages, fun _ => rfl, hwarnings⟩

end Expression

theorem returns_compileCaptions {s : Settings} {p : CaptionParams} :
    Returns (compileCaptions s p) (Expression.IsUngated .addCaptions) := by
  have hstyle : Returns (captionStyleOf s p) fun r => AreRemarks r.2 :=
    (returns_ofFault fun _ h => AreRemarks.captionStyle h).bind fun _ h => .after fun _ => .pure h
  refine hstyle.bind fun (style, warnings) hwarnings => ?_
  dsimp only
  split_ifs with hfile hcues
  · refine .after fun path => .after fun found => ?_
    cases found with
    | true =>
        exact .pure (Expression.isUngated_ofVideo (by simpa using isUngated_subtitleStage _ _)
          hwarnings)
    | false => exact returns_refuse
  · refine .after fun _ => .pure ⟨rfl, nofun, fun _ => rfl, ?_⟩
    simp only [AreRemarks, List.forall_mem_append]
    exact ⟨hwarnings, by simp [IsRemark]⟩
  · refine .after fun path => .pure ⟨rfl, ?_, fun _ => rfl, hwarnings⟩
    exact List.forall_mem_singleton.mpr (isUngated_subtitleStage _ _)

namespace Studio

variable {s : Studio}

theorem returns_foundLook {α : Type} {found : Found α} :
    Returns (foundLook found) (· = found.look) := .after fun _ => .pure rfl

theorem returns_compileGrade {p : GradeParams} :
    Returns (s.compileGrade p) (Expression.IsUngated .colorGrade) :=
  .after fun _ => .after fun _ =>
    (returns_ofFault fun _ => Grade.isUngated_of_stages).bind fun _ hstages =>
      .after fun _ => .pure (Expression.isUngated_ofVideo hstages .grade)

theorem returns_compileEffect {kind : Kind} {found : Found Effect} {strength : Binary64}
    {level : Option Binary64} (hlook : found.look ∈ neutralEffect :: (effects ++ filters))
    (hnotices : AreRemarks found.notices) :
    Returns (compileEffect found strength level) (Expression.IsUngated kind) := by
  refine returns_foundLook.bind ?_
  rintro _ rfl
  refine (returns_ofFault fun _ h => ?_).bind fun _ hstages =>
    .pure (Expression.isUngated_ofVideo hstages hnotices)
  exact Effect.isUngated_of_expand (isUngated_of_mem_effects _ hlook) h

theorem enable_notMem_fontOptions {font : Value} :
    Returns (s.fontOptions font) fun options => "enable" ∉ options.map Prod.fst := by
  refine .after fun _ => .after fun path => ?_
  cases path with
  | none =>
      refine .pure ?_
      split_ifs <;> simp
  | some path => exact .pure (by simp)

theorem enable_notMem_backgroundOptions {background : Value} :
    Returns (s.backgroundOptions background) fun options =>
      "enable" ∉ options.map Prod.fst := by
  unfold backgroundOptions
  split_ifs
  · exact .after fun _ => .pure (by simp)
  · exact .pure (by simp)

theorem returns_compileText {kind : Kind} {p : TextParams} :
    Returns (s.compileText p) (Expression.IsUngated kind) := by
  refine .after fun _ => ?_
  refine (returns_ofFault fun _ h => AreRemarks.textSize h).bind fun (size, warnings) hsize => ?_
  refine .after fun _ => .after fun _ => .after fun _ => ?_
  refine enable_notMem_fontOptions.bind fun font hfont => .after fun _ => ?_
  refine enable_notMem_backgroundOptions.bind fun background hbackground => .after fun bold => ?_
  refine .pure (Expression.isUngated_ofVideo (List.forall_mem_singleton.mpr ?_) ?_)
  · refine Stage.isUngated_of ?_
    cases bold <;> simp [hfont, hbackground]
  · simp only [AreRemarks, List.forall_mem_append]
    exact ⟨hsize, AreRemarks.textPlace⟩

theorem returns_compileIntensity {p : IntensityParams} :
    Returns (compileIntensity p) (Expression.IsUngated .adjustIntensity) := by
  unfold compileIntensity
  dsimp only
  split
  · next effect heffect =>
    split_ifs at heffect
    have hmem : effect ∈ neutralEffect :: (effects ++ filters) :=
      List.mem_cons_of_mem _ (List.mem_append_left _ (mem_effects_of_effect? heffect))
    refine (returns_ofFault fun _ h => ?_).bind fun _ hstages =>
      .pure (Expression.isUngated_ofVideo hstages nofun)
    exact Effect.isUngated_of_expand (isUngated_of_mem_effects _ hmem) h
  · refine .pure (Expression.isUngated_ofVideo (List.forall_mem_singleton.mpr ?_) nofun)
    exact Stage.isUngated_of (by simp)

/-- **The filters of an edit** have no gate, whatever the edit. -/
theorem returns_compileEdit (edit : Edit) :
    Returns (s.compileEdit edit) (Expression.IsUngated edit.kind) := by
  cases edit with
  | trim p => exact .pure ⟨rfl, isUngated_of_mem_trimStages, nofun, nofun⟩
  | removeClip p => exact returns_refuse
  | colorGrade p => exact returns_compileGrade
  | applyEffect p =>
      refine returns_compileEffect ?_ .effect
      exact List.cons_subset_cons _ (List.subset_append_left _ _) (effectNamed_mem _)
  | addText p => exact returns_compileText
  | customText p => exact returns_compileText
  | filter p =>
      refine returns_compileEffect ?_ .filter
      exact List.cons_subset_cons _ (List.subset_append_right _ _) (filterNamed_mem _)
  | addCaptions p => exact returns_compileCaptions
  | adjustIntensity p => exact returns_compileIntensity
  | adjustZoom p =>
      refine .pure ?_
      rw [compileZoom]
      split_ifs
      · exact ⟨rfl, nofun, fun _ => rfl, nofun⟩
      · exact Expression.isUngated_ofVideo isUngated_of_mem_zoomStages nofun
  | adjustSpeed p =>
      refine returns_ofEdit fun e he => ?_
      rw [SpeedParams.expression] at he
      split_ifs at he
      · rw [← Except.ok.inj he]
        exact ⟨rfl, nofun, nofun, nofun⟩
      · rw [← Except.ok.inj he]
        refine ⟨rfl, List.forall_mem_singleton.mpr Stage.isUngated_ofArgs, nofun, nofun⟩
  | rotate p =>
      exact .pure (Expression.isUngated_ofVideo isUngated_of_mem_rotationStages nofun)
  | crop p =>
      refine (returns_ofFault fun stage h => ?_).bind fun _ hstage =>
        .pure (Expression.isUngated_ofVideo (List.forall_mem_singleton.mpr hstage) nofun)
      rw [CropParams.stage] at h
      obtain ⟨w, -, h⟩ := Outcome.bind_eq_ok.mp h
      obtain ⟨height, -, h⟩ := Outcome.bind_eq_ok.mp h
      obtain ⟨x, -, h⟩ := Outcome.bind_eq_ok.mp h
      obtain ⟨y, -, h⟩ := Outcome.bind_eq_ok.mp h
      rw [← Except.ok.inj h]
      exact Stage.isUngated_of (by simp)

/-! ## Windows -/

theorem returns_applyWindow {kind : Kind} {w : Window} {e : Expression} :
    Returns (applyWindow kind w e) (Expression.Limited kind w e) := by
  unfold applyWindow
  split_ifs with hwindowed hvideo
  · exact .pure (.empty hwindowed (List.isEmpty_iff.mp hvideo))
  · refine (returns_ofFault fun gate h => ?_).bind (P := (· = ⟨w.start, w.finish⟩)) ?_
    · rw [Gate.checked] at h
      obtain ⟨start, -, h⟩ := Outcome.bind_eq_ok.mp h
      split at h
      · obtain ⟨finish, -, h⟩ := Outcome.bind_eq_ok.mp h
        exact (Except.ok.inj h).symm
      · exact (Except.ok.inj h).symm
    · rintro _ rfl
      exact .pure (.gated hwindowed (by simpa using hvideo))
  · exact .after fun _ => .pure (.warned (by simpa using hwindowed))

/-- **The filters of an operation** are those of its edit, limited to its window if it has one. -/
theorem returns_compileOperation (o : Operation) :
    Returns (s.compileOperation o) fun e => ∃ e₀, Expression.IsUngated o.kind e₀ ∧
      match o.window with
      | some w => Expression.Limited o.kind w e₀ e
      | none => e = e₀ := by
  refine (returns_compileEdit o.edit).bind fun e₀ he₀ => ?_
  cases o.window with
  | none => exact .pure ⟨e₀, he₀, rfl⟩
  | some w => exact returns_applyWindow.mono fun e he => ⟨e₀, he₀, he⟩

end Studio

/-! ## How a gate is written -/

theorem Gate.limit?_of_valid {w : Window} (hvalid : Window.of w.start w.finish = .ok w)
    (hstart : w.start.IsOrdered) (hfinish : ∀ t ∈ w.finish, t.IsOrdered) :
    (⟨w.start, w.finish⟩ : Gate).limit? = w.finish := by
  obtain ⟨start, finish⟩ := w
  cases finish with
  | none => rfl
  | some t =>
      have hlt : start < t := by
        rw [← Number.not_le_iff (hfinish t rfl) hstart]
        intro hle
        rw [Window.of] at hvalid
        split_ifs at hvalid
      simp [limit?, hlt]

namespace Stage

theorem parts_gated {st : Stage} (h : st.gate = none) (g : Gate) :
    ({ st with gate := some g } : Stage).parts = st.parts ++ [g.text] := by
  simp [parts, h]

theorem parts_isEmpty {st : Stage} (h : st.gate = none) :
    st.parts.isEmpty = (st.args.isEmpty && st.options.isEmpty) := by
  rw [Bool.eq_iff_iff]
  simp [parts, h]

/-- A gate is written after everything else. -/
theorem text_gated {st : Stage} (h : st.gate = none) (g : Gate) :
    ({ st with gate := some g } : Stage).text =
      st.text ++ (if st.args.isEmpty && st.options.isEmpty then "=" else ":") ++ g.text := by
  have hparts : (st.parts ++ [g.text]).isEmpty = false := by simp
  rw [text, text, parts_gated h, hparts, parts_isEmpty h]
  by_cases hempty : (st.args.isEmpty && st.options.isEmpty) = true
  · have hnil : st.parts = [] := List.isEmpty_iff.mp ((parts_isEmpty h).trans hempty)
    simp [hempty, hnil]
  · have hne : st.parts ≠ [] := by rwa [← parts_isEmpty h, List.isEmpty_iff] at hempty
    simp [hempty, String.intercalate_append_of_ne_nil hne, String.append_assoc]

end Stage

namespace Expression

/-- A longer chain with a gate runs beside the untouched picture. -/
theorem videoFilter?_gated {e : Expression} {g : Gate} (hgate : e.gate = some g)
    (hvideo : 2 ≤ e.video.length) :
    e.videoFilter? = some ("split=2[vbase][vfx];[vfx]" ++ chainText e.video ++
      "[vfxout];[vbase][vfxout]overlay=" ++ g.text) := by
  obtain ⟨video, audio, gate, warnings, scratch⟩ := e
  obtain rfl : gate = some g := hgate
  match video, hvideo with
  | first :: second :: rest, _ => rfl

end Expression

/-- The condition on the time that a window stands for: both bounds where the window ends, the first
one alone where it does not. -/
def Window.predicate (w : Window) : String :=
  match w.finish with
  | some t => "between(t," ++ realText w.start.toReal ++ "," ++ realText t.toReal ++ ")"
  | none => "gte(t," ++ realText w.start.toReal ++ ")"

/-- The option that limits a filter to the window. -/
def Window.option (w : Window) : String := "enable='" ++ w.predicate ++ "'"

theorem Gate.text_of_valid {w : Window} (hvalid : Window.of w.start w.finish = .ok w)
    (hstart : w.start.IsOrdered) (hfinish : ∀ t ∈ w.finish, t.IsOrdered) :
    (⟨w.start, w.finish⟩ : Gate).text = w.option := by
  have hlimit := limit?_of_valid hvalid hstart hfinish
  obtain ⟨start, finish⟩ := w
  dsimp only at hlimit
  cases finish <;> simp [text, predicate, hlimit, Window.option, Window.predicate]

/-- The filters are limited to the window in one place, and nothing else in them is limited. -/
structure Expression.IsLimitedOnce (w : Window) (e : Expression) : Prop where
  audio_eq : e.audio = []
  video_ne_nil : e.video ≠ []
  stages : ∀ st ∈ e.video, st.IsUngated
  /-- The only stage has one option more. -/
  single : ∀ st, e.video = [st] → e.videoFilter? = some (st.text ++
    (if st.args.isEmpty && st.options.isEmpty then "=" else ":") ++ w.option)
  /-- A longer chain is laid over the untouched picture. -/
  chain : 2 ≤ e.video.length → e.videoFilter? = some ("split=2[vbase][vfx];[vfx]" ++
    chainText e.video ++ "[vfxout];[vbase][vfxout]overlay=" ++ w.option)

/-- **A gate is written once, and for the whole look**, whatever the edit and the settings. -/
theorem Studio.isLimitedOnce_of_compileOperation {s : Studio} {o : Operation} {w : Window}
    {σ σ' : Session} {e : Expression} (hwindow : o.window = some w)
    (hvalid : Window.of w.start w.finish = .ok w) (hstart : w.start.IsOrdered)
    (hfinish : ∀ t ∈ w.finish, t.IsOrdered)
    (h : (s.compileOperation o).exec σ = (.ok e, σ')) (hgate : e.gate.isSome = true) :
    e.IsLimitedOnce w := by
  obtain ⟨e₀, he₀, hlimited⟩ := returns_compileOperation o σ e (congrArg Prod.fst h)
  simp only [hwindow] at hlimited
  have htext := Gate.text_of_valid hvalid hstart hfinish
  cases hlimited with
  | empty hwindowed hvideo => simp [he₀.gate_eq] at hgate
  | warned hwindowed => simp [Expression.warn, he₀.gate_eq] at hgate
  | gated hwindowed hvideo =>
      refine ⟨he₀.audio_eq hwindowed, hvideo, he₀.stages, ?_, ?_⟩
      · intro st (hst : e₀.video = [st])
        have hungated : st.IsUngated := he₀.stages st (hst ▸ List.mem_singleton_self st)
        rw [← htext, ← Stage.text_gated hungated.gate_eq]
        simp only [Expression.videoFilter?, hst]
      · intro hlength
        rw [Expression.videoFilter?_gated rfl hlength, htext]

theorem isLimitedOnce_intensity :
    let s : Studio := ⟨.default, .builtIn⟩
    let w : Window := ⟨.int 1, some (.int 4)⟩
    let o : Operation := ⟨.adjustIntensity ⟨some (.nearest (3 / 2)), .null, .null⟩, some w⟩
    let σ : Session := .of default [] []
    let e : Expression := { Expression.ofVideo [.of "eq" [("gamma", .real (.nearest (3 / 2)))]] with
      gate := some ⟨w.start, w.finish⟩ }
    Window.of w.start w.finish = .ok w ∧ w.start.IsOrdered ∧ (∀ t ∈ w.finish, t.IsOrdered) ∧
      (s.compileOperation o).exec σ = (.ok e, σ) ∧ e.gate.isSome = true ∧ e.IsLimitedOnce w ∧
      e.videoFilter? = some "eq=gamma=1.5:enable='between(t,1,4)'" := by
  intro s w o σ e
  have hvalid : Window.of w.start w.finish = .ok w := by decide +kernel
  have hstart : w.start.IsOrdered := by decide
  have hfinish : ∀ t ∈ w.finish, t.IsOrdered := by decide
  have hchecked : Gate.checked ⟨w.start, w.finish⟩ = .ok ⟨w.start, w.finish⟩ := by
    have hone : (Number.int 1).toReal? = .ok 1 := by decide +kernel
    have hfour : (Number.int 4).toReal? = .ok 4 := by decide +kernel
    rw [Gate.checked, Gate.limit?_of_valid hvalid hstart hfinish]
    simp only [w, hone, hfour]
    rfl
  have h : (s.compileOperation o).exec σ = (.ok e, σ) := by
    have hwindow : (Studio.applyWindow o.kind w
        (Expression.ofVideo [.of "eq" [("gamma", .real (.nearest (3 / 2)))]])).exec σ =
          (.ok e, σ) := by
      unfold Studio.applyWindow
      rw [hchecked]
      rfl
    exact (exec_bind_of_ok rfl).trans hwindow
  exact ⟨hvalid, hstart, hfinish, h, rfl,
    Studio.isLimitedOnce_of_compileOperation rfl hvalid hstart hfinish h rfl, by decide +kernel⟩
end Montage
