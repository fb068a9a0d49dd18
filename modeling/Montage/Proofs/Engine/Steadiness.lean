import Mathlib.Data.List.Forall2
import Montage.Engine.Strategies
import Montage.Proofs.Render.Listening

/-!
# Doing an operation, whoever is told of it

Compiling an operation, inspecting its source, rendering it and handing back its media do the same
in sessions that are alike. A strategy therefore has the same outcome whoever listens to its
renderings, and so have several strategies one after another.

## Main definitions

* `Strategy.Alike`: two strategies agree on every operation.

## Main statements

* `Studio.steady_compileOperation`, `Studio.remarks_previewOperation`: compiling for both renderers.
* `Workshop.alike_authoritative`: rendering an operation.
* `agrees_fallBack`: strategies one after another.
-/
namespace Montage

open Montage.Action

variable {s : Studio} {o : Operation} {t : Target}

/-! ## Compiling to filters -/

theorem steady_captionStyleOf {settings : Settings} {p : CaptionParams} :
    Steady (captionStyleOf settings p) :=
  steady_ofFault.andThen fun _ => steady_warnAll.andThen fun _ => .pure

theorem steady_tempDir {settings : Settings} : Steady (tempDir settings) :=
  steady_files.andThen fun _ => steady_ofFault.andThen fun _ => steady_setFiles.andThen fun _ =>
    .pure

theorem steady_writeCaptions {settings : Settings} {cues : List Cue} {style : CaptionStyle} :
    Steady (writeCaptions settings cues style) := by
  refine steady_ofFault.andThen fun document => steady_tempDir.andThen fun dir => ?_
  refine steady_exists?.andThen fun found => ?_
  cases found with
  | true => exact .pure
  | false =>
      exact steady_files.andThen fun _ => steady_ofFault.andThen fun _ =>
        steady_setFiles.andThen fun _ => .pure

theorem steady_compileCaptions {settings : Settings} {p : CaptionParams} :
    Steady (compileCaptions settings p) := by
  refine steady_captionStyleOf.andThen fun (style, warnings) => ?_
  dsimp only
  split_ifs
  · refine steady_ofFault.andThen fun path => steady_exists?.andThen fun found => ?_
    cases found with
    | true => exact .pure
    | false => exact agrees_refuse
  · exact steady_warn.andThen fun _ => .pure
  · exact steady_writeCaptions.andThen fun _ => .pure

theorem remarks_foundLook {α : Type} {f : Found α} : Remarks (foundLook f) :=
  remarks_warnAll.andThen fun _ => .pure

theorem steady_drawtextColor {color fallback : Value} : Steady (drawtextColor color fallback) := by
  unfold drawtextColor
  split
  · split
    · exact .pure
    · refine steady_warn.andThen fun _ => ?_
      split
      · exact steady_ofFault.andThen fun _ => .pure
      · exact steady_ofFault.andThen fun _ => agrees_faulted
  · exact agrees_faulted

namespace Studio

theorem steady_compileEffect {found : Found Effect} {strength : Binary64}
    {level : Option Binary64} : Steady (compileEffect found strength level) :=
  remarks_foundLook.steady.andThen fun _ => steady_ofFault.andThen fun _ => .pure

theorem steady_compileIntensity {p : IntensityParams} : Steady (compileIntensity p) := by
  unfold compileIntensity
  dsimp only
  split
  · exact steady_ofFault.andThen fun _ => .pure
  · exact .pure

theorem steady_compileGrade {p : GradeParams} : Steady (s.compileGrade p) :=
  remarks_foundLook.steady.andThen fun _ => steady_ofFault.andThen fun _ =>
    steady_ofFault.andThen fun _ => steady_warnAll.andThen fun _ => .pure

theorem steady_fontOptions {font : Value} : Steady (s.fontOptions font) := by
  refine steady_files.andThen fun _ => steady_ofFault.andThen fun path => ?_
  cases path <;> exact .pure

theorem steady_backgroundOptions {background : Value} :
    Steady (s.backgroundOptions background) := by
  unfold backgroundOptions
  split_ifs
  · exact steady_drawtextColor.andThen fun _ => .pure
  · exact .pure

theorem steady_compileText {p : TextParams} : Steady (s.compileText p) :=
  steady_ofFault.andThen fun _ => steady_ofFault.andThen fun _ => steady_warnAll.andThen fun _ =>
    steady_ofFault.andThen fun _ => steady_warnAll.andThen fun _ =>
      steady_fontOptions.andThen fun _ => steady_drawtextColor.andThen fun _ =>
        steady_backgroundOptions.andThen fun _ => steady_ofFault.andThen fun _ => .pure

theorem steady_compileEdit (edit : Edit) : Steady (s.compileEdit edit) := by
  cases edit with
  | trim p => exact .pure
  | removeClip p => exact agrees_refuse
  | colorGrade p => exact steady_compileGrade
  | applyEffect p => exact steady_compileEffect
  | addText p => exact steady_compileText
  | customText p => exact steady_compileText
  | filter p => exact steady_compileEffect
  | addCaptions p => exact steady_compileCaptions
  | adjustIntensity p => exact steady_compileIntensity
  | adjustZoom p => exact .pure
  | adjustSpeed p => exact steady_ofEdit
  | rotate p => exact .pure
  | crop p => exact steady_ofFault.andThen fun _ => .pure

theorem steady_applyWindow {kind : Kind} {window : Window} {e : Expression} :
    Steady (applyWindow kind window e) := by
  unfold applyWindow
  split_ifs
  · exact .pure
  · exact steady_ofFault.andThen fun _ => .pure
  · exact steady_warn.andThen fun _ => .pure

/-- **Compiling to filters** does not depend on what was told. -/
theorem steady_compileOperation (o : Operation) : Steady (s.compileOperation o) := by
  refine (steady_compileEdit o.edit).andThen fun e => ?_
  cases o.window with
  | none => exact .pure
  | some window => exact steady_applyWindow

end Studio

/-! ## Compiling for the preview -/

theorem remarks_gravity {position inset : Value} : Remarks (gravity position inset) := by
  unfold gravity
  dsimp only
  split
  · exact .pure
  · exact remarks_warn.andThen fun _ => .pure

namespace Studio

theorem remarks_previewText {p : TextParams} {window : Option Window} :
    Remarks (s.previewText p window) := by
  refine remarks_ofFault.andThen fun size => remarks_ofFault.andThen fun bold => ?_
  refine remarks_ofFault.andThen fun color => ?_
  dsimp -zeta only
  extract_lets inset rest
  have hrest : ∀ back, Remarks (rest back) := fun _ =>
    remarks_gravity.andThen fun _ => remarks_ofFault.andThen fun _ => .pure
  split_ifs
  · exact remarks_ofFault.andThen hrest
  · exact hrest ([], [])

theorem remarks_previewEdit {window : Option Window} (edit : Edit) :
    Remarks (s.previewEdit window edit) := by
  have heffect (found : Found Effect) : Remarks (previewEdit.effect found) :=
    remarks_foundLook.andThen fun _ => remarks_ofEdit.andThen fun _ => .pure
  cases edit with
  | trim p => exact .pure
  | removeClip p => exact remarks_refuse
  | colorGrade p =>
      exact remarks_foundLook.andThen fun _ => remarks_ofFault.andThen fun _ =>
        remarks_ofFault.andThen fun _ => .pure
  | applyEffect p => exact heffect _
  | addText p => exact remarks_previewText
  | customText p => exact remarks_previewText
  | filter p => exact heffect _
  | addCaptions p => exact remarks_refuse
  | adjustIntensity p =>
      simp only [previewEdit]
      split
      · exact remarks_ofEdit.andThen fun _ => .pure
      · exact .pure
  | adjustZoom p => exact remarks_ofEdit.andThen fun _ => .pure
  | adjustSpeed p => exact .pure
  | rotate p => exact .pure
  | crop p => exact .pure

/-- **Compiling for the preview** neither asks the session nor changes it. -/
theorem remarks_previewOperation (o : Operation) (resource : Resource) :
    Remarks (s.previewOperation o resource) :=
  (remarks_previewEdit o.edit).andThen fun _ => remarks_warnAll.andThen fun _ =>
    remarks_ofFault.andThen fun _ => .pure

end Studio

/-! ## Inspecting and deleting -/

theorem Session.Alike.probe? {s s' : Session} (hs : s.Alike s') (path : String) :
    s'.probe? path = s.probe? path := by
  rw [Session.probe?, Session.probe?, hs.probes]

theorem steady_describe {program : Value} {path : Path} : Steady (describe program path) := by
  refine Steady.andThen (steady_modify ?_ fun _ => rfl) fun _ => Agrees.get fun s s' hs => ?_
  · intro s s' hs
    exact { hs with probed := by rw [hs.probed] }
  · rw [hs.probe?]
    split <;> exact Steady.pure

theorem steady_openClip {path : Path} : Steady (openClip path) := by
  refine Agrees.get fun s s' hs => ?_
  rw [hs.probe?]
  split
  · exact Steady.pure
  · exact agrees_faulted

theorem steady_inspect {program : Value} {path : Path} : Steady (inspect program path) := by
  refine steady_exists?.andThen fun found => ?_
  cases found with
  | false => exact agrees_refuse
  | true =>
      refine steady_describe.andThen fun description => ?_
      split
      · exact steady_ofFailure
      · exact steady_warn.andThen fun _ => steady_openClip
      · exact steady_warn.andThen fun _ => steady_openClip
      · exact agrees_faulted

theorem steady_removeScratch {paths : List String} : Steady (removeScratch paths) := by
  refine steady_forM fun path => steady_files.andThen fun f => ?_
  split
  · exact steady_setFiles
  · exact steady_warn

/-! ## Strategies -/

/-- The strategies have one name, and agree on every operation. -/
structure Strategy.Alike (a b : Strategy) : Prop where
  name : b.name = a.name
  attempt : ∀ o t, Agrees Eq (a.attempt o t) (b.attempt o t)

namespace Workshop

variable {w : Workshop} {listeners : List Listener}

theorem steady_probe : Steady (w.probe t) := by
  unfold probe
  split_ifs
  · exact .pure
  · refine steady_files.andThen fun files => steady_ofFault.andThen fun isLocal => ?_
    cases isLocal with
    | true => exact steady_inspect.andThen fun _ => .pure
    | false => exact .pure

theorem steady_draftRemoval {p : RemovalParams} : Steady (draftRemoval p t) := by
  unfold draftRemoval
  split
  · exact steady_warn.andThen fun _ => .pure
  · exact steady_ofFault.andThen fun _ => .pure

theorem steady_draft : Steady (w.draft o t) := by
  unfold draft
  split
  · exact steady_draftRemoval
  · refine (Studio.steady_compileOperation o).andThen fun e => ?_
    split_ifs
    · exact steady_warn.andThen fun _ => .pure
    · exact .pure

/-- A draft is rendered in the same way, whoever listens. -/
theorem agrees_renderDraft {output : Path} {d : Draft} :
    Agrees Eq (w.renderDraft o t output d)
      ({ w with listeners }.renderDraft o t output d) := by
  refine Agrees.bind steady_ofFault ?_
  rintro command _ rfl
  refine (agrees_render (Tracker.alike_of o.kind.name w.listeners listeners)).outcome.bind ?_
  intro run run' hrun
  refine Agrees.bind steady_removeScratch fun _ _ _ => ?_
  refine Agrees.bind (R := Eq) (agrees_ofFailure ?_) ?_
  · cases hrun with
    | error f => exact .error f
    | @ok run run' hrun =>
        have hresult : run.result = run'.result := hrun.result.symm
        change Outcome.Related Eq run.result run'.result
        rw [hresult]
        exact Outcome.related_eq _
  · rintro path _ rfl
    exact .pure rfl

/-- **Rendering an operation** has the same outcome, whoever listens. -/
theorem alike_authoritative : w.authoritative.Alike { w with listeners }.authoritative := by
  refine ⟨rfl, fun o t => ?_⟩
  rw [authoritative, authoritative]
  dsimp only
  cases t.output with
  | none =>
      refine Steady.andThen (steady_draft (w := w)) fun r => ?_
      cases r with
      | error outcome => exact .pure
      | ok d => exact .pure
  | some output =>
      dsimp only
      split_ifs
      · exact agrees_refuse
      · refine Agrees.bind (steady_probe (w := w)) ?_
        rintro t _ rfl
        refine Agrees.bind (steady_draft (w := w)) ?_
        rintro r _ rfl
        cases r with
        | error outcome => exact .pure rfl
        | ok d => exact agrees_renderDraft

/-- Giving the address of the edited media neither asks the session nor changes it. -/
theorem remarks_preview : Remarks (w.preview.attempt o t) := by
  rw [preview]
  dsimp only
  split
  · exact remarks_refuse
  · exact (Studio.remarks_previewOperation o t.resource).andThen fun _ =>
      remarks_ofFailure.andThen fun _ => remarks_ofFault.andThen fun _ => .pure

/-- Handing back the media neither asks the session nor changes it. -/
theorem remarks_passthrough : Remarks (w.passthrough.attempt o t) := by
  rw [passthrough]
  dsimp only
  split
  · exact remarks_ofFailure.andThen fun _ => remarks_warn.andThen fun _ => .pure
  · exact remarks_warn.andThen fun _ => .pure
  · exact remarks_refuse

end Workshop

/-! ## Strategies one after another -/

variable {ss ss' : List Strategy}

/-- The strategies are tried in the same way, and refuse alike. -/
theorem agrees_tryEach (h : List.Forall₂ Strategy.Alike ss ss') (count : Nat)
    (failures : List String) (last : Option EditError) :
    Agrees Eq (tryEach count o t failures last ss) (tryEach count o t failures last ss') := by
  induction h generalizing failures last with
  | nil =>
      cases last with
      | none => exact agrees_faulted
      | some e => exact agrees_refuse
  | @cons a b _ _ hab _ ih =>
      have htext (e : EditError) : b.failureText e = a.failureText e := by
        unfold Strategy.failureText
        rw [hab.name]
      rw [tryEach, tryEach]
      refine (hab.attempt o t).outcome.bind fun r r' hr => ?_
      obtain rfl := hr.eq
      cases r with
      | ok outcome => exact .pure rfl
      | error failure =>
          cases failure with
          | edit e =>
              dsimp only
              rw [htext]
              exact ih _ _
          | fault f => exact agrees_faulted

/-- **Strategies one after another** have the same outcome. -/
theorem agrees_fallBack (h : List.Forall₂ Strategy.Alike ss ss') :
    Agrees Eq (fallBack ss o t) (fallBack ss' o t) := by
  rw [fallBack, fallBack, h.length_eq]
  exact agrees_tryEach h _ _ _

/-- The strategies of a backend differ in whom they tell only. -/
theorem Backend.forall₂_strategies (b : Backend) (w : Workshop) (listeners : List Listener) :
    List.Forall₂ Strategy.Alike (b.strategies w) (b.strategies { w with listeners }) := by
  have hpreview : w.preview.Alike { w with listeners }.preview :=
    ⟨rfl, fun _ _ => Workshop.remarks_preview.steady⟩
  have hauthoritative : w.authoritative.Alike { w with listeners }.authoritative :=
    Workshop.alike_authoritative
  have hpassthrough : w.passthrough.Alike { w with listeners }.passthrough :=
    ⟨rfl, fun _ _ => Workshop.remarks_passthrough.steady⟩
  cases b with
  | preview => exact .cons hpreview .nil
  | authoritative => exact .cons hauthoritative .nil
  | auto => exact .cons hpreview (.cons hauthoritative (.cons hpassthrough .nil))

end Montage
