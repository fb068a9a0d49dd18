import Montage.Proofs.Engine.Processing
import Montage.Proofs.Filter.Fitting
import Montage.Proofs.Preview.Fitting
import Montage.Proofs.Render.Fitting

/-!
# Attempts of the strategies

A strategy that cannot do an operation refuses it, and the next one is tried. What else can go wrong
in an attempt are faults: of an edit that does not fit, of a file that can be neither described nor
opened, of settings that are no words of a command, and of a renderer.

## Main definitions

* `Session.Inspects`, `Target.IsKnown`: inspecting a file, and the source of a target, is no fault.
* `Workshop.DraftFits`, `Workshop.RenderFits`: drafting an operation and rendering a draft are none.
* `Workshop.AttemptFits`: the whole attempt is none.

## Main statements

* `Workshop.contained_authoritative_iff`, `Workshop.contained_preview_iff`: the attempts of the
  strategies.
* `Workshop.exists_passthrough`: the last resort.
-/
namespace Montage

open Montage.Action

/-! ## Inspecting a file -/

/-- The description of a file can be read, if perhaps nothing is seen in it. -/
def IsDescribed (path : Path) (description : Value) : Prop :=
  ∀ c, MediaInfo.ofDescription path description ≠ .error (.fault c)

namespace Session

/-- The file can be opened. -/
def Opens (s : Session) (path : Path) : Prop :=
  ((s.probe? path.text).bind ProbeScript.clip).isSome = true

/-- The file is described, or else it can be opened. -/
def Inspects (s : Session) (path : Path) : Prop :=
  match (s.probe? path.text).map ProbeScript.answer with
  | some (.data v) => IsDescribed path v
  | some (.printed text) =>
    match Json.parse text with
    | .ok v => IsDescribed path v
    | .error (.malformedJson _) | .error (.system _) => s.Opens path
    | .error _ => False
  | _ => s.Opens path

end Session

/-- The source of the target need not be inspected, or can be. -/
def Target.IsKnown (t : Target) (s : Session) : Prop :=
  (t.duration.isSome && t.hasAudio.isSome) = false →
    ∀ source ∈ given? t.source, isAddress source = false →
      s.files.locate (.ofString source) ≠ .tooLong ∧
        (s.files.exists? (.ofString source) = .ok true → s.Inspects (.ofString source))

variable {σ : Session} {o : Operation} {t : Target}

theorem contained_openClip_iff {path : Path} : (openClip path).Contained σ ↔ σ.Opens path := by
  rw [openClip, contained_bind_of_ok exec_get, Session.Opens]
  cases (σ.probe? path.text).bind ProbeScript.clip with
  | none => exact hinges_faulted.contained_iff.trans (iff_of_false id Bool.false_ne_true)
  | some clip => exact iff_of_true contained_pure rfl

/-- A file that is not described is opened, after a warning. -/
theorem contained_warn_openClip_iff {text : String} {path : Path} :
    (warn probeSource text >>= fun _ => openClip path).Contained σ ↔ σ.Opens path := by
  rw [contained_bind_of_ok (a := warn probeSource text) rfl, contained_openClip_iff]
  rfl

/-- What a program says of a file, or why it says nothing. -/
def Session.description (s : Session) (program : Value) (path : Path) : Except Fault Value :=
  match (s.probe? path.text).map ProbeScript.answer with
  | none | some .missing => .error (.system (.noProgram program.text))
  | some (.exited status) =>
    .error (.system (.exited (Value.list (probeCommand program path)).quoted status))
  | some (.printed text) => Json.parse text
  | some (.data v) => .ok v

theorem exec_describe {program : Value} {path : Path} : (describe program path).exec σ =
    (.ok (σ.description program path),
      { σ with probed := σ.probed ++ [(program.text, path.text)] }) := by
  have hmodify : (modify fun s : Session =>
      { s with probed := s.probed ++ [(program.text, path.text)] } : Action Unit).exec σ =
        (.ok (), { σ with probed := σ.probed ++ [(program.text, path.text)] }) := rfl
  have hprobe : ({ σ with probed := σ.probed ++ [(program.text, path.text)] } : Session).probe?
      path.text = σ.probe? path.text := rfl
  unfold describe Session.description
  rw [exec_bind_of_ok hmodify, exec_bind_of_ok exec_get, hprobe]
  rcases (σ.probe? path.text).map ProbeScript.answer with - | (text | v | - | status) <;> rfl

/-- **Inspecting a file that is there** yields information or is refused just if the file is
described or can be opened. -/
theorem contained_inspect_iff {program : Value} {path : Path}
    (hexists : σ.files.exists? path = .ok true) :
    (inspect program path).Contained σ ↔ σ.Inspects path := by
  have hfound : (exists? path).exec σ = (.ok true, σ) := by
    rw [exec_exists?, hexists, Outcome.mapError_ok]
  rw [inspect, contained_bind_of_ok hfound]
  refine (contained_bind_of_ok exec_describe).trans ?_
  rw [Session.Inspects, Session.description]
  rcases (σ.probe? path.text).map ProbeScript.answer with - | (text | v | - | status)
  · exact contained_warn_openClip_iff
  · dsimp only
    rcases Json.parse text with f | v
    · cases f with
      | malformedJson reason => exact contained_warn_openClip_iff
      | system cause => exact contained_warn_openClip_iff
      | _ => exact hinges_faulted.contained_iff
    · exact contained_ofFailure_iff
  · exact contained_ofFailure_iff
  · exact contained_warn_openClip_iff
  · exact contained_warn_openClip_iff

/-- The address of a resource after steps that can be written is given or refused. -/
theorem UrlBase.build_ne_fault {b : UrlBase} {id : Value} {d : Descriptor} {r : Option Resource}
    {path : String} (h : d.path = .ok path) (c : Fault) : b.build id d r ≠ .error (.fault c) := by
  rw [build, h]
  cases hid : checkPublicId id with
  | error e => nofun
  | ok checked =>
      have hwith : (b.withPath id path (r.getD d.resource)).isOk = true := by
        rw [withPath, hid]
        exact Outcome.isOk_bind.mpr ⟨checked, rfl, by split_ifs <;> rfl⟩
      obtain ⟨address, haddress⟩ := Outcome.isOk_iff.mp hwith
      intro hc
      cases haddress.symm.trans hc

namespace Workshop

variable {w : Workshop}

/-- A source that is no address is looked at if it is there. -/
theorem contained_look_iff {source : String} {next : MediaInfo → Target}
    (hsource : t.source = some source) :
    (ofFault (σ.files.exists? (.ofString source)) >>= fun isLocal =>
      if !isLocal then pure t else
        inspect w.studio.settings.prober (.ofString (t.source.getD "")) >>= fun info =>
          pure (next info)).Contained σ ↔
      σ.files.locate (.ofString source) ≠ .tooLong ∧
        (σ.files.exists? (.ofString source) = .ok true → σ.Inspects (.ofString source)) := by
  rw [← Storage.isOk_exists?_iff]
  cases hexists : σ.files.exists? (.ofString source) with
  | error c => exact iff_of_false (fun h => Bool.false_ne_true (h (.fault c) rfl)) (nomatch ·.1)
  | ok found =>
      rw [contained_bind_of_ok (exec_ofFault _)]
      cases found with
      | false => exact iff_of_true contained_pure ⟨rfl, nofun⟩
      | true =>
          rw [hsource, Option.getD_some]
          refine contained_bind.trans ((and_iff_left fun _ _ _ => contained_pure).trans ?_)
          exact (contained_inspect_iff hexists).trans ⟨fun h => ⟨rfl, fun _ => h⟩, fun h => h.2 rfl⟩

theorem contained_probe_iff : (w.probe t).Contained σ ↔ t.IsKnown σ := by
  rw [probe, Target.IsKnown]
  cases hknown : t.duration.isSome && t.hasAudio.isSome with
  | true => exact iff_of_true contained_pure nofun
  | false =>
      rw [if_neg Bool.false_ne_true, imp_iff_right rfl]
      refine (contained_bind_of_ok exec_files).trans ?_
      rw [Target.isLocal]
      cases hgiven : Target.given? t.source with
      | none => exact iff_of_true contained_pure nofun
      | some source =>
          simp only [Option.mem_some, forall_eq']
          cases Target.isAddress source with
          | true => exact iff_of_true contained_pure nofun
          | false =>
              rw [if_neg Bool.false_ne_true, imp_iff_right rfl]
              exact contained_look_iff (Option.filter_eq_some_iff.mp hgiven).1

/-! ## Drafts -/

/-- The edit fits the renderer; a removal that is not skipped can be written. -/
def DraftFits (w : Workshop) (o : Operation) (duration : Option Number) (files : Storage) : Prop :=
  match o.edit with
  | .removeClip p => ∀ plan, planRemoval (.real p.start) (.real p.finish) duration = .ok plan →
    (Compiled.plan plan).IsWritable
  | e => w.studio.FilterFits files e

theorem contained_draftRemoval_iff {p : RemovalParams} : (draftRemoval p t).Contained σ ↔
    ∀ plan, planRemoval (.real p.start) (.real p.finish) t.duration = .ok plan →
      (Compiled.plan plan).IsWritable := by
  rw [draftRemoval]
  cases planRemoval (.real p.start) (.real p.finish) t.duration with
  | error cause =>
      refine iff_of_true contained_warn_pure ?_
      intro plan hplan
      cases hplan
  | ok plan =>
      refine (hinges_ofFault.andThen fun _ _ => hinges_pure).contained_iff.trans ?_
      rw [SegmentPlan.isOk_graph_iff]
      simp only [Except.ok.injEq, forall_eq']

theorem contained_draft_iff (h : o.edit.IsChecked) (hw : ∀ w ∈ o.window, w.HasReals) :
    (w.draft o t).Contained σ ↔ w.DraftFits o t.duration σ.files := by
  have hcompiled : (w.studio.compileOperation o >>= fun e =>
      if e.isEmpty then do
        let reason := o.kind.name ++ " has nothing to apply"
        warn strategySource reason
        return .error (skip (e.warnings ++ [reason]))
      else return .ok ⟨.expression e, e.warnings, e.toFields⟩ :
        Action (Except Outcome Draft)).Contained σ ↔ w.studio.FilterFits σ.files o.edit := by
    rw [contained_bind, Studio.contained_compileOperation_iff h hw]
    refine and_iff_left ?_
    intro e σ' _
    split_ifs
    · exact contained_warn_pure
    · exact contained_pure
  rw [draft, DraftFits]
  cases hedit : o.edit with
  | removeClip p =>
      dsimp only
      exact contained_draftRemoval_iff
  | _ =>
      rw [hedit] at hcompiled
      exact hcompiled

/-- What is drafted can be written. -/
theorem returns_draft : Returns (w.draft o t) fun r => ∀ d, r = .ok d → d.compiled.IsWritable := by
  unfold draft
  split
  · unfold draftRemoval
    split
    · refine .after fun _ => .pure ?_
      intro d h
      cases h
    · refine (returns_ofFault fun _ h => h).bind fun graph hgraph => .pure ?_
      rintro _ ⟨⟩
      exact SegmentPlan.isOk_graph_iff.mp (Outcome.isOk_iff.mpr ⟨graph, hgraph⟩)
  · refine .after ?_
    intro e
    split_ifs
    · refine .after fun _ => .pure ?_
      intro d h
      cases h
    · refine .pure ?_
      rintro _ ⟨⟩
      trivial

/-! ## Renderings -/

/-- The settings make words of a command, and the renderer lets no fault escape. -/
structure RenderFits (w : Workshop) (t : Target) (d : Draft) (s : Session) : Prop where
  words : w.studio.settings.NamesRenderer t.resource (t.hasAudio.getD true)
  run : ¬(s.launches.headD s.further).Escapes (d.compiled.length? t.duration) (.ok ())

theorem yields_removeScratch (paths : List String) : Yields (removeScratch paths) := by
  induction paths with
  | nil => exact yields_pure
  | cons path paths ih =>
      refine Yields.bind (Yields.bind (fun s => ⟨_, s, exec_files⟩) fun files => ?_) fun _ => ih
      split <;> exact yields_modify

theorem contained_renderDraft_iff {output : Path} {d : Draft} (h : d.compiled.IsWritable) :
    (w.renderDraft o t output d).Contained σ ↔ w.RenderFits t d σ := by
  obtain ⟨command, hcommand⟩ : ∃ command, renderCommand w.studio.settings (t.source.getD "")
      output.text d.compiled t.resource (t.hasAudio.getD true) = .ok command :=
    Outcome.isOk_iff.mp (isOk_renderCommand_iff.mpr h)
  rw [renderDraft, hcommand, contained_bind_of_ok (exec_ofFault _),
    contained_bind_of_ok exec_outcome]
  -- Cleaning up after the run is no fault, so the run alone decides.
  obtain ⟨_, s', hremove⟩ := yields_removeScratch d.compiled.scratch
    ((render w.timeout command (d.compiled.length? t.duration)
      (.of o.kind.name w.listeners)).exec σ).2
  rw [contained_bind_of_ok hremove, contained_bind, and_iff_left fun _ _ _ => contained_pure]
  refine (contained_run_iff (getLast?_renderCommand hcommand)).trans ?_
  rw [isWord_renderCommand_iff hcommand]
  exact ⟨fun h => ⟨h.1, h.2⟩, fun h => ⟨h.words, h.run⟩⟩

/-! ## Attempts -/

/-- The operation can be drafted. If there is an output and a source, the source is known, and the
draft can be rendered. -/
def AttemptFits (w : Workshop) (o : Operation) (t : Target) (s : Session) : Prop :=
  match t.output with
  | none => w.DraftFits o t.duration s.files
  | some _ => (Target.given? t.source).isSome = true →
    t.IsKnown s ∧ ∀ t' s', (w.probe t).exec s = (.ok t', s') →
      w.DraftFits o t'.duration s'.files ∧
        ∀ d s'', (w.draft o t').exec s' = (.ok (.ok d), s'') → w.RenderFits t' d s''

/-- **The attempt to compile and render** ends in an outcome or a refusal just if it fits. -/
theorem contained_authoritative_iff (h : o.edit.IsChecked) (hw : ∀ w ∈ o.window, w.HasReals) :
    (w.authoritative.attempt o t).Contained σ ↔ w.AttemptFits o t σ := by
  rw [authoritative, AttemptFits]
  dsimp only
  cases t.output with
  | none =>
      dsimp only
      rw [contained_bind, contained_draft_iff h hw]
      refine and_iff_left ?_
      intro r σ' _
      cases r <;> exact contained_pure
  | some output =>
      dsimp only
      cases hsource : Target.given? t.source with
      | none =>
          refine iff_of_true contained_refuse ?_
          intro hsome
          cases hsome
      | some source =>
          rw [Option.isSome_some, imp_iff_right rfl]
          refine contained_bind.trans (and_congr contained_probe_iff ?_)
          refine forall₃_congr ?_
          intro t' σ' _
          refine contained_bind.trans (and_congr (contained_draft_iff h hw) ?_)
          constructor
          · intro hnext d σ'' hd
            have hwritable := returns_draft σ' _ (congrArg Prod.fst hd) d rfl
            exact (contained_renderDraft_iff hwritable).mp (hnext _ σ'' hd)
          · intro hnext r σ'' hr
            cases r with
            | error outcome => exact contained_pure
            | ok d =>
                have hwritable := returns_draft σ' _ (congrArg Prod.fst hr) d rfl
                exact (contained_renderDraft_iff hwritable).mpr (hnext d σ'' hr)

/-- **The attempt to preview** ends in an address or a refusal just if there is nothing to preview,
or the edit fits the preview service. -/
theorem contained_preview_iff (h : o.edit.IsChecked) (hw : ∀ w ∈ o.window, w.HasReals) :
    (w.preview.attempt o t).Contained σ ↔
      ((Target.given? t.publicId).isSome = true → w.studio.PreviewFits o.edit) := by
  rw [preview]
  dsimp only
  cases Target.given? t.publicId with
  | none => exact iff_of_true contained_refuse nofun
  | some id =>
      dsimp only
      rw [Option.isSome_some, imp_iff_right rfl, contained_bind,
        Studio.contained_previewOperation_iff h hw]
      refine and_iff_left ?_
      intro d σ' hd
      obtain ⟨path, hpath⟩ := Outcome.isOk_iff.mp
        (Studio.returns_previewOperation_path σ d (congrArg Prod.fst hd))
      refine contained_bind.mpr
        ⟨contained_ofFailure_iff.mpr (UrlBase.build_ne_fault hpath), fun address σ'' _ => ?_⟩
      rw [hpath, contained_bind_of_ok (exec_ofFault _)]
      exact contained_pure

end Workshop

/-- The target has a name on the preview service that is valid, or no name but a source. -/
def Target.HasMedia (t : Target) : Prop :=
  match given? t.publicId with
  | some id => (checkPublicId (.string id)).isOk = true
  | none => (given? t.source).isSome = true

/-- **The last resort** hands back every media. -/
theorem Workshop.exists_passthrough {w : Workshop} (h : t.HasMedia) :
    ∃ outcome σ', (w.passthrough.attempt o t).exec σ = (.ok outcome, σ') := by
  rw [passthrough]
  dsimp only
  unfold Target.HasMedia at h
  cases hid : Target.given? t.publicId with
  | some id =>
      rw [hid] at h
      obtain ⟨address, haddress⟩ : ∃ address,
          (UrlBase.of w.studio.settings).plain (.string id) t.resource = .ok address := by
        obtain ⟨checked, hchecked⟩ := Outcome.isOk_iff.mp h
        rw [UrlBase.plain, hchecked]
        exact ⟨_, rfl⟩
      dsimp only
      rw [haddress]
      exact ⟨_, _, rfl⟩
  | none =>
      rw [hid] at h
      obtain ⟨source, hsource⟩ := Option.isSome_iff_exists.mp h
      rw [hsource]
      exact ⟨_, _, rfl⟩

end Montage
