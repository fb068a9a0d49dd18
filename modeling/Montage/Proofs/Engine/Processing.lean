import Montage.Engine.Basic
import Montage.Proofs.Filter.Compiling
import Montage.Proofs.Render.Saving

/-!
# What a request changes

A request that is done by rendering changes the file that it writes, and files of captions in the
directory for temporary files, which are deleted again. Whatever the request is, and however it
ends, it has a result; where the result has a file, this is the file that was to be written, and it
is stored.

## Main definitions

* `Product.StoredAt`: a product that is a stored file, if it is a file at all.
* `Request.IsGiven`: a request in one of the forms in which requests are made.

## Main statements

* `Workshop.leads_renderDraft`, `Workshop.leads_authoritative`: what rendering an operation changes.
* `Workshop.exists_renderDraft`: the file that a draft lists is deleted after its rendering.
* `Engine.leads_process`, `Engine.yields_process`: what a request changes, and that it has a result.
-/
namespace Montage

/-- The product is the file under the path `output`, if it is a file at all, and is stored. -/
def Product.StoredAt (output : Path) (files : Storage) (product : Option Product) : Prop :=
  ∀ path, product.bind Product.file? = some path → path = output ∧ ∃ text, files.Holds path text

/-- The places that change when a file is rendered: its own, and those of captions. -/
def Settings.renderPlaces (s : Settings) (output : Path) : Set Place :=
  insert output.place s.captionPlaces

open Montage.Action

variable {s : Session} {W D : Set Place} {output : Path} {t : Target} {o : Operation}

theorem Settings.notMem_renderPlaces {settings : Settings} {q : Place} (hq : q ≠ output.place)
    (hcaptions : q ∉ settings.captionPlaces) : q ∉ settings.renderPlaces output :=
  fun h => (Set.mem_insert_iff.mp h).elim hq hcaptions

theorem Product.storedAt_none {files : Storage} : StoredAt output files none := nofun

/-- A stored product is not touched by changes in other places. -/
theorem Product.StoredAt.changed {f g : Storage} {product : Option Product}
    (h : StoredAt output f product) (hfg : f.Changed W D g) (hapart : output.place ∉ W) :
    StoredAt output g product := by
  intro path hpath
  obtain ⟨rfl, text, htext⟩ := h path hpath
  exact ⟨rfl, text, hfg.holds hapart htext⟩

/-! ## Steps of a rendering -/

/-- A command ends in the path of its result. -/
theorem getLast?_renderCommand {settings : Settings} {input target : String} {compiled : Compiled}
    {resource : Resource} {audio : Bool} {command : Command}
    (h : renderCommand settings input target compiled resource audio = .ok command) :
    command.getLast? = some (.string target) := by
  obtain ⟨filters, -, hcommand⟩ := Outcome.bind_eq_ok.mp h
  rw [← Except.ok.inj hcommand]
  exact List.getLast?_concat

theorem keeps_removeScratch {settings : Settings} {paths : List String}
    (htemp : settings.tempPath.WellFormed)
    (hpaths : ∀ path ∈ paths, ∃ document, path = (settings.captionFile document).text) :
    Keeps settings.captionPlaces D (removeScratch paths) := by
  refine keeps_forM fun path hpath => ?_
  obtain ⟨document, rfl⟩ := hpaths path hpath
  refine keeps_tryChange (fun f g hremove => ?_) fun _ => keeps_warn
  rw [Settings.ofString_captionFile htemp] at hremove
  refine (Storage.changed_of_remove hremove).mono ?_
  rw [Set.singleton_subset_iff]
  exact ⟨document, rfl⟩

theorem keeps_describe {program : Value} {path : Path} : Keeps W D (describe program path) := by
  refine Meets.andThen (keeps_modify ?_) fun _ => keeps_get.andThen fun s => ?_
  · exact fun s => ⟨.refl s.files, List.suffix_rfl, rfl⟩
  · split <;> exact .pure trivial

theorem keeps_openClip {path : Path} : Keeps W D (openClip path) := by
  refine keeps_get.andThen fun s => ?_
  split
  · exact .pure trivial
  · exact meets_faulted

theorem keeps_inspect {program : Value} {path : Path} : Keeps W D (inspect program path) := by
  refine keeps_exists?.andThen fun found => ?_
  cases found with
  | false => exact meets_refuse
  | true =>
      refine keeps_describe.andThen fun description => ?_
      split
      · exact keeps_ofFailure
      · exact keeps_warn.andThen fun _ => keeps_openClip
      · exact keeps_warn.andThen fun _ => keeps_openClip
      · exact meets_faulted

/-! ## Rendering an operation -/

namespace Workshop

variable {w : Workshop}

/-- The draft lists files of captions only; an outcome without a draft has nothing to show. -/
def DraftFor (settings : Settings) : Except Outcome Draft → Prop
  | .ok d => ∀ path ∈ d.compiled.scratch, ∃ document, path = (settings.captionFile document).text
  | .error outcome => outcome.product = none

theorem keeps_probe : Keeps W D (w.probe t) := by
  unfold probe
  split_ifs
  · exact .pure trivial
  · refine keeps_files.andThen fun files => keeps_ofFault.andThen fun isLocal => ?_
    cases isLocal with
    | true => exact keeps_inspect.andThen fun _ => .pure trivial
    | false => exact .pure trivial

theorem meets_draftRemoval {settings : Settings} {p : RemovalParams} :
    Meets W D (draftRemoval p t) (DraftFor settings) := by
  unfold draftRemoval
  split
  · exact keeps_warn.andThen fun _ => .pure rfl
  · refine keeps_ofFault.andThen fun graph => .pure ?_
    exact fun path hpath => absurd hpath List.not_mem_nil

theorem meets_draft : Meets w.studio.settings.captionPlaces (Storage.way w.studio.settings.tempPath)
    (w.draft o t) (DraftFor w.studio.settings) := by
  unfold draft
  split
  · exact meets_draftRemoval
  · refine (Studio.meets_compileOperation o).bind fun e he => ?_
    split_ifs
    · exact keeps_warn.andThen fun _ => .pure rfl
    · exact .pure he

section

variable (htemp : w.studio.settings.tempPath.WellFormed) (houtput : output.WellFormed)
  (hapart : output.place ∉ w.studio.settings.captionPlaces)

include htemp houtput hapart

/-- **Rendering a draft** changes its file, and deletes the files of captions that it lists. -/
theorem leads_renderDraft {d : Draft} (hd : DraftFor w.studio.settings (.ok d))
    (hs : s.WritesOnSuccess) :
    Leads (w.studio.settings.renderPlaces output) D (w.renderDraft o t output d) s
      fun outcome s' => Product.StoredAt output s'.files outcome.product := by
  have hcaptions : w.studio.settings.captionPlaces ⊆ w.studio.settings.renderPlaces output :=
    Set.subset_insert _ _
  have hrender : {output.place} ⊆ w.studio.settings.renderPlaces output :=
    Set.singleton_subset_iff.mpr (Set.mem_insert _ _)
  refine (meets_ofFault (fun _ => getLast?_renderCommand) s).bind fun command s₁ h₁ hcommand => ?_
  refine (leads_render (h₁.writesOnSuccess hs) hcommand).outcome.bind_of_subset ?_ ?_
  · rwa [Path.ofString_text houtput]
  rw [Path.ofString_text houtput]
  intro run s₂ h₂ hrun
  refine (keeps_removeScratch htemp hd s₂).bind_of_subset hcaptions fun _ s₃ h₃ _ => ?_
  refine (meets_ofFailure (fun _ => Outcome.bind_eq_ok.mp) s₃).bind_of_subset
    (Set.empty_subset _) ?_
  rintro path s₄ h₄ ⟨ended, rfl, hresult⟩
  refine .pure fun product hproduct => ?_
  obtain ⟨rfl, text, htext⟩ := hrun ended rfl path hresult
  obtain rfl := Option.some.inj hproduct
  exact ⟨rfl, text, h₄.files.holds (Set.notMem_empty _) (h₃.files.holds hapart htext)⟩

/-- **Rendering an operation** changes the file of the output, and files of captions. -/
theorem leads_authoritative (htarget : t.output = some output) (hs : s.WritesOnSuccess) :
    Leads (w.studio.settings.renderPlaces output) (Storage.way w.studio.settings.tempPath)
      (w.authoritative.attempt o t) s
      fun outcome s' => Product.StoredAt output s'.files outcome.product := by
  have hcaptions : w.studio.settings.captionPlaces ⊆ w.studio.settings.renderPlaces output :=
    Set.subset_insert _ _
  rw [authoritative]
  dsimp only
  rw [htarget]
  dsimp only
  split_ifs
  · exact meets_refuse s
  · refine (keeps_probe s).bind fun t s₁ h₁ _ => ?_
    refine (meets_draft s₁).bind_of_subset hcaptions fun r s₂ h₂ hr => ?_
    cases r with
    | error outcome =>
        refine .pure ?_
        rw [show outcome.product = none from hr]
        exact Product.storedAt_none
    | ok d =>
        exact leads_renderDraft htemp houtput hapart hr (h₂.writesOnSuccess (h₁.writesOnSuccess hs))

end

end Workshop

/-! ## Deleting the files of a draft -/

theorem exec_removeScratch {path : String} {files : Storage}
    (h : s.files.remove (.ofString path) = .ok files) :
    (removeScratch [path]).exec s = (.ok (), { s with files }) :=
  (exec_bind_of_ok (exec_tryChange h)).trans rfl

namespace Workshop

variable {w : Workshop}

theorem exec_probe (hduration : t.duration.isSome = true) (hsound : t.hasAudio.isSome = true) :
    (w.probe t).exec s = (.ok t, s) := by
  unfold probe
  rw [hduration, hsound]
  rfl

/-- The attempt gets as far as this draft. -/
def DraftsInto (w : Workshop) (o : Operation) (t : Target) (s : Session) (d : Draft) : Prop :=
  ∃ t' s₁ s₂, (w.probe t).exec s = (.ok t', s₁) ∧ (w.draft o t').exec s₁ = (.ok (.ok d), s₂)

section

variable {t' : Target} {s' s'' : Session} (hsource : (Target.given? t.source).isNone = false)
  (houtput : t.output = some output) (hprobe : (w.probe t).exec s = (.ok t', s'))

include hsource houtput hprobe

/-- What comes to a draft is rendered. -/
theorem exec_authoritative_of_draft {d : Draft}
    (hdraft : (w.draft o t').exec s' = (.ok (.ok d), s'')) :
    (w.authoritative.attempt o t).exec s = (w.renderDraft o t' output d).exec s'' := by
  rw [authoritative]
  dsimp only
  rw [houtput]
  dsimp only
  rw [hsource, if_neg Bool.false_ne_true, exec_bind_of_ok hprobe, exec_bind_of_ok hdraft]

/-- What is skipped is not rendered. -/
theorem exec_authoritative_of_skip {outcome : Outcome}
    (hdraft : (w.draft o t').exec s' = (.ok (.error outcome), s'')) :
    (w.authoritative.attempt o t).exec s = (.ok outcome, s'') := by
  rw [authoritative]
  dsimp only
  rw [houtput]
  dsimp only
  rw [hsource, if_neg Bool.false_ne_true, exec_bind_of_ok hprobe, exec_bind_of_ok hdraft]
  rfl

end

/-- A draft of a source of known length and sound is rendered. -/
theorem exec_authoritative {d : Draft} {s' : Session}
    (hsource : (Target.given? t.source).isNone = false) (houtput : t.output = some output)
    (hduration : t.duration.isSome = true) (hsound : t.hasAudio.isSome = true)
    (hdraft : (w.draft o t).exec s = (.ok (.ok d), s')) :
    (w.authoritative.attempt o t).exec s = (w.renderDraft o t output d).exec s' :=
  exec_authoritative_of_draft hsource houtput (exec_probe hduration hsound) hdraft

/-- The file that a draft lists is deleted after the rendering, however that ends. -/
theorem exists_renderDraft (w : Workshop) (o : Operation) (t : Target) (output : Path) {d : Draft}
    {e : Expression} {file : Path} {text : String} (hcompiled : d.compiled = .expression e)
    (hscratch : e.scratch = [file.text]) (hfile : file.WellFormed)
    (hspared : ∀ command : Command, command.getLast? = some (.string output.text) →
      ((render w.timeout command (d.compiled.length? t.duration)
        (.of o.kind.name w.listeners)).exec s).2.files.Holds file text) :
    ∃ command outcome files, command.getLast? = some (.string output.text) ∧
      Storage.entry? files file.place = none ∧ (w.renderDraft o t output d).exec s =
        let (r, s') := (render w.timeout command (d.compiled.length? t.duration)
          (.of o.kind.name w.listeners)).exec s
        ((do (← r).result : Except Failure Path).map outcome, { s' with files }) := by
  obtain ⟨command, hcommand⟩ : ∃ command, renderCommand w.studio.settings (t.source.getD "")
      output.text d.compiled t.resource (t.hasAudio.getD true) = .ok command := by
    rw [hcompiled]
    exact ⟨_, rfl⟩
  have hlast := getLast?_renderCommand hcommand
  obtain ⟨files, hremove, -, hgone⟩ := Storage.exists_remove (hspared command hlast)
  rw [← Path.ofString_text hfile] at hremove
  have hlisted : d.compiled.scratch = [file.text] := by rw [hcompiled, Compiled.scratch, hscratch]
  refine ⟨command, fun path => { Outcome.of authoritativeName with
    product := some (.file path)
    warnings := d.warnings
    metadata := Fields.set d.metadata "command" (.list command) }, files, hlast, hgone, ?_⟩
  unfold renderDraft
  rw [hcommand, hlisted, exec_bind_of_ok (exec_ofFault _), exec_bind_of_ok exec_outcome,
    exec_bind_of_ok (exec_removeScratch hremove), exec_bind, exec_ofFailure]
  dsimp only
  cases hended : (do (← ((render w.timeout command (d.compiled.length? t.duration)
    (.of o.kind.name w.listeners)).exec s).1).result : Except Failure Path) <;> rfl

/-- Without a renderer the rendering of a draft fails, and the file that the draft lists is gone all
the same. -/
theorem fails_renderDraft {d : Draft} {e : Expression} {file : Path} {text : String}
    (hcompiled : d.compiled = .expression e) (hscratch : e.scratch = [file.text])
    (hfile : file.WellFormed) (hstored : s.files.Holds file text)
    (hs : s.launches.headD s.further = .missing) :
    Fails (w.renderDraft o t output d) s fun s' => s'.files.entry? file.place = none := by
  obtain ⟨command, outcome, files, -, hgone, hexec⟩ :=
    exists_renderDraft w o t output hcompiled hscratch hfile fun command _ =>
      (leads_render_missing (D := ∅) hs).1.files.holds (Set.notMem_empty _) hstored
  obtain ⟨-, hresult⟩ : Leads ∅ ∅ (render w.timeout command (d.compiled.length? t.duration)
      (.of o.kind.name w.listeners)) s fun run _ => ∀ path, run.result ≠ .ok path :=
    leads_render_missing hs
  cases hended : (do (← ((render w.timeout command (d.compiled.length? t.duration)
      (.of o.kind.name w.listeners)).exec s).1).result : Except Failure Path) with
  | ok path =>
      obtain ⟨run, hrun, hpath⟩ := Outcome.bind_eq_ok.mp hended
      exact absurd hpath (hresult run hrun path)
  | error f =>
      dsimp only at hexec
      rw [hended] at hexec
      exact ⟨f, _, hexec, hgone⟩

end Workshop

/-- A single strategy has no other one to fall back to. -/
theorem exec_fallBack (strategy : Strategy) :
    (fallBack [strategy] o t).exec s = (strategy.attempt o t).exec s := by
  rw [fallBack, tryEach, exec_bind_of_ok exec_outcome]
  rcases (strategy.attempt o t).exec s with ⟨_ | outcome, s'⟩
  · rename_i failure
    cases failure <;> rfl
  · rfl

/-! ## Processing a request -/

namespace Request

/-- The request has one of the forms in which requests are made. -/
def IsGiven : Request → Prop
  | typed _ => True
  | untyped v => ∃ fs, v = .object fs

theorem exists_kindText {r : Request} (h : r.IsGiven) : ∃ kind, r.kindText = .ok kind := by
  cases r with
  | typed i => exact ⟨_, rfl⟩
  | untyped v =>
      obtain ⟨fs, rfl⟩ := h
      exact ⟨_, rfl⟩

/-- The subtitle document of a request for captions that are given one by one. -/
def document? (settings : Settings) (r : Request) : Option String :=
  match r.prepare with
  | .ok ⟨.addCaptions p, none⟩ =>
    if p.file.isTruthy || p.cues.isEmpty then none
    else
      match CaptionStyle.resolve settings.caption p with
      | .ok (style, []) => (subtitleDocument settings.caption p.cues style).toOption
      | _ => none
  | _ => none

theorem exists_of_document? {settings : Settings} {r : Request} {document : String}
    (h : r.document? settings = some document) :
    ∃ p style, r.prepare = .ok ⟨.addCaptions p, none⟩ ∧ p.file.isTruthy = false ∧
      p.cues.isEmpty = false ∧ CaptionStyle.resolve settings.caption p = .ok (style, []) ∧
      subtitleDocument settings.caption p.cues style = .ok document := by
  rw [document?] at h
  split at h
  · rename_i p hprepare
    split_ifs at h with hgiven
    obtain ⟨hfile, hcues⟩ : p.file.isTruthy = false ∧ p.cues.isEmpty = false := by
      simpa using hgiven
    split at h
    · rename_i style hstyle
      refine ⟨p, style, hprepare, hfile, hcues, hstyle, ?_⟩
      cases hdocument : subtitleDocument settings.caption p.cues style with
      | ok text =>
          rw [hdocument] at h
          rw [← Option.some.inj h]
      | error f =>
          rw [hdocument] at h
          cases h
    · cases h
  · cases h

end Request

/-- **Captions** are drafted with the file of their document, which the draft lists. -/
theorem Workshop.exists_draft_captions {w : Workshop} {r : Request} {document : String}
    {g : Storage} (hr : r.document? w.studio.settings = some document)
    (hcaptions : s.files.WithCaptions w.studio.settings document g) :
    ∃ o d x, r.prepare = .ok o ∧ (w.draft o t).exec s = (.ok (.ok d), { s with files := g }) ∧
      d.compiled = .expression x ∧
        x.scratch = [(w.studio.settings.captionFile document).text] := by
  obtain ⟨p, style, hprepare, hfile, hcues, hstyle, hdocument⟩ := Request.exists_of_document? hr
  have hcompile := exec_compileCaptions hcaptions hstyle hfile hcues hdocument
  have hoperation : (w.studio.compileOperation ⟨.addCaptions p, none⟩).exec s = _ :=
    exec_bind_of_ok hcompile
  exact ⟨_, _, _, hprepare, exec_bind_of_ok hoperation, rfl, rfl⟩

namespace Engine

variable {e : Engine} {r : Request} {index : Int}

theorem keeps_notify {event : String} {shown : Shown} : Keeps W D (e.notify event index shown) :=
  keeps_modify fun s => ⟨.refl s.files, List.suffix_rfl, rfl⟩

/-- **Every request** has a result. -/
theorem yields_process (hr : r.IsGiven) (backend : Value) :
    Yields (e.process r t backend index) := by
  obtain ⟨kind, hkind⟩ := Request.exists_kindText hr
  unfold process
  rw [hkind]
  refine Yields.bind (fun s => ⟨kind, s, rfl⟩) fun _ => yields_modify.bind fun _ =>
    yields_outcome.bind fun outcome => ?_
  cases outcome with
  | ok _ => exact yields_modify.bind fun _ => yields_pure
  | error f =>
      exact yields_modify.bind fun _ => yields_modify.bind fun _ => yields_modify.bind fun _ =>
        yields_pure

/-- A prepared operation is attempted by rendering, if that is asked for. -/
theorem exec_perform (h : r.prepare = .ok o) :
    (e.perform r t (.string "authoritative")).exec s =
      (e.workshop.authoritative.attempt o t).exec s := by
  have hstrategies : e.strategies (.string "authoritative") = .ok [e.workshop.authoritative] := rfl
  unfold perform
  rw [h, hstrategies, exec_bind_of_ok (exec_ofFailure _), exec_bind_of_ok (exec_ofFault _),
    exec_fallBack]

section

variable (htemp : e.studio.settings.tempPath.WellFormed) (houtput : output.WellFormed)
  (hapart : output.place ∉ e.studio.settings.captionPlaces)

include htemp houtput hapart

theorem leads_perform (htarget : t.output = some output) (hs : s.WritesOnSuccess) :
    Leads (e.studio.settings.renderPlaces output) (Storage.way e.studio.settings.tempPath)
      (e.perform r t (.string "authoritative")) s
      fun outcome s' => Product.StoredAt output s'.files outcome.product := by
  have hstrategies : e.strategies (.string "authoritative") = .ok [e.workshop.authoritative] := rfl
  unfold perform
  rw [hstrategies]
  refine (keeps_ofFailure s).bind fun operation s₁ h₁ _ => ?_
  refine (meets_ofFault (fun _ => Except.ok.inj) s₁).bind ?_
  rintro _ s₂ h₂ rfl
  rw [Leads, exec_fallBack]
  exact Workshop.leads_authoritative (w := e.workshop) htemp houtput hapart htarget
    (h₂.writesOnSuccess (h₁.writesOnSuccess hs))

/-- **A request** that is done by rendering changes the file of the output, and files of captions.
Its result has no other file. -/
theorem leads_process (htarget : t.output = some output) (hs : s.WritesOnSuccess) :
    Leads (e.studio.settings.renderPlaces output) (Storage.way e.studio.settings.tempPath)
      (e.process r t (.string "authoritative") index) s
      fun result s' => Product.StoredAt output s'.files result.product := by
  unfold process
  refine (keeps_ofFault s).bind fun kind s₁ h₁ _ => (keeps_notify s₁).bind fun _ s₂ h₂ _ => ?_
  refine (leads_perform htemp houtput hapart htarget
    (h₂.writesOnSuccess (h₁.writesOnSuccess hs))).outcome.bind fun outcome s₃ h₃ houtcome => ?_
  have hresult : Product.StoredAt output s₃.files (resultOf kind index outcome).product := by
    cases outcome with
    | ok outcome => exact houtcome outcome rfl
    | error f => exact Product.storedAt_none
  -- Whatever came of the request, the rest is told only.
  refine Meets.leads (x := resultOf kind index outcome) ?_ fun s₄ h₄ =>
    hresult.changed h₄.files (Set.notMem_empty _)
  cases outcome with
  | ok outcome => exact keeps_notify.andThen fun _ => .pure rfl
  | error f =>
      exact keeps_complain.andThen fun _ => keeps_notify.andThen fun _ =>
        keeps_notify.andThen fun _ => .pure rfl

end

/-! ## Captions without a renderer -/

/-- A request whose operation fails has a failed result, and the files are as the operation left
them. -/
theorem exists_failed {backend : Value} {P : Storage → Prop} (hr : r.IsGiven)
    (h : ∀ s', s'.files = s.files → s'.launches = s.launches → s'.further = s.further →
      Fails (e.perform r t backend) s' fun s'' => P s''.files) :
    ∃ result s', (e.process r t backend index).exec s = (.ok result, s') ∧
      result.isSuccess = false ∧ P s'.files := by
  obtain ⟨kind, hkind⟩ := Request.exists_kindText hr
  obtain ⟨s₁, hnotify, hfiles, hlaunches, hfurther⟩ : ∃ s₁,
      (e.notify "before_operation" index r.shown).exec s = (.ok (), s₁) ∧ s₁.files = s.files ∧
        s₁.launches = s.launches ∧ s₁.further = s.further := ⟨_, rfl, rfl, rfl, rfl⟩
  obtain ⟨failure, s₂, hperform, hP⟩ := h s₁ hfiles hlaunches hfurther
  unfold process
  rw [hkind, exec_bind_of_ok (exec_ofFault _), exec_bind_of_ok hnotify,
    exec_bind_of_ok exec_outcome, hperform]
  exact ⟨_, _, rfl, rfl, hP⟩

/-- Without a renderer a request for captions fails, and their file is gone all the same. -/
theorem fails_perform_captions {document text : String}
    (hr : r.document? e.studio.settings = some document)
    (hsource : (Target.given? t.source).isNone = false) (houtput : t.output = some output)
    (hduration : t.duration.isSome = true) (hsound : t.hasAudio.isSome = true)
    (htemp : e.studio.settings.tempPath.WellFormed)
    (hdirs : s.files.makeDirs e.studio.settings.tempPath = .ok s.files)
    (hstored : s.files.Holds (e.studio.settings.captionFile document) text)
    (hs : s.launches.headD s.further = .missing) :
    Fails (e.perform r t (.string "authoritative")) s fun s' =>
      s'.files.entry? (e.studio.settings.captionFile document).place = none := by
  obtain ⟨o, d, x, hprepare, hdraft, hcompiled, hscratch⟩ :=
    Workshop.exists_draft_captions (w := e.workshop) (t := t) hr
      ⟨s.files, hdirs, .inl ⟨Storage.exists?_of_holds hstored, rfl⟩⟩
  rw [Fails, exec_perform hprepare,
    Workshop.exec_authoritative hsource houtput hduration hsound hdraft]
  exact Workshop.fails_renderDraft hcompiled hscratch (Path.wellFormed_child htemp document)
    hstored hs

end Engine

end Montage
