import Montage.Proofs.Caption.Sharing
import Montage.Proofs.Engine.Observing

/-!
# How a request changes the stored files

A request changes the stored files by the steps of its document: it writes the file of its captions,
unless there is one, and where it renders, it writes its output and deletes that file again. Each
strategy is followed step by step, then all of them, and then the whole request. An expression is
handed back only where nothing is rendered, and the file that it lists is there then.

## Main definitions

* `Product.Offers`: what is handed back without a rendering.

## Main statements

* `Workshop.moves_renderDraft`, `Workshop.moves_authoritative`: the steps of a rendering.
* `Engine.moves_process`: the steps of a request.
-/
namespace Montage

open Montage.Action

/-- The expression, if the product is one. -/
def Product.expression? : Product → Option Expression
  | compiled (.expression e) => some e
  | _ => none

/-- Only the preview is asked for. -/
def isPreview (backend : Value) : Bool := (Backend.ofValue backend).toOption = some .preview

/-- What is handed back without a rendering: an expression with the file of the document, which is
there. -/
def Product.Offers (settings : Settings) (document : Option String) (output : Option Path)
    (f : Storage) (product : Option Product) : Prop :=
  ∀ e, product.bind expression? = some e →
    output = none ∧ f.HasListed settings document e.scratch

variable {settings : Settings} {document : Option String} {output : Option Path} {σ : Session}
  {o : Operation} {t : Target} {p : Path}

theorem Product.offers_of_none {f : Storage} {product : Option Product}
    (h : product.bind expression? = none) : Offers settings document output f product := by
  intro e he
  rw [h] at he
  cases he

/-! ## Rendering -/

/-- A rendering writes its output at most. -/
theorem moves_render {command : Command} {timeout : Binary64} {duration : Option Number}
    {tracker : Tracker} (hcommand : command.getLast? = some (.string p.text))
    (hp : p.WellFormed) :
    Moves (settings.FileStep document (some p)) (render timeout command duration tracker) σ
      fun _ _ => True := by
  refine ⟨?_, fun _ _ => trivial⟩
  rw [exec_render]
  cases runCommand command timeout duration tracker ((σ.filesWith command).map fun _ => ())
      (σ.launches.headD σ.further) with
  | error f => exact .refl
  | ok run =>
      dsimp only [Session.afterRun]
      split
      · rename_i files _ hwrite
        rw [Session.filesWith, hcommand] at hwrite
        dsimp only [Option.getD_some, Value.text] at hwrite
        rw [Path.ofString_text hp] at hwrite
        exact .single (.rendered rfl hwrite)
      · exact .refl

/-- The file of the document is deleted at most. -/
theorem moves_removeScratch {paths : List String} (htemp : settings.tempPath.WellFormed)
    (houtput : output ≠ none)
    (hpaths : ∀ path ∈ paths, ∃ d, document = some d ∧ path = (settings.captionFile d).text) :
    Moves (settings.FileStep document output) (removeScratch paths) σ fun _ _ => True := by
  induction paths generalizing σ with
  | nil => exact .pure trivial
  | cons path paths ih =>
      obtain ⟨⟨d, hd, rfl⟩, hrest⟩ := List.forall_mem_cons.mp hpaths
      refine Moves.bind (P := fun _ _ => True) ⟨?_, fun _ _ => trivial⟩ fun _ _ _ => ih hrest
      rw [exec_bind_of_ok exec_files, Settings.ofString_captionFile htemp]
      cases hremove : σ.files.remove (settings.captionFile d) with
      | ok files => exact .single (.removed hd houtput hremove)
      | error f => exact .refl

namespace Workshop

variable {w : Workshop}

/-- The files of a draft are there; an outcome without a draft has nothing to show. -/
def DraftHasListed (settings : Settings) (document : Option String) (f : Storage) :
    Except Outcome Draft → Prop
  | .ok d => f.HasListed settings document d.compiled.scratch
  | .error outcome => outcome.product = none

/-- An outcome without a draft hands nothing back. -/
theorem offers_of_skipped {f : Storage} {outcome : Outcome}
    (h : DraftHasListed settings document f (.error outcome)) :
    Product.Offers settings document output f outcome.product := by
  refine Product.offers_of_none ?_
  rw [show outcome.product = none from h]
  rfl

/-- A draft that is not rendered is handed back with its file. -/
theorem offers_of_compiled {f : Storage} {d : Draft}
    (h : DraftHasListed settings document f (.ok d)) :
    Product.Offers settings document none f (some (.compiled d.compiled)) := by
  intro e he
  refine ⟨rfl, ?_⟩
  obtain ⟨compiled, warnings, metadata⟩ := d
  cases compiled with
  | plan plan => cases he
  | expression e' =>
      obtain rfl := Option.some.inj he
      exact h

theorem moves_draftRemoval {p : RemovalParams} {E : Storage → Storage → Prop} :
    Moves E (draftRemoval p t) σ fun r f => DraftHasListed settings document f r := by
  unfold draftRemoval
  split
  · exact .bind_of_eq rfl fun _ _ _ => .pure rfl
  · exact .bind_of_eq rfl fun _ _ _ => .pure Storage.hasListed_nil

theorem moves_draft :
    Moves (w.studio.settings.FileStep (o.document? w.studio.settings) output) (w.draft o t) σ
      fun r f => DraftHasListed w.studio.settings (o.document? w.studio.settings) f r := by
  unfold draft
  split
  · exact moves_draftRemoval
  · refine (Studio.moves_compileOperation o).bind fun e s₁ he => ?_
    split_ifs
    · exact .bind_of_eq rfl fun _ _ _ => .pure rfl
    · exact .pure he

/-- **Rendering a draft** writes its output, and deletes the file of its document. -/
theorem moves_renderDraft {d : Draft} (htemp : w.studio.settings.tempPath.WellFormed)
    (hp : p.WellFormed)
    (hd : DraftHasListed w.studio.settings document σ.files (.ok d)) :
    Moves (w.studio.settings.FileStep document (some p)) (w.renderDraft o t p d) σ
      fun outcome f =>
        Product.Offers w.studio.settings document (some p) f outcome.product := by
  have hpaths : ∀ path ∈ d.compiled.scratch, ∃ document', document = some document' ∧
      path = (w.studio.settings.captionFile document').text := by
    intro path hpath
    obtain ⟨document', hdocument, htext, -⟩ := hd path hpath
    exact ⟨document', hdocument, htext⟩
  refine (moves_of_meets (meets_ofFault fun _ => getLast?_renderCommand)).bind
    fun command s₁ hcommand => ?_
  refine (moves_render hcommand hp).outcome.bind fun run s₂ _ => ?_
  refine (moves_removeScratch htemp (Option.some_ne_none p) hpaths).bind fun _ s₃ _ => ?_
  exact .bind_of_eq rfl fun path _ _ => .pure (Product.offers_of_none rfl)

/-- **An operation** that is compiled or rendered changes the files by the steps of its document. -/
theorem moves_authoritative (htemp : w.studio.settings.tempPath.WellFormed)
    (houtput : ∀ p, t.output = some p → p.WellFormed) :
    Moves (w.studio.settings.FileStep (o.document? w.studio.settings) t.output)
      (w.authoritative.attempt o t) σ fun outcome f =>
        Product.Offers w.studio.settings (o.document? w.studio.settings) t.output f
          outcome.product := by
  rw [authoritative]
  dsimp only
  cases hout : t.output with
  | none =>
      refine moves_draft.bind fun r s₁ hr => ?_
      cases r with
      | error outcome => exact .pure (offers_of_skipped hr)
      | ok d => exact .pure (offers_of_compiled hr)
  | some p =>
      dsimp only
      split_ifs
      · exact moves_refuse
      · refine (moves_of_meets keeps_probe).bind fun t s₁ _ => ?_
        refine moves_draft.bind fun r s₂ hr => ?_
        cases r with
        | error outcome => exact .pure (offers_of_skipped hr)
        | ok d => exact moves_renderDraft htemp (houtput p hout) hr

theorem moves_preview :
    Moves (w.studio.settings.FileStep document output) (w.preview.attempt o t) σ
      fun outcome f => Product.Offers w.studio.settings document output f outcome.product := by
  rw [preview]
  dsimp only
  split
  · exact moves_refuse
  · refine (moves_of_meets (Studio.remarks_previewOperation o t.resource).keeps).bind
      fun d s₁ _ => ?_
    exact .bind_of_eq rfl fun _ _ _ => .bind_of_eq rfl fun _ _ _ =>
      .pure (Product.offers_of_none rfl)

theorem moves_passthrough :
    Moves (w.studio.settings.FileStep document output) (w.passthrough.attempt o t) σ
      fun outcome f => Product.Offers w.studio.settings document output f outcome.product := by
  rw [passthrough]
  dsimp only
  split
  · exact .bind_of_eq rfl fun _ _ _ => .bind_of_eq rfl fun _ _ _ =>
      .pure (Product.offers_of_none rfl)
  · exact .bind_of_eq rfl fun _ _ _ => .bind_of_eq rfl fun _ _ _ =>
      .pure (Product.offers_of_none rfl)
  · exact moves_refuse

end Workshop

/-! ## Requests -/

/-- Strategies one after another change the files by the steps of each of them. -/
theorem moves_tryEach {E : Storage → Storage → Prop} {Q : Option Product → Storage → Prop}
    {ss : List Strategy}
    (h : ∀ strategy ∈ ss, ∀ s, Moves E (strategy.attempt o t) s fun outcome f =>
      Q outcome.product f) (count : Nat) (failures : List String) (last : Option EditError) :
    Moves E (tryEach count o t failures last ss) σ fun outcome f => Q outcome.product f := by
  induction ss generalizing σ failures last with
  | nil =>
      cases last with
      | some e => exact moves_refuse
      | none => exact moves_faulted
  | cons strategy ss ih =>
      obtain ⟨hstrategy, hss⟩ := List.forall_mem_cons.mp h
      rw [tryEach]
      refine (hstrategy σ).outcome.bind fun r s₁ hr => ?_
      cases r with
      | ok outcome => exact .pure (hr outcome rfl)
      | error failure =>
          cases failure with
          | edit e => exact ih hss _ _
          | fault f => exact moves_faulted

namespace Engine

variable {e : Engine} {r : Request} {backend : Value} {index : Int}

/-- The strategies of a backend change the files by the steps of what is asked for. -/
theorem moves_strategies (htemp : e.studio.settings.tempPath.WellFormed) {ss : List Strategy}
    (hss : e.strategies backend = .ok ss) (houtput : ∀ p, output = some p → p.WellFormed)
    (hrenders : isPreview backend = false →
      document = o.document? e.studio.settings ∧ output = t.output) :
    ∀ strategy ∈ ss, ∀ s, Moves (e.studio.settings.FileStep document output)
      (strategy.attempt o t) s fun outcome f =>
        Product.Offers e.studio.settings document output f outcome.product := by
  obtain ⟨b, hb, rfl⟩ := Outcome.map_eq_ok.mp hss
  intro strategy hstrategy s
  have hpreview : isPreview backend = decide (b = .preview) := by
    rw [isPreview, hb]
    simp [Except.toOption]
  have hauthoritative : b ≠ .preview → Moves (e.studio.settings.FileStep document output)
      (e.workshop.authoritative.attempt o t) s fun outcome f =>
        Product.Offers e.studio.settings document output f outcome.product := by
    intro h
    obtain ⟨rfl, rfl⟩ := hrenders (hpreview.trans (decide_eq_false h))
    exact Workshop.moves_authoritative (w := e.workshop) htemp houtput
  -- The preview and the last resort change no file, so that any document and output will do.
  cases b with
  | preview =>
      obtain rfl := List.mem_singleton.mp hstrategy
      exact Workshop.moves_preview (w := e.workshop)
  | authoritative =>
      obtain rfl := List.mem_singleton.mp hstrategy
      exact hauthoritative (by decide)
  | auto =>
      obtain rfl | rfl | rfl : strategy = e.workshop.preview ∨
          strategy = e.workshop.authoritative ∨ strategy = e.workshop.passthrough := by
        simpa [Backend.strategies] using hstrategy
      · exact Workshop.moves_preview (w := e.workshop)
      · exact hauthoritative (by decide)
      · exact Workshop.moves_passthrough (w := e.workshop)

/-- **Doing an operation** changes the files by the steps of what is asked for. -/
theorem moves_perform (htemp : e.studio.settings.tempPath.WellFormed)
    (houtput : ∀ p, output = some p → p.WellFormed)
    (hrenders : isPreview backend = false →
      document = r.prepare.toOption.bind (Operation.document? e.studio.settings) ∧
        output = t.output) :
    Moves (e.studio.settings.FileStep document output) (e.perform r t backend) σ fun outcome f =>
      Product.Offers e.studio.settings document output f outcome.product := by
  have hprepare : Moves (e.studio.settings.FileStep document output) (ofFailure r.prepare) σ
      fun o _ => r.prepare = .ok o := moves_of_eq rfl fun _ h => h
  refine hprepare.bind fun o s₁ ho => ?_
  have hstrategies : Moves (e.studio.settings.FileStep document output)
      (ofFault (e.strategies backend)) s₁ fun ss _ => e.strategies backend = .ok ss :=
    moves_of_eq rfl fun _ h => Outcome.mapError_eq_ok.mp h
  refine hstrategies.bind fun ss s₂ hss => ?_
  have hdocument : isPreview backend = false →
      document = o.document? e.studio.settings ∧ output = t.output := by
    intro h
    rw [ho] at hrenders
    exact hrenders h
  exact moves_tryEach
    (Q := fun product f => Product.Offers e.studio.settings document output f product)
    (moves_strategies htemp hss houtput hdocument) _ _ _

/-- The result of a request offers what its outcome does, and reporting it changes no file. -/
theorem moves_process (htemp : e.studio.settings.tempPath.WellFormed)
    (houtput : ∀ p, output = some p → p.WellFormed)
    (hrenders : isPreview backend = false →
      document = r.prepare.toOption.bind (Operation.document? e.studio.settings) ∧
        output = t.output) :
    Moves (e.studio.settings.FileStep document output) (e.process r t backend index) σ
      fun result f => Product.Offers e.studio.settings document output f result.product := by
  unfold process
  -- Observers change no file.
  refine .bind_of_eq rfl fun kind s₁ _ => .bind_of_eq rfl fun _ s₂ _ => ?_
  refine (moves_perform htemp houtput hrenders).outcome.bind fun outcome s₃ houtcome => ?_
  cases outcome with
  | ok outcome => exact .bind_of_eq rfl fun _ _ hs => .pure (hs ▸ houtcome outcome rfl)
  | error f =>
      exact .bind_of_eq rfl fun _ _ _ => .bind_of_eq rfl fun _ _ _ => .bind_of_eq rfl fun _ _ _ =>
        .pure (Product.offers_of_none rfl)

end Engine

end Montage
