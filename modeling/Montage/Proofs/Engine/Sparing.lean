import Montage.Proofs.Engine.Moving
import Montage.Proofs.Engine.Numbering

/-!
# Files that a sequence spares

A sequence writes its steps beside its output, deletes files of captions that it has drawn, copies
the last rendered file to the output, and deletes the rendered files. Every other file stays what it
is, whatever becomes of the requests, and even if the sequence fails. This goes for the source of a
sequence as for any file. But nothing keeps the source from being named like a step; then it is
overwritten, and deleted in the end.

## Main definitions

* `Target.rendersTo?`: the output, if anything can be rendered.
* `Target.LeavesAlone`: what a sequence writes and deletes lies apart from a file.

## Main statements

* `Engine.returns_process_product`: a request has no other file for its result than its output.
* `Engine.spares_runStep`, `Engine.spares_processAll`: one step, and all steps.
* `Engine.lookup_runSequence`: a whole sequence leaves a file alone that lies apart.
-/
namespace Montage

open Montage.Action

/-- The output, unless only the preview is asked for. -/
def Target.rendersTo? (t : Target) (backend : Value) : Option Path :=
  if isPreview backend then none else t.output

/-- What a sequence of requests writes and deletes lies apart from a file: the output and the files
of the steps beside it, and the files of captions that are rendered. -/
structure Target.LeavesAlone (t : Target) (settings : Settings) (requests : List Request)
    (backend : Value) (file : Path) : Prop where
  wellFormed : ∀ output, t.rendersTo? backend = some output → output.WellFormed
  output : ∀ output, t.rendersTo? backend = some output → output.place ≠ file.place
  steps : ∀ output, t.rendersTo? backend = some output → ∀ i < requests.length,
    (output.stepPath i).place ≠ file.place
  captions : t.rendersTo? backend ≠ none → ∀ r ∈ requests, ∀ d,
    r.prepare.toOption.bind (Operation.document? settings) = some d →
      file.place ≠ (settings.captionFile d).place

/-- The product is the file of the output, if it is a file at all. -/
def Product.IsFileOf (output : Option Path) (product : Option Product) : Prop :=
  ∀ path, product.bind Product.file? = some path → output = some path

variable {w : Workshop} {o : Operation} {t : Target} {output : Option Path} {file : Path}
  {s : Session} {e : Engine} {r : Request} {backend : Value} {index : Int} {p : Progression}

/-! ## The files of results -/

theorem Product.isFileOf_of_eq_none {product : Option Product}
    (h : product.bind Product.file? = none) : Product.IsFileOf output product := by
  intro path hpath
  rw [h] at hpath
  cases hpath

theorem returns_render {command : Command} {timeout : Binary64} {duration : Option Number}
    {tracker : Tracker} {target : String} (hcommand : command.getLast? = some (.string target)) :
    Returns (render timeout command duration tracker) fun run =>
      ∀ path, run.result = .ok path → path = .ofString target := by
  intro s run hrun path hpath
  rw [exec_render] at hrun
  split at hrun
  · cases hrun
  · rename_i ended hended
    obtain rfl := Except.ok.inj hrun
    obtain ⟨line, -, rfl⟩ := exists_runLaunched hcommand hended
    exact eq_of_result hpath

namespace Workshop

theorem returns_renderDraft {d : Draft} {path : Path} (hpath : path.WellFormed) :
    Returns (w.renderDraft o t path d) fun outcome =>
      Product.IsFileOf (some path) outcome.product := by
  refine (returns_ofFault fun _ => getLast?_renderCommand).bind fun command hcommand => ?_
  refine (returns_render hcommand).outcome.bind fun run hrun => .after fun _ => ?_
  refine (returns_ofFailure fun _ => Outcome.bind_eq_ok.mp).bind ?_
  intro result ⟨ended, hended, hresult⟩
  refine .pure fun product hproduct => ?_
  obtain rfl := Option.some.inj hproduct
  rw [hrun ended hended result hresult, Path.ofString_text hpath]

theorem returns_authoritative (houtput : ∀ path, t.output = some path → path.WellFormed) :
    Returns (w.authoritative.attempt o t) fun outcome =>
      Product.IsFileOf t.output outcome.product := by
  have hskipped : ∀ {output} {outcome : Outcome}, DraftFor w.studio.settings (.error outcome) →
      Product.IsFileOf output outcome.product := by
    intro output outcome h
    rw [show outcome.product = none from h]
    exact Product.isFileOf_of_eq_none rfl
  rw [authoritative]
  dsimp only
  cases hout : t.output with
  | none =>
      refine meets_draft.returns.bind fun draft hdraft => ?_
      cases draft with
      | error outcome => exact .pure (hskipped hdraft)
      | ok d => exact .pure (Product.isFileOf_of_eq_none rfl)
  | some path =>
      dsimp only
      split_ifs
      · exact returns_refuse
      · refine .after fun t => meets_draft.returns.bind fun draft hdraft => ?_
        cases draft with
        | error outcome => exact .pure (hskipped hdraft)
        | ok d => exact returns_renderDraft (houtput path hout)

theorem returns_preview : Returns (w.preview.attempt o t) fun outcome =>
    Product.IsFileOf output outcome.product := by
  rw [preview]
  dsimp only
  split
  · exact returns_refuse
  · exact .after fun _ => .after fun _ => .after fun _ => .pure (Product.isFileOf_of_eq_none rfl)

theorem returns_passthrough : Returns (w.passthrough.attempt o t) fun outcome =>
    Product.IsFileOf output outcome.product := by
  rw [passthrough]
  dsimp only
  split
  · exact .after fun _ => .after fun _ => .pure (Product.isFileOf_of_eq_none rfl)
  · exact .after fun _ => .after fun _ => .pure (Product.isFileOf_of_eq_none rfl)
  · exact returns_refuse

end Workshop

theorem returns_tryEach {Q : Option Product → Prop} {ss : List Strategy}
    (h : ∀ strategy ∈ ss, Returns (strategy.attempt o t) fun outcome => Q outcome.product)
    (count : Nat) (failures : List String) (last : Option EditError) :
    Returns (tryEach count o t failures last ss) fun outcome => Q outcome.product := by
  induction ss generalizing failures last with
  | nil =>
      cases last with
      | some e => exact returns_refuse
      | none => exact returns_faulted
  | cons strategy ss ih =>
      obtain ⟨hstrategy, hss⟩ := List.forall_mem_cons.mp h
      rw [tryEach]
      refine hstrategy.outcome.bind fun result hresult => ?_
      cases result with
      | ok outcome => exact .pure (hresult outcome rfl)
      | error failure =>
          cases failure with
          | edit e => exact ih hss _ _
          | fault f => exact returns_faulted

namespace Engine

theorem returns_strategies (houtput : ∀ path, t.rendersTo? backend = some path → path.WellFormed)
    {ss : List Strategy} (hss : e.strategies backend = .ok ss) :
    ∀ strategy ∈ ss, Returns (strategy.attempt o t) fun outcome =>
      Product.IsFileOf (t.rendersTo? backend) outcome.product := by
  obtain ⟨b, hb, rfl⟩ := Outcome.map_eq_ok.mp hss
  intro strategy hstrategy
  have hpreview : isPreview backend = decide (b = .preview) := by
    rw [isPreview, hb]
    simp [Except.toOption]
  have hauthoritative (hb : b ≠ .preview) : Returns (e.workshop.authoritative.attempt o t)
      fun outcome => Product.IsFileOf (t.rendersTo? backend) outcome.product := by
    have hrenders : t.rendersTo? backend = t.output :=
      if_neg (by rw [hpreview]; simpa using hb)
    rw [hrenders] at houtput ⊢
    exact Workshop.returns_authoritative houtput
  cases b with
  | preview =>
      obtain rfl := List.mem_singleton.mp hstrategy
      exact Workshop.returns_preview
  | authoritative =>
      obtain rfl := List.mem_singleton.mp hstrategy
      exact hauthoritative (by decide)
  | auto =>
      obtain rfl | rfl | rfl : strategy = e.workshop.preview ∨
          strategy = e.workshop.authoritative ∨ strategy = e.workshop.passthrough := by
        simpa [Backend.strategies] using hstrategy
      · exact Workshop.returns_preview
      · exact hauthoritative (by decide)
      · exact Workshop.returns_passthrough

/-- **The result of a request** has no file but the output, and none if only the preview is asked
for. -/
theorem returns_process_product
    (houtput : ∀ path, t.rendersTo? backend = some path → path.WellFormed) :
    Returns (e.process r t backend index) fun result =>
      Product.IsFileOf (t.rendersTo? backend) result.product := by
  have hperform : Returns (e.perform r t backend) fun outcome =>
      Product.IsFileOf (t.rendersTo? backend) outcome.product := by
    refine .after fun operation => ?_
    refine (returns_ofFault fun _ h => h).bind fun ss hss => ?_
    exact returns_tryEach (returns_strategies houtput hss) _ _ _
  unfold process
  refine .after fun kind => .after fun _ => hperform.outcome.bind fun outcome houtcome => ?_
  cases outcome with
  | ok outcome => exact .after fun _ => .pure (houtcome outcome rfl)
  | error f =>
      refine .after fun _ => .after fun _ => .after fun _ => .pure ?_
      exact Product.isFileOf_of_eq_none rfl

/-! ## Steps of a sequence -/

/-- **A request** spares a file that is no output of it, and no file of captions that it renders. -/
theorem spares_process (htemp : e.studio.settings.tempPath.WellFormed)
    (hformed : ∀ path, t.rendersTo? backend = some path → path.WellFormed)
    (houtput : ∀ path, t.rendersTo? backend = some path → path.place ≠ file.place)
    (hcaptions : t.rendersTo? backend ≠ none → ∀ d,
      r.prepare.toOption.bind (Operation.document? e.studio.settings) = some d →
        file.place ≠ (e.studio.settings.captionFile d).place) :
    Moves (Storage.Spares file) (e.process r t backend index) s fun result _ =>
      Product.IsFileOf (t.rendersTo? backend) result.product := by
  have hmoves : Moves (e.studio.settings.FileStep
        (r.prepare.toOption.bind (Operation.document? e.studio.settings)) (t.rendersTo? backend))
      (e.process r t backend index) s fun result f => Product.Offers e.studio.settings
        (r.prepare.toOption.bind (Operation.document? e.studio.settings)) (t.rendersTo? backend) f
        result.product :=
    moves_process htemp hformed fun hrenders =>
      ⟨rfl, if_neg (by rw [hrenders]; exact Bool.false_ne_true)⟩
  have hspares : ∀ f g, e.studio.settings.FileStep
      (r.prepare.toOption.bind (Operation.document? e.studio.settings)) (t.rendersTo? backend) f g →
        f.Spares file g :=
    fun f g hstep => hstep.spares (fun d hd hrenders => hcaptions hrenders d hd) houtput
  exact ((hmoves.weaken hspares).and_returns (returns_process_product hformed)).mono
    fun _ _ h => h.2

/-- The rendered files lie apart from a file, and there are none where nothing can be rendered. -/
def RendersApart (t : Target) (backend : Value) (file : Path) (renders : List Path) : Prop :=
  ∀ path ∈ renders, t.rendersTo? backend ≠ none ∧ path.place ≠ file.place

theorem eq_of_outputFor? {output : Option Path} (h : t.outputFor? index = .ok output) :
    output = t.output.map (·.stepPath index) ∧ ∀ path, t.output = some path → path.parts ≠ [] := by
  cases hout : t.output with
  | none =>
      rw [Target.outputFor?, hout] at h
      exact ⟨(Except.ok.inj h).symm, by simp⟩
  | some path =>
      have hparts : path.parts ≠ [] := by
        intro hnil
        rw [Target.outputFor?, hout] at h
        simp [Path.withName?, hnil] at h
      rw [Target.outputFor?_eq hout hparts] at h
      exact ⟨(Except.ok.inj h).symm, fun q hq => Option.some.inj hq ▸ hparts⟩

/-- A request that writes beside the output of a sequence renders only if the sequence does. -/
theorem exists_of_rendersTo? {u : Target} {path : Path}
    (hu : u.output = t.output.map (·.stepPath index)) (h : u.rendersTo? backend = some path) :
    ∃ output, t.output = some output ∧ t.rendersTo? backend = some output ∧
      output.stepPath index = path := by
  rw [Target.rendersTo?] at h ⊢
  split_ifs at h ⊢
  rw [hu] at h
  obtain ⟨output, hout, hstep⟩ := Option.map_eq_some_iff.mp h
  exact ⟨output, hout, hout, hstep⟩

section

variable {requests : List Request} (htemp : e.studio.settings.tempPath.WellFormed)
  (h : t.LeavesAlone e.studio.settings requests backend file)

include htemp h

/-- **One step** of a sequence spares a file that lies apart. -/
theorem spares_runStep (hr : r ∈ requests) (hindex : p.results.length < requests.length)
    (hp : RendersApart t backend file p.renders) :
    Moves (Storage.Spares file) (e.runStep t backend p r) s fun p' _ =>
      p'.results.length = p.results.length + 1 ∧ RendersApart t backend file p'.renders := by
  have houtput : Moves (Storage.Spares file) (ofFault (t.outputFor? (nextIndex p))) s
      fun output _ => t.outputFor? (nextIndex p) = .ok output :=
    moves_of_eq rfl fun _ hok => Outcome.mapError_eq_ok.mp hok
  refine houtput.bind fun output s₁ houtput => ?_
  obtain ⟨rfl, hparts⟩ := eq_of_outputFor? houtput
  generalize hu : ({ p.current with output := t.output.map (·.stepPath (nextIndex p)) } : Target) = u
  have hout : u.output = t.output.map (·.stepPath (nextIndex p)) := by rw [← hu]
  have hformed : ∀ path, u.rendersTo? backend = some path → path.WellFormed := by
    intro path hpath
    obtain ⟨output, houtput, hrenders, rfl⟩ := exists_of_rendersTo? hout hpath
    exact Path.wellFormed_stepPath (h.wellFormed output hrenders) (hparts output houtput)
  have happart : ∀ path, u.rendersTo? backend = some path →
      t.rendersTo? backend ≠ none ∧ path.place ≠ file.place := by
    intro path hpath
    obtain ⟨output, -, hrenders, rfl⟩ := exists_of_rendersTo? hout hpath
    exact ⟨by rw [hrenders]; exact Option.some_ne_none output, h.steps output hrenders _ hindex⟩
  have hcaptions : u.rendersTo? backend ≠ none → ∀ d,
      r.prepare.toOption.bind (Operation.document? e.studio.settings) = some d →
        file.place ≠ (e.studio.settings.captionFile d).place := by
    intro hne
    obtain ⟨path, hpath⟩ := Option.ne_none_iff_exists'.mp hne
    exact h.captions (happart path hpath).1 r hr
  refine (spares_process htemp hformed (fun path hpath => (happart path hpath).2) hcaptions).bind
    fun result s₂ hproduct => ?_
  have hnext : (advanceBy p result).results.length = p.results.length + 1 ∧
      RendersApart t backend file (advanceBy p result).renders := by
    refine ⟨by rw [advanceBy_results, List.length_append, List.length_singleton], ?_⟩
    intro path hpath
    rw [advanceBy_renders, List.mem_append, Option.mem_toList] at hpath
    rcases hpath with hpath | hpath
    · exact hp path hpath
    · rw [EditResult.rendered?] at hpath
      split_ifs at hpath
      exact happart path (hproduct path hpath)
  cases result.isSuccess with
  | true => exact .pure hnext
  | false => exact .bind_of_eq rfl fun _ _ _ => .pure hnext

/-- **All steps** of a sequence spare it, after other steps. -/
theorem spares_runSteps {rest : List Request} (hrest : rest ⊆ requests)
    (hlength : p.results.length + rest.length ≤ requests.length)
    (hp : RendersApart t backend file p.renders) :
    Moves (Storage.Spares file) (rest.foldlM (e.runStep t backend) p) s fun p' _ =>
      RendersApart t backend file p'.renders := by
  induction rest generalizing p s with
  | nil => exact .pure hp
  | cons r rest ih =>
      obtain ⟨hr, hrest⟩ := List.cons_subset.mp hrest
      rw [List.length_cons] at hlength
      rw [List.foldlM_cons]
      refine (spares_runStep htemp h hr (by omega) hp).bind fun p' s' hp' => ?_
      exact ih hrest (by rw [hp'.1]; omega) hp'.2

theorem spares_processAll : Moves (Storage.Spares file) (e.processAll requests t backend) s
    fun p _ => RendersApart t backend file p.renders := by
  refine spares_runSteps htemp h (List.Subset.refl _) ?_ nofun
  simp

end

/-! ## The end of a sequence -/

/-- Rendered files that lie apart are deleted without it. -/
theorem spares_removeRenders {renders : List Path} {output : Path}
    (h : ∀ path ∈ renders, path.place ≠ file.place) :
    Moves (Storage.Spares file) (removeRenders renders output) s fun _ _ => True := by
  rw [removeRenders]
  have hfiltered : ∀ path ∈ renders.filter (· ≠ output), path.place ≠ file.place :=
    fun path hpath => h path (List.mem_of_mem_filter hpath)
  generalize renders.filter (· ≠ output) = paths at hfiltered ⊢
  induction paths generalizing s with
  | nil => exact .pure trivial
  | cons path paths ih =>
      obtain ⟨hpath, hpaths⟩ := List.forall_mem_cons.mp hfiltered
      refine Moves.bind (P := fun _ _ => True) ⟨?_, fun _ _ => trivial⟩ fun _ _ _ => ih hpaths
      rw [exec_bind_of_ok exec_files]
      cases hremove : s.files.remove path with
      | ok files =>
          have hspares := (Storage.changed_of_remove (D := ∅) hremove).spares (p := file) hpath.symm
          exact .single hspares
      | error f => exact .refl

theorem spares_deliver (h : RendersApart t backend file p.renders)
    (houtput : ∀ output, t.rendersTo? backend = some output → output.place ≠ file.place) :
    Moves (Storage.Spares file) (deliver t p) s fun _ _ => True := by
  rw [deliver]
  split
  · rename_i last output hlast hout
    have hrenders : t.rendersTo? backend = some output := by
      have hne := (h last (List.mem_of_getLast? hlast)).1
      rw [Target.rendersTo?] at hne ⊢
      split_ifs at hne ⊢
      · exact absurd rfl hne
      · exact hout
    refine moves_changeFiles fun g hcopy => ⟨?_, ?_⟩
    · exact (Storage.changed_of_copy (D := ∅) hcopy).spares (houtput output hrenders).symm
    · exact spares_removeRenders fun path hpath => (h path hpath).2
  · exact .pure trivial

/-- **A sequence leaves a file alone** that lies apart from what it writes and deletes, whatever
becomes of its requests: the file is there afterwards with the same content. -/
theorem lookup_runSequence (htemp : e.studio.settings.tempPath.WellFormed)
    {requests : List Request} (h : t.LeavesAlone e.studio.settings requests backend file)
    (hfile : s.files.HasFile file) :
    ((e.runSequence requests t backend).exec s).2.files.lookup file = s.files.lookup file := by
  have hmoves : Moves (Storage.Spares file) (e.runSequence requests t backend) s
      fun _ _ => True := by
    rw [runSequence_eq]
    refine (spares_processAll htemp h).bind fun p s₁ hp => ?_
    exact (spares_deliver hp h.output).bind fun _ _ _ => .pure trivial
  have hspares : ∀ f g, Relation.ReflTransGen (Storage.Spares file) f g → f.Spares file g := by
    intro f g hsteps
    induction hsteps with
    | refl => exact .refl file f
    | tail _ hstep ih => exact ih.trans hstep
  exact hspares _ _ hmoves.1 hfile

/-! ## Films that are rotated twice -/

theorem leavesAlone_film : film.LeavesAlone .default [rotation, rotation] (.string "authoritative")
    (.ofString "in.mp4") where
  wellFormed output h := by
    obtain rfl := Option.some.inj h
    exact Path.wellFormed_ofString _
  output output h := by
    obtain rfl := Option.some.inj h
    decide
  steps output h i hi := by
    obtain rfl := Option.some.inj h
    obtain rfl | rfl : i = 0 ∨ i = 1 :=
      Nat.le_one_iff_eq_zero_or_eq_one.mp (Nat.le_of_lt_succ hi)
    · decide
    · decide
  captions _ r hr d hd := by
    obtain rfl : r = rotation := by simpa using hr
    rw [prepare_rotation] at hd
    cases hd

/-- A film is left alone when it is rotated twice. -/
theorem lookup_film :
    plainEngine.studio.settings.tempPath.WellFormed ∧
      film.LeavesAlone .default [rotation, rotation] (.string "authoritative")
        (.ofString "in.mp4") ∧
      (filmSession .plain).files.HasFile (.ofString "in.mp4") ∧
      ((plainEngine.runSequence [rotation, rotation] film (.string "authoritative")).exec
          (filmSession .plain)).2.files.lookup (.ofString "in.mp4") =
        (filmSession .plain).files.lookup (.ofString "in.mp4") := by
  have hholds : (filmSession .plain).files.Holds (.ofString "in.mp4") "v" :=
    Storage.holds_iff.mpr ⟨Storage.locate_name (by decide) (by decide), .inl rfl⟩
  have hfile : (filmSession .plain).files.HasFile (.ofString "in.mp4") :=
    Storage.hasFile_of_holds hholds
  exact ⟨wellFormed_tempPath_default, leavesAlone_film, hfile,
    lookup_runSequence wellFormed_tempPath_default leavesAlone_film hfile⟩

/-- A film that is named like the first step of a sequence to `out.mp4`. -/
def stepFilm : Target :=
  ⟨some "out.step00.mp4", none, some (.ofString "out.mp4"), .video, some (.int 10), some true⟩

/-- That film is stored, and the renderer ends well without touching it. -/
def stepFilmSession : Session :=
  .of ⟨[(["out.step00.mp4"], .text "v")]⟩ [.runs [] 0 false false] []

/-- The film that is named like a step is taken for what that step rendered. -/
theorem exec_processAll_stepFilm :
    ∃ p s', (plainEngine.processAll [rotation] stepFilm (.string "authoritative")).exec
        stepFilmSession = (.ok p, s') ∧
      p.renders = [.ofString "out.step00.mp4"] ∧ s'.files = stepFilmSession.files := by
  have hgiven : ∀ r ∈ [rotation], r.IsGiven := by simp [rotation, Request.IsGiven]
  have houtput : ∀ output, stepFilm.output = some output → output.parts ≠ [] := parts_output_film
  obtain ⟨p, s', hexec, -, -⟩ :=
    exists_processAll plainEngine (.string "authoritative") stepFilmSession hgiven houtput
  refine ⟨p, s', hexec, ?_, ?_⟩
  · have h : ((plainEngine.processAll [rotation] stepFilm (.string "authoritative")).exec
        stepFilmSession).1.toOption.map (·.renders) = some [.ofString "out.step00.mp4"] := by
      decide +kernel
    rw [hexec] at h
    exact Option.some.inj h
  · have h : ((plainEngine.processAll [rotation] stepFilm (.string "authoritative")).exec
        stepFilmSession).2.files = stepFilmSession.files := by decide +kernel
    rwa [hexec] at h

/-- **A film is lost** that is named like a step: it is deleted in the end. -/
theorem not_spared_stepFilm :
    stepFilmSession.files.Holds (.ofString "out.step00.mp4") "v" ∧
      stepFilm.output ≠ stepFilm.source.map Path.ofString ∧
      ((plainEngine.runSequence [rotation] stepFilm (.string "authoritative")).exec
        stepFilmSession).2.files.lookup (.ofString "out.step00.mp4") = none := by
  have hholds : stepFilmSession.files.Holds (.ofString "out.step00.mp4") "v" :=
    Storage.holds_iff.mpr ⟨Storage.locate_name (by decide) (by decide), .inl rfl⟩
  obtain ⟨p, s', hexec, hrenders, hfiles⟩ := exec_processAll_stepFilm
  refine ⟨hholds, by decide, ?_⟩
  obtain ⟨g, hcopy, hcopied, -⟩ := Storage.exists_copy (p := .ofString "out.mp4") hholds
    (Storage.locate_name (by decide) (by decide)) (by decide) (by decide)
  have hkept : ∀ path ∈ [Path.ofString "out.step00.mp4"], ∃ text, g.Holds path text := by
    rw [List.forall_mem_singleton]
    exact ⟨"v", hcopied.holds (by decide) hholds⟩
  obtain ⟨final, hremove, -, hgone⟩ := exec_removeRenders (.ofString "out.mp4")
    { s' with files := g } (by decide) hkept (List.pairwise_singleton _ _)
  have hdeliver : (deliver stepFilm p).exec s' = (.ok (), final) := by
    rw [deliver, hrenders]
    change (files >>= fun f => ofFault (f.copy (.ofString "out.step00.mp4") (.ofString "out.mp4")) >>=
      fun g => setFiles g >>= fun _ => _).exec s' = _
    rw [exec_bind_of_ok exec_files, hfiles, hcopy, exec_bind_of_ok (exec_ofFault _),
      exec_bind_of_ok (exec_setFiles g)]
    exact hremove
  rw [runSequence_eq, exec_bind_of_ok hexec, exec_bind_of_ok hdeliver]
  exact Storage.lookup_eq_none (hgone _ (List.mem_singleton_self _))

end Engine

end Montage
