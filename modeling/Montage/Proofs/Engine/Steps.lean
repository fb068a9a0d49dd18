import Montage.Engine.Sequence
import Montage.Proofs.Edit.StepPath
import Montage.Proofs.Engine.Processing

/-!
# The steps of a sequence

Each step of a sequence reads what the last step before it rendered, and writes a file of its own
beside the output. These files stay until the end, and the output is left alone until then, whatever
becomes of each step.

## Main definitions

* `Passage`: one step of a sequence with its result, and the sessions before and after it.
* `Passage.IsStep`: a step is done on the right media, in the session that the steps before it left.
* `Reached`: what holds of the stored files after some steps.

## Main statements

* `Reached.concat`: what one more step keeps.
* `Engine.exists_step`, `Engine.exists_steps`: one more step, and all steps.
-/
namespace Montage

/-- One step of a sequence: what was requested of which media, what came of it, and the sessions
before and after it. -/
structure Passage where
  request : Request
  target : Target
  result : EditResult
  before : Session
  after : Session

namespace Passage

/-- The file that the step rendered, if it did. -/
def rendered? (p : Passage) : Option Path :=
  if p.result.isSuccess then p.result.product.bind Product.file? else none

/-- The session in which the next step starts: a request that was not completed is noted. -/
def left (p : Passage) : Session :=
  if p.result.isSuccess then p.after
  else
    let note : JournalEntry := ⟨.warning, sequenceSource, Engine.stepNote p.request p.result⟩
    { p.after with journal := p.after.journal ++ [note] }

end Passage

/-- The files that steps rendered, in order. -/
def rendersOf (steps : List Passage) : List Path := steps.filterMap Passage.rendered?

/-- The session after steps that began in `s`. -/
def sessionAfter (s : Session) (steps : List Passage) : Session :=
  (steps.getLast?.map Passage.left).getD s

/-- The step is done after the steps `done`: in the session that they left, on what the last one of
them rendered, and with an output of its own. The length and the sound of the media are those of the
original before the first rendering, and unknown after it. -/
structure Passage.IsStep (e : Engine) (original : Target) (s : Session) (done : List Passage)
    (p : Passage) : Prop where
  before : p.before = sessionAfter s done
  processed : (e.process p.request p.target (.string "authoritative") done.length).exec p.before =
    (.ok p.result, p.after)
  source : p.target.source = ((rendersOf done).getLast?.map Path.text).or original.source
  output : original.outputFor? done.length = .ok p.target.output
  duration : p.target.duration = if rendersOf done = [] then original.duration else none
  hasAudio : p.target.hasAudio = if rendersOf done = [] then original.hasAudio else none
  publicId : p.target.publicId = original.publicId
  resource : p.target.resource = original.resource

/-- The place of the output is neither the one of a file of captions, nor on the way to them. -/
structure Settings.Spares (s : Settings) (output : Path) : Prop where
  captions : output.place ∉ s.captionPlaces
  way : output.place ∉ Storage.way s.tempPath

open Montage.Action

variable {e : Engine} {original : Target} {output : Path} {s : Session} {done steps : List Passage}
  {p : Passage} {r : Request}

/-! ## The progression of a sequence -/

theorem Passage.files_left (p : Passage) : p.left.files = p.after.files := by
  rw [left]
  split_ifs <;> rfl

theorem rendersOf_concat : rendersOf (done ++ [p]) = rendersOf done ++ p.rendered?.toList := by
  rw [rendersOf, List.filterMap_append, rendersOf]
  cases h : p.rendered? <;> simp [h]

theorem sessionAfter_concat : sessionAfter s (done ++ [p]) = p.left := by
  rw [sessionAfter, List.getLast?_concat]
  rfl

/-- No step writes to the place of a file of captions. -/
theorem place_stepPath_notMem {settings : Settings} {n : Nat} :
    (output.stepPath n).place ∉ settings.captionPlaces := by
  rintro ⟨document, hplace⟩
  exact Path.place_stepPath_ne_child settings.tempPath document hplace

/-- The media that the next request is applied to. -/
def mediaAfter (original : Target) (done : List Passage) : Target :=
  (rendersOf done).getLast?.elim original original.advance

/-- How far a sequence has come after steps. -/
def progressionOf (original : Target) (done : List Passage) : Progression :=
  ⟨mediaAfter original done, done.map Passage.result, rendersOf done⟩

theorem nextIndex_progressionOf :
    Engine.nextIndex (progressionOf original done) = (done.length : Int) := by
  rw [Engine.nextIndex, progressionOf, List.length_map]

theorem mediaAfter_advance {path : Path} :
    (mediaAfter original done).advance path = original.advance path := by
  rw [mediaAfter]
  cases (rendersOf done).getLast? <;> rfl

theorem advanceBy_progressionOf :
    Engine.advanceBy (progressionOf original done) p.result =
      progressionOf original (done ++ [p]) := by
  have hresults : (done ++ [p]).map Passage.result = done.map Passage.result ++ [p.result] := by
    simp
  rw [progressionOf, progressionOf, mediaAfter, mediaAfter, rendersOf_concat, hresults,
    Engine.advanceBy]
  dsimp only
  split
  · rename_i path hsuccess hfile
    have hrendered : p.rendered? = some path := by rw [Passage.rendered?, if_pos hsuccess, hfile]
    have hadvance : ((rendersOf done).getLast?.elim original original.advance).advance path =
        original.advance path := mediaAfter_advance
    rw [hrendered, hadvance, Option.toList_some, List.getLast?_concat]
    rfl
  · rename_i hnone
    have hrendered : p.rendered? = none := by
      rw [Passage.rendered?]
      split_ifs with hsuccess
      · exact Option.eq_none_iff_forall_ne_some.mpr fun path hfile => hnone path hsuccess hfile
      · rfl
    rw [hrendered, Option.toList_none, List.append_nil]

section

variable {step : Option Path} (hstep : original.outputFor? done.length = .ok step)
  (htarget : p.target = { mediaAfter original done with output := step })
  (hbefore : p.before = sessionAfter s done)
  (hprocess : (e.process p.request p.target (.string "authoritative") done.length).exec p.before =
    (.ok p.result, p.after))

include hstep htarget hbefore hprocess

/-- A step on the media after others reads what was rendered last. -/
theorem isStep_of_processed : p.IsStep e original s done := by
  have hlast : (rendersOf done = [] ∧ mediaAfter original done = original) ∨
      ∃ path, (rendersOf done).getLast? = some path ∧
        mediaAfter original done = original.advance path := by
    rw [mediaAfter]
    cases hlast : (rendersOf done).getLast? with
    | none => exact .inl ⟨List.getLast?_eq_none_iff.mp hlast, rfl⟩
    | some path => exact .inr ⟨path, rfl, rfl⟩
  obtain ⟨hnil, hmedia⟩ | ⟨path, hpath, hmedia⟩ := hlast
  · refine ⟨hbefore, hprocess, ?_, ?_, ?_, ?_, ?_, ?_⟩ <;> simp [htarget, hstep, hmedia, hnil]
  · have hne : rendersOf done ≠ [] := by
      rintro hnil
      simp [hnil] at hpath
    refine ⟨hbefore, hprocess, ?_, ?_, ?_, ?_, ?_, ?_⟩ <;>
      simp [htarget, hstep, hmedia, hpath, hne, Target.advance]

theorem Engine.exec_runStep :
    (e.runStep original (.string "authoritative") (progressionOf original done) p.request).exec
      (sessionAfter s done) = (.ok (progressionOf original (done ++ [p])), p.left) := by
  rw [hbefore, htarget] at hprocess
  unfold runStep
  rw [nextIndex_progressionOf, hstep, exec_bind_of_ok (exec_ofFault _)]
  refine (exec_bind_of_ok hprocess).trans ?_
  rw [← advanceBy_progressionOf, Passage.left]
  cases p.result.isSuccess <;> rfl

end

/-! ## One step -/

/-- What holds after the steps `done`: the output is as it was, and every file that was rendered is
still there, under its own name. -/
structure Reached (e : Engine) (original : Target) (output : Path) (s : Session)
    (done : List Passage) : Prop where
  writes : (sessionAfter s done).WritesOnSuccess
  untouched : Storage.entry? (sessionAfter s done).files output.place = s.files.entry? output.place
  stored : ∀ (i : Nat) p path, done[i]? = some p → p.rendered? = some path →
    path = output.stepPath i ∧
      ∃ text, p.after.files.Holds path text ∧ (sessionAfter s done).files.Holds path text
  steps : ∀ (i : Nat) p, done[i]? = some p → p.IsStep e original s (done.take i)

theorem getElem?_concat_eq_some {α : Type} {l : List α} {a b : α} {i : Nat}
    (h : (l ++ [a])[i]? = some b) : i < l.length ∧ l[i]? = some b ∨ i = l.length ∧ a = b := by
  rcases lt_or_ge i l.length with hi | hi
  · exact .inl ⟨hi, by rwa [List.getElem?_append_left hi] at h⟩
  · rw [List.getElem?_append_right hi, List.getElem?_singleton] at h
    split_ifs at h with hzero
    exact .inr ⟨by omega, Option.some.inj h⟩

namespace Reached

theorem nil (hs : s.WritesOnSuccess) : Reached e original output s [] := by
  refine ⟨hs, rfl, fun i p path h => ?_, fun i p h => ?_⟩
  all_goals
    rw [List.getElem?_nil] at h
    cases h

/-- One more step, on the files that changed where it renders. -/
theorem concat (h : Reached e original output s done) (hstep : p.IsStep e original s done)
    (hchanged : Session.Changed (e.studio.settings.renderPlaces (output.stepPath done.length))
      (Storage.way e.studio.settings.tempPath) p.before p.after)
    (hstored : Product.StoredAt (output.stepPath done.length) p.after.files p.result.product)
    (hname : output.NamesFile) (hspares : e.studio.settings.Spares output) :
    Reached e original output s (done ++ [p]) := by
  rw [hstep.before] at hchanged
  -- Every older file, and the output, lies apart from the places that the step may change.
  have hleft : (sessionAfter s (done ++ [p])).files = p.after.files := by
    rw [sessionAfter_concat, Passage.files_left]
  refine ⟨?_, ?_, fun i q path hq hpath => ?_, fun i q hq => ?_⟩
  · have hwrites := hchanged.writesOnSuccess h.writes
    rw [sessionAfter_concat, Passage.left]
    split_ifs
    · exact hwrites
    · exact ⟨hwrites.launches, hwrites.further⟩
  · rw [hleft, ← h.untouched]
    refine hchanged.files.entry?_eq (Settings.notMem_renderPlaces ?_ hspares.captions) hspares.way
    exact (Path.place_stepPath_ne hname).symm
  · rw [hleft]
    obtain ⟨hi, hold⟩ | ⟨rfl, rfl⟩ := getElem?_concat_eq_some hq
    · obtain ⟨rfl, text, hafter, hnow⟩ := h.stored i q path hold hpath
      refine ⟨rfl, text, hafter, hchanged.files.holds (Settings.notMem_renderPlaces ?_ ?_) hnow⟩
      · exact fun hplace => hi.ne (Path.place_stepPath_injective hplace)
      · exact place_stepPath_notMem
    · have hfile : p.result.product.bind Product.file? = some path := by
        rw [Passage.rendered?] at hpath
        split_ifs at hpath
        exact hpath
      obtain ⟨hplace, text, htext⟩ := hstored path hfile
      exact ⟨hplace, text, htext, htext⟩
  · obtain ⟨hi, hold⟩ | ⟨rfl, rfl⟩ := getElem?_concat_eq_some hq
    · rw [List.take_append_of_le_length hi.le]
      exact h.steps i q hold
    · rw [List.take_left]
      exact hstep

end Reached

section

variable (houtput : original.output = some output) (hname : output.NamesFile)
  (htemp : e.studio.settings.tempPath.WellFormed) (hspares : e.studio.settings.Spares output)

include houtput hname htemp hspares

/-- **One more step** is done on the right media, and keeps what the steps before it rendered. -/
theorem Engine.exists_step (h : Reached e original output s done) (hr : r.IsGiven) :
    ∃ p : Passage, p.request = r ∧
      (e.runStep original (.string "authoritative") (progressionOf original done) r).exec
        (sessionAfter s done) = (.ok (progressionOf original (done ++ [p])), p.left) ∧
      Reached e original output s (done ++ [p]) := by
  have hstep : original.outputFor? done.length = .ok (some (output.stepPath done.length)) :=
    Target.outputFor?_eq houtput hname.parts_ne_nil _
  obtain ⟨result, after, hprocess⟩ : ∃ result after,
      (e.process r { mediaAfter original done with output := some (output.stepPath done.length) }
        (.string "authoritative") done.length).exec (sessionAfter s done) = (.ok result, after) :=
    Engine.yields_process hr _ _
  obtain ⟨p, rfl, htarget, rfl, hbefore, rfl⟩ : ∃ p : Passage, p.request = r ∧
      p.target = { mediaAfter original done with output := some (output.stepPath done.length) } ∧
      p.result = result ∧ p.before = sessionAfter s done ∧ p.after = after :=
    ⟨⟨r, _, result, _, after⟩, rfl, rfl, rfl, rfl, rfl⟩
  rw [← htarget, ← hbefore] at hprocess
  have hleads : Leads (e.studio.settings.renderPlaces (output.stepPath done.length))
      (Storage.way e.studio.settings.tempPath)
      (e.process p.request p.target (.string "authoritative") done.length) p.before
      fun result s' => Product.StoredAt (output.stepPath done.length) s'.files result.product :=
    Engine.leads_process htemp (Path.wellFormed_stepPath hname.wellFormed hname.parts_ne_nil)
      place_stepPath_notMem (htarget ▸ rfl) (hbefore ▸ h.writes)
  rw [Leads, hprocess] at hleads
  obtain ⟨hchanged, hstored⟩ := hleads
  exact ⟨p, rfl, Engine.exec_runStep hstep htarget hbefore hprocess,
    h.concat (isStep_of_processed hstep htarget hbefore hprocess) hchanged (hstored _ rfl) hname
      hspares⟩

/-- **All steps** of a sequence, after steps that were done before. -/
theorem Engine.exists_steps {requests : List Request} (h : Reached e original output s done)
    (hrequests : ∀ r ∈ requests, r.IsGiven) :
    ∃ steps : List Passage, steps.map Passage.request = requests ∧
      (requests.foldlM (e.runStep original (.string "authoritative"))
        (progressionOf original done)).exec (sessionAfter s done) =
          (.ok (progressionOf original (done ++ steps)), sessionAfter s (done ++ steps)) ∧
      Reached e original output s (done ++ steps) := by
  induction requests generalizing done with
  | nil => exact ⟨[], rfl, by rw [List.append_nil]; rfl, by rwa [List.append_nil]⟩
  | cons r requests ih =>
      obtain ⟨hr, hrest⟩ := List.forall_mem_cons.mp hrequests
      obtain ⟨p, rfl, hstep, hnext⟩ := Engine.exists_step houtput hname htemp hspares h hr
      obtain ⟨steps, rfl, hsteps, hreached⟩ := ih hnext hrest
      rw [List.append_assoc, List.singleton_append] at hsteps hreached
      refine ⟨p :: steps, rfl, ?_, hreached⟩
      rw [List.foldlM_cons, exec_bind_of_ok hstep, ← hsteps, sessionAfter_concat]

end

end Montage
