import Montage.Proofs.Render.Reading

/-!
# How a run ends

A run of the renderer tells of its start, of the shares that are done, and of its end. The end that
is told is the end of the run: the path of the result, or a refusal. Where the program may not be
run, and where a number of its output does not fit, the run ends in a fault instead, and no end is
told.

## Main definitions

* `Run.IsTold`: the end of a run is told as it is.
* `Launch.Succeeds`: a renderer that is read to its end and ends well, in time.
* `Launch.Escapes`: a renderer by which a run ends in a fault.

## Main statements

* `runLaunched_outcome`: the three ends of a run.
* `runCommand_isTold_iff`: when the end of a run is told, and when it is the path of the result.
-/
namespace Montage

/-- The run was told from its start to its end: to the path of its result, or to the refusal. -/
def Run.IsTold (run : Run) (output : Path) : Prop :=
  ∃ last, Told run.tracker.events last ∧
    (last.kind = .complete ∧ run.result = .ok output ∨
      last.kind = .error ∧ ∃ e, run.result = .error (.edit e) ∧ e.kind = .execution)

namespace Launch

/-- The renderer is read to its end, is not stopped, and ends with status zero; its result, if it
writes one, is stored. -/
def Succeeds (duration : Option Number) (storing : Except Fault Unit) : Launch → Prop
  | runs lines status hangs writes =>
      ReadThrough duration lines ∧ hangs = false ∧ status = 0 ∧ (writes = true → storing = .ok ())
  | _ => False

/-- The renderer may not be run, or reading it or storing its result ends in a fault that is not one
of reading. -/
def Escapes (duration : Option Number) (storing : Except Fault Unit) : Launch → Prop
  | missing => False
  | denied => True
  | runs lines status hangs writes =>
      Montage.Escapes duration lines ∨
      ReadThrough duration lines ∧ hangs = false ∧ status = 0 ∧ writes = true ∧
        ∃ f, storing = .error f ∧ isReadFault f = false

end Launch

/-- The three ends of a run: its result, a refusal, or a fault. -/
inductive RunOutcome (output : Path) (succeeds escapes : Prop) (run : Run) : Prop
  | success (succeeded : succeeds) (caught : ¬escapes) (result : run.result = .ok output)
      (told : ∃ last, Told run.tracker.events last ∧ last.kind = .complete)
  | refusal (failed : ¬succeeds) (caught : ¬escapes)
      (result : ∃ e, run.result = .error (.edit e) ∧ e.kind = .execution)
      (told : ∃ last, Told run.tracker.events last ∧ last.kind = .error)
  | fault (failed : ¬succeeds) (escaped : escapes) (result : ∃ f, run.result = .error (.fault f))

variable {command : Command} {output : Path} {timeout : Binary64} {duration : Option Number}
  {storing : Except Fault Unit} {succeeds escapes : Prop} {r : Reading} {t : Tracker}
  {first : RenderEvent} {shares : List RenderEvent} {child : Child}

namespace RunOutcome

theorem isTold_iff {run : Run} (h : RunOutcome output succeeds escapes run) :
    (run.IsTold output ↔ ¬escapes) ∧ (run.result = .ok output ↔ succeeds) := by
  cases h with
  | success succeeded caught result told =>
      obtain ⟨last, htold, hlast⟩ := told
      exact ⟨iff_of_true ⟨last, htold, .inl ⟨hlast, result⟩⟩ caught, iff_of_true result succeeded⟩
  | refusal failed caught result told =>
      obtain ⟨last, htold, hlast⟩ := told
      refine ⟨iff_of_true ⟨last, htold, .inr ⟨hlast, result⟩⟩ caught, iff_of_false ?_ failed⟩
      obtain ⟨e, he, -⟩ := result
      simp [he]
  | fault failed escaped result =>
      obtain ⟨f, hf⟩ := result
      refine ⟨iff_of_false ?_ (not_not.mpr escaped), iff_of_false (by simp [hf]) failed⟩
      rintro ⟨last, -, ⟨-, hok⟩ | ⟨-, e, he, -⟩⟩
      · exact absurd (hf.symm.trans hok) nofun
      · exact absurd (hf.symm.trans he) nofun

end RunOutcome

/-- A refusal is told once. -/
theorem Run.outcome_failed (h : t.Running first shares) (hsucceeds : ¬succeeds)
    (hescapes : ¬escapes) {e : EditError} (he : e.kind = .execution) {child : Option Child}
    {saved : Bool} :
    RunOutcome output succeeds escapes { Run.failed t child e with saved } :=
  .refusal hsucceeds hescapes ⟨e, rfl, he⟩ (h.told_fail e.message)

/-- A run whose program has ended succeeds just if the program was not stopped and its status is
zero. -/
theorem Run.outcome_finished (h : r.tracker.Running first shares) {saved : Bool}
    (hsucceeds : succeeds ↔ child.timer ≠ .fired ∧ child.status = some 0) (hescapes : ¬escapes) :
    RunOutcome output succeeds escapes (Run.finished command output timeout r child saved) := by
  rw [Run.finished]
  dsimp only
  split_ifs with htimer hstatus
  · exact Run.outcome_failed h (by simp [hsucceeds, htimer]) hescapes rfl
  · exact Run.outcome_failed h (by simp [hsucceeds, hstatus]) hescapes rfl
  · exact .success (hsucceeds.mpr ⟨htimer, not_not.mp hstatus⟩) hescapes rfl (h.told_complete _)

/-- A run in which reading failed is refused just if the fault is one of reading. -/
theorem Run.outcome_interrupted (h : r.tracker.Running first shares) {f : Fault}
    (hsucceeds : ¬succeeds) (hescapes : escapes ↔ isReadFault f = false) :
    RunOutcome output succeeds escapes (Run.interrupted command r child f) := by
  rw [Run.interrupted]
  split_ifs with hread
  · exact Run.outcome_failed h hsucceeds (by simp [hescapes, hread]) rfl
  · exact .fault hsucceeds (by simpa [hescapes] using hread) ⟨f, rfl⟩

section

variable {hangs : Bool} {status : Int}

/-- The renderer as it was started. -/
def spawned (hangs : Bool) (status : Int) : Child :=
  Child.spawn (if hangs then none else some status)

/-- A renderer that hangs is stopped with a status of its own, which is not zero. -/
theorem status_wait_spawned :
    (spawned hangs status).wait.status = some 0 ↔ hangs = false ∧ status = 0 := by
  cases hangs <;> simp [spawned, Child.spawn, Child.wait, Child.stopped]

theorem ended_wait_spawned :
    ((spawned hangs status).wait.timer ≠ .fired ∧ (spawned hangs status).wait.status = some 0) ↔
      hangs = false ∧ status = 0 := by
  rw [status_wait_spawned]
  cases hangs <;> simp [spawned, Child.spawn, Child.wait]

/-- The run of a renderer whose output was read to its end. -/
theorem outcome_of_readThrough {lines : List Output} {writes : Bool}
    (h : r.tracker.Running first shares) (hread : ReadThrough duration lines)
    (hescapes : ¬Escapes duration lines) :
    RunOutcome output ((Launch.runs lines status hangs writes).Succeeds duration storing)
      ((Launch.runs lines status hangs writes).Escapes duration storing)
      (match writes && (spawned hangs status).wait.status = some 0, storing with
        | true, .error f => .interrupted command r (spawned hangs status).wait f
        | _, _ => .finished command output timeout r (spawned hangs status).wait
            (writes && (spawned hangs status).wait.status = some 0)) := by
  have hfinished (saved : Bool)
      (hstored : hangs = false → status = 0 → writes = true → storing = .ok ()) :
      RunOutcome output ((Launch.runs lines status hangs writes).Succeeds duration storing)
        ((Launch.runs lines status hangs writes).Escapes duration storing)
        (.finished command output timeout r (spawned hangs status).wait saved) := by
    refine Run.outcome_finished h ?_ ?_
    · rw [ended_wait_spawned]
      exact ⟨fun hsucceeds => ⟨hsucceeds.2.1, hsucceeds.2.2.1⟩,
        fun ⟨hhangs, hzero⟩ => ⟨hread, hhangs, hzero, hstored hhangs hzero⟩⟩
    · rintro (hescape | ⟨-, hhangs, hzero, hwrites, f, hf, -⟩)
      · exact hescapes hescape
      · exact absurd (hf.symm.trans (hstored hhangs hzero hwrites)) nofun
  cases hsaves : writes && decide ((spawned hangs status).wait.status = some 0) with
  | false =>
      refine hfinished false fun hhangs hzero hwrites => ?_
      rw [hwrites, decide_eq_true (status_wait_spawned.mpr ⟨hhangs, hzero⟩)] at hsaves
      cases hsaves
  | true =>
      obtain ⟨hwrites, hstatus⟩ : writes = true ∧ (spawned hangs status).wait.status = some 0 := by
        simpa using hsaves
      obtain ⟨hhangs, hzero⟩ := status_wait_spawned.mp hstatus
      cases storing with
      | ok _ => exact hfinished true fun _ _ _ => rfl
      | error f =>
          refine Run.outcome_interrupted h ?_ ?_
          · simp [Launch.Succeeds, hwrites]
          · simp [Launch.Escapes, hescapes, hread, hhangs, hzero, hwrites]

end

/-- **The three ends of a run** whose start was told. -/
theorem runLaunched_outcome (h : t.Running first shares) (launch : Launch) :
    RunOutcome output (launch.Succeeds duration storing) (launch.Escapes duration storing)
      (runLaunched command output timeout duration t storing launch) := by
  cases launch with
  | missing => exact Run.outcome_failed h nofun nofun rfl
  | denied => exact .fault nofun trivial ⟨_, rfl⟩
  | runs lines status hangs writes =>
      have hnone := Reading.output_eq_none_iff (r := ⟨[], duration, t⟩) lines
      have hescape := Reading.exists_escape_iff (r := ⟨[], duration, t⟩) lines
      obtain ⟨shares', hrunning⟩ := Reading.running_output (r := ⟨[], duration, t⟩) h lines
      rw [runLaunched]
      rcases hout : Reading.output ⟨[], duration, t⟩ lines with ⟨r, fault⟩
      rw [hout] at hnone hescape hrunning
      dsimp only
      cases fault with
      | some f =>
          have hread : ¬ReadThrough duration lines := fun hread => absurd (hnone.mpr hread) nofun
          refine Run.outcome_interrupted hrunning (fun hsucceeds => hread hsucceeds.1) ?_
          simp [Launch.Escapes, hread, ← hescape]
      | none =>
          have hescapes : ¬Escapes duration lines := by simp [← hescape]
          exact outcome_of_readThrough hrunning (hnone.mp rfl) hescapes

theorem mapM_ofValue_strings (words : List String) :
    (words.map Value.string).mapM ShellWord.ofValue = .ok (words.map ShellWord.quoted) := by
  induction words with
  | nil => rfl
  | cons word words ih =>
      rw [List.map_cons, List.mapM_cons, ih]
      rfl

/-- A command made of texts can be written down. -/
theorem exists_shellLine_reporting (words : List String) (target : String) :
    ∃ line, shellLine (reporting ((words ++ [target]).map Value.string)) = .ok line := by
  have hwords : reporting ((words ++ [target]).map Value.string) =
      (words ++ ["-progress", "pipe:1", "-nostats", target]).map Value.string := by
    simp [reporting]
  rw [hwords, shellLine, mapM_ofValue_strings]
  exact ⟨_, rfl⟩

/-- **The end of a run is told** unless the run escapes, and it is the path of the result just if
the renderer succeeds. -/
theorem runCommand_isTold_iff (words : List String) (target : String) (timeout : Binary64)
    (duration : Option Number) (operation : String) (listeners : List Listener)
    (storing : Except Fault Unit) (launch : Launch) :
    ∃ run, runCommand ((words ++ [target]).map Value.string) timeout duration
        (.of operation listeners) storing launch = .ok run ∧
      (run.IsTold (.ofString target) ↔ ¬launch.Escapes duration storing) ∧
      (run.result = .ok (.ofString target) ↔ launch.Succeeds duration storing) := by
  obtain ⟨line, hline⟩ := exists_shellLine_reporting words target
  have hlast : ((words ++ [target]).map Value.string).getLast? = some (.string target) := by simp
  refine ⟨runLaunched (reporting ((words ++ [target]).map Value.string)) (.ofString target) timeout
    duration ((Tracker.of operation listeners).start line) storing launch, ?_,
    (runLaunched_outcome (Tracker.running_start operation listeners line) launch).isTold_iff⟩
  rw [runCommand, hlast]
  simp only [hline]
  rfl

/-- A renderer that may not be run is not told of. -/
theorem not_isTold_denied :
    ¬∃ run,
      runCommand [.string "ffmpeg", .string "out.mp4"] 7200 none (.of "" []) (.ok ()) .denied =
        .ok run ∧ run.IsTold (.ofString "out.mp4") := by
  rintro ⟨run, hrun, last, -, ⟨-, hresult⟩ | ⟨-, e, hresult, -⟩⟩
  · obtain rfl := Except.ok.inj hrun
    cases hresult
  · obtain rfl := Except.ok.inj hrun
    cases hresult

end Montage
