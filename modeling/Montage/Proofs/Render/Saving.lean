import Montage.Proofs.Render.Ending
import Montage.Proofs.Session

/-!
# What a rendering stores

A rendering changes the file that it writes, and no other. Where every renderer that ends well has
written its result, a rendering that ends in a path has stored a file there.

## Main definitions

* `Session.WritesOnSuccess`: every renderer that ends well has written its result.

## Main statements

* `saved_of_result`: a run that ends in a path has stored its result.
* `leads_render`: what a rendering changes, and what it has stored.
-/
namespace Montage

/-- A renderer that ends with status zero, and is not stopped before, has written its result. -/
def Launch.WritesOnSuccess : Launch → Prop
  | runs _ status hangs writes => hangs = false → status = 0 → writes = true
  | _ => True

/-- Every renderer that will be started has written its result if it ends well. -/
structure Session.WritesOnSuccess (s : Session) : Prop where
  launches : ∀ launch ∈ s.launches, launch.WritesOnSuccess
  further : s.further.WritesOnSuccess

theorem Session.Changed.writesOnSuccess {W D : Set Place} {s s' : Session} (h : Changed W D s s')
    (hs : s.WritesOnSuccess) : s'.WritesOnSuccess where
  launches launch hl := hs.launches launch (h.launches.subset hl)
  further := by rw [h.further]; exact hs.further

/-- What holds of all renderers holds of the next one that is started. -/
theorem Session.headD_of_forall {P : Launch → Prop} {s : Session}
    (hlaunches : ∀ launch ∈ s.launches, P launch) (hfurther : P s.further) :
    P (s.launches.headD s.further) := by
  cases h : s.launches with
  | nil => exact hfurther
  | cons launch rest => exact hlaunches launch (by rw [h]; exact List.mem_cons_self)

theorem Session.WritesOnSuccess.headD {s : Session} (h : s.WritesOnSuccess) :
    (s.launches.headD s.further).WritesOnSuccess := headD_of_forall h.launches h.further

variable {command : Command} {output path : Path} {timeout : Binary64} {duration : Option Number}
  {storing : Except Fault Unit} {t : Tracker} {W D : Set Place} {s : Session}

theorem Run.result_interrupted {r : Reading} {child : Child} {f : Fault} :
    (Run.interrupted command r child f).result ≠ .ok path := by
  rw [Run.interrupted]
  split_ifs <;> rintro ⟨⟩

/-- A run that ends in a path was not stopped, and its program ended with status zero. -/
theorem Run.ended_of_result {r : Reading} {child : Child} {saved : Bool}
    (h : (Run.finished command output timeout r child saved).result = .ok path) :
    path = output ∧ (Run.finished command output timeout r child saved).saved = saved ∧
      child.timer ≠ .fired ∧ child.status = some 0 := by
  rw [Run.finished] at h ⊢
  dsimp only at h ⊢
  split_ifs at h ⊢ with htimer hstatus
  · cases h
  · cases h
  · exact ⟨(Except.ok.inj h).symm, rfl, htimer, not_not.mp hstatus⟩

/-- A run that ends in a path ends in the one of its result. -/
theorem eq_of_result {launch : Launch}
    (h : (runLaunched command output timeout duration t storing launch).result = .ok path) :
    path = output := by
  cases launch with
  | missing => cases h
  | denied => cases h
  | runs lines status hangs writes =>
      rw [runLaunched] at h
      split at h
      · exact absurd h Run.result_interrupted
      · dsimp only at h
        split at h
        · exact absurd h Run.result_interrupted
        · exact (Run.ended_of_result h).1

/-- **A run that ends in a path** has stored its result. -/
theorem saved_of_result {launch : Launch} (hwrites : launch.WritesOnSuccess)
    (h : (runLaunched command output timeout duration t storing launch).result = .ok path) :
    path = output ∧ storing = .ok () ∧
      (runLaunched command output timeout duration t storing launch).saved = true := by
  cases launch with
  | missing => cases h
  | denied => cases h
  | runs lines status hangs writes =>
      have hchild : Child.spawn (if hangs then none else some status) = spawned hangs status := rfl
      rw [runLaunched, hchild] at h ⊢
      rcases hout : Reading.output ⟨[], duration, t⟩ lines with ⟨r, fault⟩
      rw [hout] at h
      cases fault with
      | some f => exact absurd h Run.result_interrupted
      | none =>
          dsimp only at h ⊢
          cases hsaves : writes && decide ((spawned hangs status).wait.status = some 0) with
          | false =>
              rw [hsaves] at h
              obtain ⟨-, -, hended⟩ := Run.ended_of_result h
              obtain ⟨hhangs, hzero⟩ := ended_wait_spawned.mp hended
              rw [hwrites hhangs hzero, hended.2] at hsaves
              cases hsaves
          | true =>
              rw [hsaves] at h
              cases storing with
              | error f => exact absurd h Run.result_interrupted
              | ok u =>
                  obtain ⟨hpath, hsaved, -⟩ := Run.ended_of_result h
                  exact ⟨hpath, rfl, hsaved⟩

/-- The run of a command that ends in the path of its result. -/
theorem exists_runLaunched {target : String} {launch : Launch} {run : Run}
    (hcommand : command.getLast? = some (.string target))
    (h : runCommand command timeout duration t storing launch = .ok run) :
    ∃ line, shellLine (reporting command) = .ok line ∧
      run = runLaunched (reporting command) (.ofString target) timeout duration (t.start line)
        storing launch := by
  rw [runCommand, hcommand] at h
  obtain ⟨line, hline, hrun⟩ := Outcome.bind_eq_ok.mp h
  exact ⟨line, hline, (Except.ok.inj hrun).symm⟩

/-- The files with what the next rendering writes, where it can be written. -/
def Session.filesWith (s : Session) (command : Command) : Except Fault Storage :=
  let target := (command.getLast?.getD .null).text
  s.files.write (.ofString target) target
    ("rendered by call " ++ digitText (s.commands ++ [reporting command]).length ++ "\n")

/-- The session after a run of a command. -/
def Session.afterRun (s : Session) (command : Command) (run : Run) : Session :=
  { s with
    files := match run.saved, s.filesWith command with
      | true, .ok files => files
      | _, _ => s.files
    launches := s.launches.drop 1
    commands := s.commands ++ [reporting command]
    journal := s.journal ++ run.tracker.journal
    calls := s.calls ++ run.tracker.calls }

/-- **What a rendering does**: its run, or the fault before it. -/
theorem exec_render : (render timeout command duration t).exec s =
    match runCommand command timeout duration t ((s.filesWith command).map fun _ => ())
      (s.launches.headD s.further) with
    | .error f => (.error (.fault f), s)
    | .ok run => (.ok run, s.afterRun command run) := by
  have hstored : s.filesWith command = s.files.write (.ofString (command.getLast?.getD .null).text)
      (command.getLast?.getD .null).text
      ("rendered by call " ++ digitText (s.commands ++ [reporting command]).length ++ "\n") := rfl
  unfold render Session.afterRun
  rw [Action.exec_bind_of_ok Action.exec_get]
  dsimp only
  rw [← hstored, Action.exec_bind, Action.exec_ofFault]
  cases runCommand command timeout duration t ((s.filesWith command).map fun _ => ())
      (s.launches.headD s.further) with
  | error f => rfl
  | ok run => rfl

/-- The file that a rendering writes holds some text then. -/
theorem Session.changed_filesWith {target : String} {files : Storage}
    (hcommand : command.getLast? = some (.string target)) (h : s.filesWith command = .ok files) :
    Storage.Changed {(Path.ofString target).place} D s.files files ∧
      ∃ text, files.Holds (.ofString target) text := by
  rw [Session.filesWith, hcommand] at h
  obtain ⟨hchanged, hholds⟩ := Storage.changed_of_write h
  exact ⟨hchanged, _, hholds⟩

/-- **A rendering** changes the file that it writes, and starts a renderer. -/
theorem changed_render {target : String} (hcommand : command.getLast? = some (.string target)) :
    Session.Changed {(Path.ofString target).place} D s
      ((render timeout command duration t).exec s).2 := by
  rw [exec_render]
  cases runCommand command timeout duration t ((s.filesWith command).map fun _ => ())
      (s.launches.headD s.further) with
  | error f => exact .refl s
  | ok run =>
      refine ⟨?_, List.drop_suffix 1 s.launches, rfl⟩
      dsimp only [Session.afterRun]
      split
      · rename_i files _ hstored
        exact (Session.changed_filesWith hcommand hstored).1
      · exact .refl s.files

/-- **Where a rendering ends in a path**, a file is stored there. -/
theorem leads_render {target : String} (hs : s.WritesOnSuccess)
    (hcommand : command.getLast? = some (.string target)) :
    Action.Leads {(Path.ofString target).place} D (render timeout command duration t) s
      fun run s' => ∀ path, run.result = .ok path →
        path = .ofString target ∧ ∃ text, s'.files.Holds path text := by
  refine ⟨changed_render hcommand, fun run hrun path hpath => ?_⟩
  rw [exec_render] at hrun ⊢
  cases hended : runCommand command timeout duration t ((s.filesWith command).map fun _ => ())
      (s.launches.headD s.further) with
  | error f =>
      rw [hended] at hrun
      cases hrun
  | ok ended =>
      rw [hended] at hrun
      obtain rfl := Except.ok.inj hrun
      obtain ⟨line, -, rfl⟩ := exists_runLaunched hcommand hended
      obtain ⟨rfl, hstoring, hsaved⟩ := saved_of_result hs.headD hpath
      obtain ⟨files, hstored, -⟩ := Outcome.map_eq_ok.mp hstoring
      refine ⟨rfl, ?_⟩
      dsimp only [Session.afterRun]
      rw [hsaved, hstored]
      exact (Session.changed_filesWith (D := ∅) hcommand hstored).2

/-- A renderer that does not exist stores nothing, and its run does not end in a path. -/
theorem unsaved_of_missing {run : Run}
    (h : runCommand command timeout duration t storing .missing = .ok run) :
    run.saved = false ∧ ∀ path, run.result ≠ .ok path := by
  rw [runCommand] at h
  split at h
  · cases h
  · obtain ⟨line, -, hrun⟩ := Outcome.bind_eq_ok.mp h
    obtain rfl := Except.ok.inj hrun
    refine ⟨rfl, ?_⟩
    rintro path ⟨⟩
  · cases h

/-- **Without a renderer** no file changes, and no rendering ends in a path. -/
theorem leads_render_missing (hs : s.launches.headD s.further = .missing) :
    Action.Leads ∅ D (render timeout command duration t) s
      fun run _ => ∀ path, run.result ≠ .ok path := by
  cases hrun : runCommand command timeout duration t ((s.filesWith command).map fun _ => ())
      (s.launches.headD s.further) with
  | error f => exact .of_error (by rw [exec_render, hrun]) (.refl s)
  | ok run =>
      have hexec : (render timeout command duration t).exec s = (.ok run, s.afterRun command run) := by
        rw [exec_render, hrun]
      rw [hs] at hrun
      obtain ⟨hsaved, hresult⟩ := unsaved_of_missing hrun
      refine .of_ok hexec ⟨?_, List.drop_suffix 1 s.launches, rfl⟩ hresult
      dsimp only [Session.afterRun]
      rw [hsaved]
      exact .refl s.files

end Montage
