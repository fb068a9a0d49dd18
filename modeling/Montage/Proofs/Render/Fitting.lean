import Montage.Proofs.Containment
import Montage.Proofs.Render.Ending
import Montage.Proofs.Render.Saving
import Montage.Render.Command

/-!
# Renderings that fit

A command is made of words, among which settings stand as they are. Such a setting may be no text,
and a time of a removal may have no binary number; then there is no command that can be written
down. The run of a command is no fault unless the renderer may not be run or tells a number that
does not fit.

## Main definitions

* `Settings.NamesRenderer`: the settings that stand in a command are texts.
* `Compiled.IsWritable`: what was compiled can be written.

## Main statements

* `isOk_renderCommand_iff`, `isWord_renderCommand_iff`: when there is a command, and when it is made
  of words.
* `contained_run_iff`: when the run of a command is no fault.
-/
namespace Montage

open Montage.Action

/-! ## Commands -/

/-- In the place of a word the value is a text, or counts as nothing. -/
def Value.IsWord (v : Value) : Prop := v.isTruthy = true → ∃ t, v = .string t

theorem Value.isWord_string (t : String) : (Value.string t).IsWord := fun _ => ⟨t, rfl⟩

theorem isWord_strings (ts : List String) : ∀ v ∈ ts.map Value.string, v.IsWord :=
  List.forall_mem_map.mpr fun t _ => Value.isWord_string t

/-- The settings that stand in a command for a picture or a film, with sound or without, are words:
the renderer and the codecs. -/
structure Settings.NamesRenderer (s : Settings) (resource : Resource) (audio : Bool) : Prop where
  renderer : s.renderer.IsWord
  video : resource ≠ .image → (s.renderValue "video_codec" (.string "libx264")).IsWord
  sound : resource ≠ .image → audio = true → (s.renderValue "audio_codec" (.string "aac")).IsWord

/-- What was compiled can be written: a plan keeps something, and its times have binary numbers. -/
def Compiled.IsWritable : Compiled → Prop
  | .expression _ => True
  | .plan p => p.spans ≠ [] ∧ ∀ span ∈ p.spans, span.isWritable = true

theorem SegmentPlan.isOk_graph_iff {p : SegmentPlan Number} {audio : Bool} :
    (p.graph audio).isOk = true ↔ (Compiled.plan p).IsWritable := by
  rw [graph, Compiled.IsWritable, ← List.all_eq_true]
  cases p.spans with
  | nil => simp
  | cons span spans => cases (span :: spans).all Span.isWritable <;> simp

theorem isOk_renderCommand_iff {s : Settings} {input output : String} {compiled : Compiled}
    {resource : Resource} {audio : Bool} :
    (renderCommand s input output compiled resource audio).isOk = true ↔ compiled.IsWritable := by
  rw [renderCommand, Outcome.isOk_bind_of_forall fun _ => rfl]
  cases compiled with
  | expression e => exact iff_of_true rfl trivial
  | plan p =>
      rw [Compiled.options, Outcome.isOk_bind_of_forall fun _ => rfl, SegmentPlan.isOk_graph_iff]

theorem ShellWord.isOk_ofValue_iff {v : Value} : (ofValue v).isOk = true ↔ v.IsWord := by
  cases v with
  | string t => exact iff_of_true rfl (Value.isWord_string t)
  | _ =>
      rw [ofValue, Value.IsWord]
      · split_ifs with htruthy
        · simp [htruthy]
        · simp [htruthy]
      · exact nofun

theorem isOk_shellLine_iff {command : Command} :
    (shellLine command).isOk = true ↔ ∀ v ∈ command, v.IsWord := by
  rw [shellLine, Outcome.isOk_map, Outcome.isOk_mapM]
  exact forall₂_congr fun v _ => ShellWord.isOk_ofValue_iff

theorem isWord_reporting_iff {command : Command} :
    (∀ v ∈ reporting command, v.IsWord) ↔ ∀ v ∈ command, v.IsWord := by
  have hsplit : command = command.dropLast ++ command.getLast?.toList := by
    rcases command.eq_nil_or_concat with rfl | ⟨init, last, rfl⟩ <;> simp
  conv_rhs => rw [hsplit]
  simp only [reporting, List.forall_mem_append, and_iff_left (isWord_strings _)]

theorem Settings.isWord_encoding_iff {s : Settings} {audio : Bool} :
    (∀ v ∈ s.encoding audio, v.IsWord) ↔
      (s.renderValue "video_codec" (.string "libx264")).IsWord ∧
        (audio = true → (s.renderValue "audio_codec" (.string "aac")).IsWord) := by
  rw [encoding, List.forall_mem_append]
  refine and_congr ?_ ?_
  · simp [Value.isWord_string]
  · cases audio <;> simp [Value.isWord_string]

/-- **A command is made of words** just if the settings in it are. -/
theorem isWord_renderCommand_iff {s : Settings} {input output : String} {compiled : Compiled}
    {resource : Resource} {audio : Bool} {command : Command}
    (h : renderCommand s input output compiled resource audio = .ok command) :
    (∀ v ∈ command, v.IsWord) ↔ s.NamesRenderer resource audio := by
  obtain ⟨filters, -, h⟩ := Outcome.bind_eq_ok.mp h
  obtain rfl := Except.ok.inj h
  have houtput : ∀ v ∈ [Value.string output], v.IsWord := isWord_strings [output]
  rw [List.forall_mem_append, List.forall_mem_append, List.forall_mem_cons, and_iff_left houtput,
    and_iff_left (isWord_strings _)]
  by_cases himage : resource = .image
  · have hframe : ∀ v ∈ [Value.string "-frames:v", .string "1"], v.IsWord :=
      isWord_strings ["-frames:v", "1"]
    rw [if_pos himage, and_iff_left hframe]
    exact ⟨fun h => ⟨h, absurd himage, absurd himage⟩, fun h => h.renderer⟩
  · have haudio : (audio && !decide (resource = .image)) = audio := by simp [himage]
    rw [if_neg himage, haudio, Settings.isWord_encoding_iff]
    constructor
    · rintro ⟨hrenderer, hvideo, hsound⟩
      exact ⟨hrenderer, fun _ => hvideo, fun _ => hsound⟩
    · exact fun h => ⟨h.renderer, h.video himage, h.sound himage⟩

/-! ## Runs -/

/-- What goes wrong with writing a file is a fault of reading. -/
theorem Storage.isReadFault_of_write {f : Storage} {p : Path} {shown text : String} {c : Fault}
    (h : f.write p shown text = .error c) : isReadFault c = true := by
  rw [write] at h
  rcases Outcome.bind_eq_error.mp h with hplace | ⟨place, -, h⟩
  · unfold filePlace at hplace
    split at hplace
    · exact Except.error.inj hplace ▸ rfl
    · exact Except.error.inj hplace ▸ rfl
    · exact Except.error.inj hplace ▸ rfl
    · split_ifs at hplace
      exact Except.error.inj hplace ▸ rfl
  · split_ifs at h
    · split at h <;> cases h
    · exact Except.error.inj h ▸ rfl
    · exact Except.error.inj h ▸ rfl

/-- The result of a renderer that cannot be stored does not let a fault escape. -/
theorem Launch.escapes_iff {launch : Launch} {duration : Option Number}
    {storing : Except Fault Unit} (h : ∀ c, storing = .error c → isReadFault c = true) :
    launch.Escapes duration storing ↔ launch.Escapes duration (.ok ()) := by
  cases launch with
  | missing | denied => rfl
  | runs lines status hangs writes =>
      refine or_congr_right (and_congr_right' <| and_congr_right' <| and_congr_right' <|
        and_congr_right' ⟨?_, nofun⟩)
      rintro ⟨c, hc, hread⟩
      exact absurd (h c hc) (by simp [hread])

/-- A run ends in its result or a refusal unless a fault escapes from it. -/
theorem RunOutcome.contained_iff {output : Path} {succeeds escapes : Prop} {run : Run}
    (h : RunOutcome output succeeds escapes run) :
    (∀ e, run.result = .error e → e.isEdit = true) ↔ ¬escapes := by
  cases h with
  | success succeeded caught result told => exact iff_of_true (by simp [result]) caught
  | refusal failed caught result told =>
      obtain ⟨e, he, -⟩ := result
      exact iff_of_true (by simp [he]) caught
  | fault failed escaped result =>
      obtain ⟨c, hc⟩ := result
      exact iff_of_false (by simp [hc]) (not_not.mpr escaped)

variable {command : Command} {timeout : Binary64} {duration : Option Number} {t : Tracker}
  {s : Session} {target : String}

theorem exec_render_fst : ((render timeout command duration t).exec s).1 =
    (runCommand command timeout duration t ((s.filesWith command).map fun _ => ())
      (s.launches.headD s.further)).mapError .fault := by
  rw [exec_render]
  cases runCommand command timeout duration t ((s.filesWith command).map fun _ => ())
      (s.launches.headD s.further) <;> rfl

/-- **The run of a command** ends in a fault just if the command cannot be written down, or the
renderer lets a fault escape. -/
theorem contained_run_iff {operation : String} {listeners : List Listener}
    (hcommand : command.getLast? = some (.string target)) :
    (∀ e, (((render timeout command duration (.of operation listeners)).exec s).1 >>= Run.result) =
        .error e → e.isEdit = true) ↔
      (∀ v ∈ command, v.IsWord) ∧ ¬(s.launches.headD s.further).Escapes duration (.ok ()) := by
  have hstored : ∀ c, ((s.filesWith command).map fun _ => ()) = .error c →
      isReadFault c = true := by
    intro c hc
    rw [Session.filesWith] at hc
    exact Storage.isReadFault_of_write (Outcome.map_eq_error.mp hc)
  rw [exec_render_fst, runCommand, hcommand, ← isWord_reporting_iff, ← isOk_shellLine_iff,
    ← Launch.escapes_iff hstored]
  dsimp only
  cases shellLine (reporting command) with
  | error c =>
      refine iff_of_false (fun h => ?_) fun h => Bool.false_ne_true h.1
      exact Bool.false_ne_true (h (.fault c) rfl)
  | ok line =>
      rw [and_iff_right (Outcome.isOk_ok)]
      exact (runLaunched_outcome (Tracker.running_start operation listeners line) _).contained_iff

end Montage
