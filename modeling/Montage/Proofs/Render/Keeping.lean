import Montage.Proofs.Render.Releasing

/-!
# The end of a renderer's output

The last lines that a renderer wrote are reported with the refusal of its run. Of the lines that
were read, blank ones are left out and the others are trimmed; of what is left the last few are
kept. This holds wherever reading stopped: at the end of the output, where it was broken, or behind
a line that could not be read.

## Main definitions

* `linesRead`: the lines of an output that are read.
* `shownLines`: the lines that show something, without the blanks around them.
* `IsTail`: the last elements of a list, as many as are kept.

## Main statements

* `map_linesRead_eq`, `linesRead_append_broken`: which lines are read.
* `Reading.isTail_line`, `Reading.isTail_output`: what is kept after a line, and after an output.
* `isTail_of_runCommand`: what is reported with a refusal.
-/
namespace Montage

/-- What is known of the duration after a line, if the line is read without a fault. -/
def readOn (duration : Option Number) (line : String) : Except Fault (Option Number) := do
  let duration ← learned duration line
  let _ ← progressOf line duration
  return duration

/-- The lines that are read: those in front of the end of the output or of the place where it is
broken, and none behind a line whose reading ends in a fault. -/
def linesRead : Option Number → List Output → List String
  | _, [] => []
  | _, .broken _ :: _ => []
  | duration, .line text :: rest =>
    text :: match readOn duration text.strip with
      | .ok duration => linesRead duration rest
      | .error _ => []

/-- The lines that are not blank, without the blanks around them. -/
def shownLines (lines : List String) : List String :=
  (lines.map String.strip).filter fun line => line ≠ ""

/-- The last elements of a list, as many as are kept: all of them, if there are not more. -/
structure IsTail (tail all : List String) : Prop where
  suffix : tail <:+ all
  length : tail.length = min tailLength all.length

variable {command : Command} {output : Path} {timeout : Binary64} {duration : Option Number}
  {storing : Except Fault Unit} {r : Reading} {t : Tracker} {child : Child} {lines : List Output}
  {status : Int} {hangs writes : Bool} {line text : String} {tail all : List String}

/-! ## Lines that are read -/

theorem readOn_eq_ok_iff {duration' : Option Number} : readOn duration line = .ok duration' ↔
    learned duration line = .ok duration' ∧ ∀ n ∈ duration', ¬TellsLongTime n line := by
  rw [readOn]
  cases hlearned : learned duration line with
  | error f => simp [bind, Except.bind]
  | ok known =>
      have houtcome := shareOutcome_progressOf line known
      simp only [bind, Except.bind]
      cases hshare : progressOf line known with
      | error f =>
          rw [hshare] at houtcome
          cases houtcome with
          | fault _ long _ =>
              obtain ⟨n, hn, hlong⟩ := long
              refine iff_of_false nofun ?_
              rintro ⟨heq, hfits⟩
              exact hfits n (Except.ok.inj heq ▸ hn) hlong
      | ok share =>
          rw [hshare] at houtcome
          cases houtcome with
          | report _ _ fits =>
              refine ⟨fun heq => ?_, fun h => h.1⟩
              exact ⟨heq, fun n hn => fits n (Except.ok.inj heq ▸ hn)⟩

/-- **All lines are read** where the output is read through. -/
theorem map_linesRead_eq (h : ReadThrough duration lines) :
    (linesRead duration lines).map .line = lines := by
  induction lines generalizing duration with
  | nil => rfl
  | cons out rest ih =>
      cases out with
      | broken f => exact h.elim
      | line text =>
          obtain ⟨duration', hlearned, hfits, hrest⟩ := h
          have hread := readOn_eq_ok_iff.mpr ⟨hlearned, hfits⟩
          rw [linesRead, hread, List.map_cons]
          exact congrArg (Output.line text :: ·) (ih hrest)

/-- Where an output is broken, the lines before that place are read. -/
theorem linesRead_append_broken {texts : List String} {f : Fault}
    (h : ReadThrough duration (texts.map .line)) (rest : List Output) :
    linesRead duration (texts.map .line ++ .broken f :: rest) = texts := by
  induction texts generalizing duration with
  | nil => rfl
  | cons text texts ih =>
      obtain ⟨duration', hlearned, hfits, hrest⟩ := h
      have hread := readOn_eq_ok_iff.mpr ⟨hlearned, hfits⟩
      rw [List.map_cons, List.cons_append, linesRead, hread]
      exact congrArg (text :: ·) (ih hrest)

theorem shownLines_append (texts texts' : List String) :
    shownLines (texts ++ texts') = shownLines texts ++ shownLines texts' := by
  rw [shownLines, List.map_append, List.filter_append, shownLines, shownLines]

theorem shownLines_singleton (text : String) :
    shownLines [text] = if text.strip = "" then [] else [text.strip] := by
  simp [shownLines, List.filter_singleton]

/-! ## Lines that are kept -/

theorem isTail_nil : IsTail [] [] := ⟨List.suffix_rfl, rfl⟩

/-- **One more line** takes the place of the first one that is kept, once there are enough. -/
theorem IsTail.keepLine (h : IsTail tail all) (line : String) :
    IsTail (keepLine tail line) (all ++ [line]) where
  suffix := by
    obtain ⟨before, rfl⟩ := h.suffix
    have hmore : tail ++ [line] <:+ before ++ tail ++ [line] := ⟨before, by simp⟩
    exact (List.drop_suffix _ _).trans hmore
  length := by
    have hlength := h.length
    rw [Montage.keepLine, List.length_drop, List.length_append, List.length_append,
      List.length_singleton]
    omega

namespace Reading

/-- What is kept does not depend on how the reading of the line ends. -/
theorem tail_line (r : Reading) (text : String) :
    (r.line text).1.tail = if text.strip = "" then r.tail else keepLine r.tail text.strip := by
  rw [Reading.line]
  dsimp only
  split_ifs with hblank
  · rfl
  · rw [learn_eq]
    dsimp only
    cases learned r.duration text.strip with
    | error f => rfl
    | ok duration =>
        simp only [Except.map, follow]
        cases progressOf text.strip duration with
        | error f => rfl
        | ok share => cases share <;> rfl

/-- Reading goes on behind a line just where the line is read without a fault. -/
theorem readOn_line (r : Reading) (text : String) : readOn r.duration text.strip =
    match r.line text with
    | (r', none) => .ok r'.duration
    | (_, some f) => .error f := by
  rw [readOn, Reading.line]
  dsimp only
  split_ifs with hblank
  · have hlearned : learned r.duration "" = .ok r.duration := by cases r.duration <;> rfl
    rw [hblank]
    exact readOn_eq_ok_iff.mpr ⟨hlearned, fun n _ => not_tellsLongTime (by decide)⟩
  · rw [learn_eq]
    dsimp only
    cases learned r.duration text.strip with
    | error f => rfl
    | ok duration =>
        simp only [Except.map, follow, bind, Except.bind]
        cases progressOf text.strip duration with
        | error f => rfl
        | ok share => cases share <;> rfl

/-- **After a line** the last lines that show something are kept, with this one if it does. -/
theorem isTail_line (h : IsTail r.tail all) (text : String) :
    IsTail (r.line text).1.tail (all ++ shownLines [text]) := by
  rw [tail_line, shownLines_singleton]
  split_ifs
  · rwa [List.append_nil]
  · exact h.keepLine text.strip

/-- **After an output** the last lines that show something are kept, of those that were read. -/
theorem isTail_output (h : IsTail r.tail all) (lines : List Output) :
    IsTail (r.output lines).1.tail (all ++ shownLines (linesRead r.duration lines)) := by
  have hnone : IsTail r.tail (all ++ shownLines []) := by
    rwa [show shownLines [] = [] from rfl, List.append_nil]
  induction lines generalizing r all with
  | nil => exact hnone
  | cons out rest ih =>
      cases out with
      | broken f => exact hnone
      | line text =>
          have hline := isTail_line h text
          rw [output, linesRead, readOn_line]
          generalize r.line text = o at hline
          obtain ⟨r', fault⟩ := o
          cases fault with
          | some f => exact hline
          | none =>
              have hcut (texts : List String) :
                  shownLines (text :: texts) = shownLines [text] ++ shownLines texts :=
                shownLines_append [text] texts
              rw [hcut, ← List.append_assoc]
              exact ih hline (by rwa [show shownLines [] = [] from rfl, List.append_nil])

end Reading

/-! ## Refusals -/

/-- A run that ends in a refusal reports what was kept of the output. -/
def Run.Reports (run : Run) (r : Reading) : Prop :=
  ∀ e, run.result = .error (.edit e) → e.kind = .execution ∧ e.details.get "stderr" = .string r.text

namespace Run

theorem reports_failed {message : String} {status : Option Int} {saved : Bool}
    {child : Option Child} : Reports { failed t child
      (.execution message status r.text (some command)) with saved } r := by
  rintro e he
  obtain rfl : _ = e := by simpa [failed] using he
  exact ⟨rfl, rfl⟩

theorem reports_finished {saved : Bool} :
    (finished command output timeout r child saved).Reports r := by
  rw [finished]
  dsimp only
  split_ifs
  · exact reports_failed
  · exact reports_failed
  · intro e he
    cases he

theorem reports_interrupted {f : Fault} : (interrupted command r child f).Reports r := by
  rw [interrupted]
  split_ifs
  · exact reports_failed
  · intro e he
    cases he

end Run

/-- Whatever stops a started run, it reports what was kept of the output. -/
theorem reports_runLaunched (command : Command) (output : Path) (timeout : Binary64)
    (storing : Except Fault Unit) (status : Int) (hangs writes : Bool) :
    (runLaunched command output timeout duration t storing
      (.runs lines status hangs writes)).Reports (Reading.output ⟨[], duration, t⟩ lines).1 := by
  rw [runLaunched]
  rcases Reading.output ⟨[], duration, t⟩ lines with ⟨r, fault⟩
  cases fault with
  | some f => exact Run.reports_interrupted
  | none =>
      dsimp only
      split
      · exact Run.reports_interrupted
      · exact Run.reports_finished

end Montage
