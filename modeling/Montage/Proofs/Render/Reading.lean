import Montage.Proofs.Outcome
import Montage.Proofs.Render.Tracker
import Montage.Render.Run

/-!
# Reading a renderer's output

Each line may tell how long the result is and how much of it is done. Reading stops where reading
fails, and also where a line tells a number that does not fit the binary format. What was told of
the rendering up to there is in order in any case.

## Main definitions

* `TellsLongDuration`, `TellsLongTime`: a line whose numbers do not fit.
* `ReadThrough`: the output is read to its end.
* `Escapes`: reading ends in a fault that is not one of reading.

## Main statements

* `Reading.line_outcome`: all that can come of one line.
* `Reading.running_output`: a rendering goes on while its output is read.
* `Reading.output_eq_none_iff`, `Reading.exists_escape_iff`: how reading ends.
-/
namespace Montage

/-- The line tells a duration of so many hours and minutes that they are beyond the binary range. -/
def TellsLongDuration (line : String) : Prop :=
  ∃ hours minutes seconds h m s,
    RenderOutput.duration? line.toList = some (hours, minutes, seconds) ∧
    Numeral.integer hours = .ok h ∧ Numeral.integer minutes = .ok m ∧
    Numeral.real seconds = .ok s ∧ (Number.int (h * 3600 + m * 60)).beyondReal = true

/-- The line tells the time that is done, and that time or the whole duration is beyond the binary
range. -/
def TellsLongTime (duration : Number) (line : String) : Prop :=
  ∃ digits micros, line.toList = timeKey ++ digits ∧ duration.isZero = false ∧
    Numeral.integer (String.ofList digits) = .ok micros ∧
    ((∃ f, secondsOf micros = .error f) ∨ duration.beyondReal = true)

/-- What is known of the duration after a line. -/
def learned (duration : Option Number) (line : String) : Except Fault (Option Number) :=
  match duration with
  | some n => .ok (some n)
  | none => bannerDuration? line

/-- The output is read to its end: reading does not fail, and all numbers fit. -/
def ReadThrough : Option Number → List Output → Prop
  | _, [] => True
  | _, .broken _ :: _ => False
  | duration, .line text :: rest =>
      ∃ duration', learned duration text.strip = .ok duration' ∧
        (∀ n ∈ duration', ¬TellsLongTime n text.strip) ∧ ReadThrough duration' rest

/-- Reading comes to a number that does not fit, or fails otherwise than reading does. -/
def Escapes : Option Number → List Output → Prop
  | _, [] => False
  | _, .broken f :: _ => isReadFault f = false
  | duration, .line text :: rest =>
      (duration = none ∧ TellsLongDuration text.strip) ∨
      ∃ duration', learned duration text.strip = .ok duration' ∧
        ((∃ n ∈ duration', TellsLongTime n text.strip) ∨
          (∀ n ∈ duration', ¬TellsLongTime n text.strip) ∧ Escapes duration' rest)

variable {line : String} {n : Number} {f : Fault}

namespace Numeral

theorem isReadFault_of_integer {s : String} (h : integer s = .error f) : isReadFault f = true := by
  simp only [integer] at h
  split_ifs at h <;> exact Except.error.inj h ▸ rfl

theorem isReadFault_of_real {s : String} (h : real s = .error f) : isReadFault f = true := by
  rw [real] at h
  split at h
  · cases h
  · exact Except.error.inj h ▸ rfl

end Numeral

theorem Number.toReal?_eq_error : n.toReal? = .error f ↔
    n.beyondReal = true ∧ f = .range .integerBeyondReal := by
  rw [toReal?]
  split_ifs with hn <;> simp [hn, eq_comm]


theorem exists_clockSeconds_error {hours minutes seconds : String} :
    (∃ f, clockSeconds hours minutes seconds = .error f ∧ isReadFault f = false) ↔
      ∃ h m s, Numeral.integer hours = .ok h ∧ Numeral.integer minutes = .ok m ∧
        Numeral.real seconds = .ok s ∧ (Number.int (h * 3600 + m * 60)).beyondReal = true := by
  constructor
  · rintro ⟨f, hf, hread⟩
    obtain hh | ⟨h, hh, hf⟩ := Outcome.bind_eq_error.mp hf
    · exact absurd ((Numeral.isReadFault_of_integer hh).symm.trans hread) nofun
    obtain hm | ⟨m, hm, hf⟩ := Outcome.bind_eq_error.mp hf
    · exact absurd ((Numeral.isReadFault_of_integer hm).symm.trans hread) nofun
    obtain hs | ⟨s, hs, hf⟩ := Outcome.bind_eq_error.mp hf
    · exact absurd ((Numeral.isReadFault_of_real hs).symm.trans hread) nofun
    obtain hw | ⟨w, -, hf⟩ := Outcome.bind_eq_error.mp hf
    · exact ⟨h, m, s, hh, hm, hs, (Number.toReal?_eq_error.mp hw).1⟩
    · cases hf
  · rintro ⟨h, m, s, hh, hm, hs, hbeyond⟩
    have hw := Number.toReal?_eq_error.mpr ⟨hbeyond, rfl⟩
    refine ⟨.range .integerBeyondReal, ?_, rfl⟩
    simp only [clockSeconds, hh, hm, hs, hw, bind, Except.bind]

theorem exists_bannerDuration?_error :
    (∃ f, bannerDuration? line = .error f ∧ isReadFault f = false) ↔ TellsLongDuration line := by
  rw [bannerDuration?, TellsLongDuration]
  cases RenderOutput.duration? line.toList with
  | none => simp
  | some clock =>
      obtain ⟨hours, minutes, seconds⟩ := clock
      simp only [Outcome.map_eq_error, exists_clockSeconds_error]
      simp

theorem tellsLongTime_iff {digits : List Char} (h : line.toList = timeKey ++ digits) :
    TellsLongTime n line ↔ n.isZero = false ∧
      ∃ micros, Numeral.integer (String.ofList digits) = .ok micros ∧
        ((∃ f, secondsOf micros = .error f) ∨ n.beyondReal = true) := by
  constructor
  · rintro ⟨digits', micros, hline, hzero, hmicros, hlong⟩
    obtain rfl := List.append_cancel_left (h.symm.trans hline)
    exact ⟨hzero, micros, hmicros, hlong⟩
  · rintro ⟨hzero, micros, hmicros, hlong⟩
    exact ⟨digits, micros, h, hzero, hmicros, hlong⟩

theorem not_tellsLongTime (h : timeKey.isPrefixOf line.toList = false) : ¬TellsLongTime n line := by
  rintro ⟨digits, -, hline, -⟩
  rw [hline, List.isPrefixOf_iff_prefix.mpr (List.prefix_append _ _)] at h
  cases h

theorem isReadFault_of_secondsOf {micros : Int} (h : secondsOf micros = .error f) :
    isReadFault f = false := by
  rw [secondsOf] at h
  split at h
  · exact Except.error.inj h ▸ rfl
  · cases h

/-- What comes of a line, when the duration is known or not: a share may be reported, or a number
does not fit. -/
inductive ShareOutcome (duration : Option Number) (line : String) :
    Except Fault (Option Binary64) → Prop
  | report (share : Option Binary64) (number : ∀ p ∈ share, p ≠ .nan)
      (fits : ∀ n ∈ duration, ¬TellsLongTime n line) : ShareOutcome duration line (.ok share)
  | fault (f : Fault) (long : ∃ n ∈ duration, TellsLongTime n line)
      (range : isReadFault f = false) : ShareOutcome duration line (.error f)

theorem shareOutcome_progressOf (line : String) (duration : Option Number) :
    ShareOutcome duration line (progressOf line duration) := by
  unfold progressOf
  by_cases hend : line = "progress=end"
  · rw [if_pos hend]
    exact .report _ (by decide) fun n _ => not_tellsLongTime (by rw [hend]; decide)
  rw [if_neg hend]
  split
  · rename_i n hkey
    obtain ⟨digits, hdigits⟩ := List.isPrefixOf_iff_prefix.mp hkey
    have hlong := tellsLongTime_iff (n := n) hdigits.symm
    split_ifs with hzero
    · exact .report _ (by simp) (by simp [hlong, hzero])
    rw [← hdigits, List.drop_left]
    split
    · rename_i hmicros
      exact .report _ (by simp) (by simp [hlong, hmicros])
    · rename_i micros hmicros
      cases hseconds : secondsOf micros with
      | error f =>
          refine .fault f ⟨n, rfl, hlong.mpr ?_⟩ (isReadFault_of_secondsOf hseconds)
          exact ⟨by simpa using hzero, micros, hmicros, .inl ⟨f, hseconds⟩⟩
      | ok seconds =>
          cases htotal : n.toReal? with
          | error f =>
              obtain ⟨hbeyond, rfl⟩ := Number.toReal?_eq_error.mp htotal
              refine .fault _ ⟨n, rfl, hlong.mpr ?_⟩ rfl
              exact ⟨by simpa using hzero, micros, hmicros, .inr hbeyond⟩
          | ok total =>
              refine .report _ ?_ ?_
              · simpa using (Binary64.isShare_smaller_larger _).ne_nan
              · have hfits : n.beyondReal ≠ true := fun hbeyond => by
                  rw [Number.toReal?_eq_error.mpr ⟨hbeyond, rfl⟩] at htotal
                  cases htotal
                simp [hlong, hmicros, hseconds, hfits]
  · rename_i hkey
    refine .report _ (by simp) fun n hn => not_tellsLongTime ?_
    exact Bool.eq_false_iff.mpr fun h => hkey n h hn

namespace Reading

variable {r : Reading}

theorem learn_eq : r.learn line = (learned r.duration line).map fun duration =>
    { r with duration } := by
  obtain ⟨tail, duration, tracker⟩ := r
  cases duration <;> rfl

/-- What comes of reading one line: the rest of the output is read on, with what is then known of
the duration, or reading ends in a fault. -/
inductive LineOutcome (r : Reading) (line : String) : Reading × Option Fault → Prop
  | unlearned (r' : Reading) (f : Fault) (duration : learned r.duration line = .error f)
      (tracker : r'.tracker = r.tracker) : LineOutcome r line (r', some f)
  | unfollowed (r' : Reading) (f : Fault) (duration : learned r.duration line = .ok r'.duration)
      (long : ∃ n ∈ r'.duration, TellsLongTime n line) (range : isReadFault f = false)
      (tracker : r'.tracker = r.tracker) : LineOutcome r line (r', some f)
  | read (r' : Reading) (duration : learned r.duration line = .ok r'.duration)
      (fits : ∀ n ∈ r'.duration, ¬TellsLongTime n line)
      (tracker : r'.tracker = r.tracker ∨
        ∃ p, p ≠ .nan ∧ r'.tracker = r.tracker.update p "Rendering" none) :
      LineOutcome r line (r', none)

/-- **All that can come of one line.** -/
theorem line_outcome (text : String) : LineOutcome r text.strip (r.line text) := by
  rw [Reading.line]
  dsimp only
  split_ifs with hblank
  · have hlearned : learned r.duration text.strip = .ok r.duration := by
      rw [hblank]
      cases r.duration <;> rfl
    exact .read r hlearned (fun n _ => not_tellsLongTime (by rw [hblank]; decide)) (.inl rfl)
  · rw [learn_eq]
    dsimp only
    cases hduration : learned r.duration text.strip with
    | error f => exact .unlearned _ f hduration rfl
    | ok duration =>
        have houtcome := shareOutcome_progressOf text.strip duration
        simp only [Except.map, follow]
        cases hshare : progressOf text.strip duration with
        | error f =>
            rw [hshare] at houtcome
            cases houtcome with
            | fault _ long range => exact .unfollowed _ f hduration long range rfl
        | ok share =>
            rw [hshare] at houtcome
            cases houtcome with
            | report _ number fits =>
                cases share with
                | none => exact .read _ hduration fits (.inl rfl)
                | some p => exact .read _ hduration fits (.inr ⟨p, number p rfl, rfl⟩)

/-- **A rendering goes on** while its output is read. -/
theorem running_output {first : RenderEvent} {shares : List RenderEvent}
    (h : r.tracker.Running first shares) (lines : List Output) :
    ∃ shares', (r.output lines).1.tracker.Running first shares' := by
  induction lines generalizing r shares with
  | nil => exact ⟨shares, h⟩
  | cons out rest ih =>
      cases out with
      | broken f => exact ⟨shares, h⟩
      | line text =>
          rw [output]
          have hline := line_outcome (r := r) text
          generalize r.line text = o at hline
          cases hline with
          | unlearned r' f _ htracker => exact ⟨shares, by rw [htracker]; exact h⟩
          | unfollowed r' f _ _ _ htracker => exact ⟨shares, by rw [htracker]; exact h⟩
          | read r' _ _ htracker =>
              obtain htracker | ⟨p, hp, htracker⟩ := htracker
              · exact ih (htracker ▸ h)
              · obtain ⟨more, hmore⟩ := h.update hp "Rendering" none
                exact ih (htracker ▸ hmore)

/-- Reading ends without a fault just where the output is read through. -/
theorem output_eq_none_iff (lines : List Output) :
    (r.output lines).2 = none ↔ ReadThrough r.duration lines := by
  induction lines generalizing r with
  | nil => simp [output, ReadThrough]
  | cons out rest ih =>
      cases out with
      | broken f => simp [output, ReadThrough]
      | line text =>
          rw [output, ReadThrough]
          have hline := line_outcome (r := r) text
          generalize r.line text = o at hline
          cases hline with
          | unlearned r' f hduration _ => simp [hduration]
          | unfollowed r' f hduration long _ _ =>
              obtain ⟨n, hn, hlong⟩ := long
              simp only [reduceCtorEq, hduration, false_iff]
              rintro ⟨d, hd, hfits, -⟩
              exact hfits n (Except.ok.inj hd ▸ hn) hlong
          | read r' hduration fits _ =>
              dsimp only
              rw [ih, hduration]
              simpa using fun _ => fits

/-- Reading ends in a fault that is not one of reading just where a number does not fit, or where
reading fails like that. -/
theorem exists_escape_iff (lines : List Output) :
    (∃ f, (r.output lines).2 = some f ∧ isReadFault f = false) ↔ Escapes r.duration lines := by
  induction lines generalizing r with
  | nil => simp [output, Escapes]
  | cons out rest ih =>
      cases out with
      | broken f => simp [output, Escapes]
      | line text =>
          rw [output, Escapes]
          have hline := line_outcome (r := r) text
          generalize r.line text = o at hline
          cases hline with
          | unlearned r' f hduration _ =>
              cases hknown : r.duration with
              | some n => simp [learned, hknown] at hduration
              | none =>
                  simp only [learned, hknown] at hduration
                  simp [learned, hduration, ← exists_bannerDuration?_error]
          | unfollowed r' f hduration long range _ =>
              refine iff_of_true ⟨f, rfl, range⟩ (.inr ⟨r'.duration, hduration, .inl long⟩)
          | read r' hduration fits _ =>
              have hshort : ¬(r.duration = none ∧ TellsLongDuration text.strip) := by
                rintro ⟨hknown, hlong⟩
                obtain ⟨f, hf, -⟩ := exists_bannerDuration?_error.mpr hlong
                rw [hknown, learned, hf] at hduration
                cases hduration
              dsimp only
              rw [ih, hduration]
              constructor
              · exact fun h => .inr ⟨_, rfl, .inr ⟨fits, h⟩⟩
              · rintro (h | ⟨d, hd, ⟨n, hn, hlong⟩ | ⟨-, h⟩⟩)
                · exact absurd h hshort
                · exact absurd hlong (fits n (Except.ok.inj hd ▸ hn))
                · exact Except.ok.inj hd ▸ h

end Reading

end Montage
