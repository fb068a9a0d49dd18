import Montage.Number.Numeral
import Montage.Tools

/-!
# What a renderer writes

The renderer tells how long its source is, and how far it has come, in lines among others. The time
that is done is a number of millionths of a second.

## Main definitions

* `Montage.bannerDuration?`: the duration in a line.
* `Montage.progressOf`: the share that a line reports as done.
-/

namespace Montage

open Text (isBlank isDecimalDigit)

namespace RenderOutput

/-- The decimal digits at the head of a text. -/
def digits (cs : List Char) : List Char := cs.takeWhile isDecimalDigit

/-- Digits followed by a colon at the head of a text, and what follows. -/
def field? (cs : List Char) : Option (String × List Char) :=
  match digits cs, cs.dropWhile isDecimalDigit with
  | [], _ => none
  | ds, ':' :: rest => some (String.ofList ds, rest)
  | _, _ => none

/-- Digits at the head of a text, with a point and more digits if they follow. -/
def decimal? (cs : List Char) : Option String :=
  match digits cs, cs.dropWhile isDecimalDigit with
  | [], _ => none
  | ds, '.' :: rest =>
    if (digits rest).isEmpty then some (String.ofList ds)
    else some (String.ofList (ds ++ '.' :: digits rest))
  | ds, _ => some (String.ofList ds)

/-- Hours, minutes and seconds at the head of a text. -/
def clock? (cs : List Char) : Option (String × String × String) := do
  let (h, rest) ← field? cs
  let (m, rest) ← field? rest
  return (h, m, ← decimal? rest)

/-- The word before a duration. -/
def durationLabel : List Char := "Duration:".toList

/-- The first duration in a text, in hours, minutes and seconds. -/
def duration? : List Char → Option (String × String × String)
  | [] => none
  | c :: cs =>
    let here := if durationLabel.isPrefixOf (c :: cs) then
        clock? (((c :: cs).drop durationLabel.length).dropWhile isBlank)
      else none
    here.or (duration? cs)

end RenderOutput

/-- The seconds of a time in hours, minutes and seconds. -/
def clockSeconds (h m s : String) : Except Fault Binary64 := do
  let whole := (← Numeral.integer h) * 3600 + (← Numeral.integer m) * 60
  let part ← Numeral.real s
  return (← (Number.int whole).toReal?) + part

/-- The duration that a line tells, if it tells one. -/
def bannerDuration? (line : String) : Except Fault (Option Number) :=
  match RenderOutput.duration? line.toList with
  | none => .ok none
  | some (h, m, s) => (clockSeconds h m s).map fun d => some (.real d)

/-- The seconds that so many millionths make up. -/
def secondsOf (micros : Int) : Except Fault Binary64 :=
  match Binary64.nearest ((micros : Rat) / 1000000) with
  | .infinite _ => .error (.range .quotientBeyondReal)
  | x => .ok x

/-- The key of the time that is done. -/
def timeKey : List Char := "out_time_ms=".toList

/-- The share of a duration that a line reports as done, out of a hundred. A line that reports no
number reports nothing. -/
def progressOf (line : String) (duration : Option Number) : Except Fault (Option Binary64) :=
  if line = "progress=end" then .ok (some 100)
  else
    match timeKey.isPrefixOf line.toList, duration with
    | true, some d =>
      if d.isZero then .ok none
      else
        match Numeral.integer (String.ofList (line.toList.drop timeKey.length)) with
        | .error _ => .ok none
        | .ok micros => do
          let seconds ← secondsOf micros
          let total ← d.toReal?
          .ok (some (Binary64.smaller 100 (Binary64.larger 0 (seconds / total * 100))))
    | _, _ => .ok none

end Montage
