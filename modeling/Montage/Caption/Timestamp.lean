import Montage.Number.Basic

/-!
# Times in subtitles

Subtitles give times in hours, minutes, seconds and hundredths of a second. A time is rounded to the
nearest hundredth, half to even; one before zero counts as zero.

## Main definitions

* `Montage.Timestamp`: hours, minutes, seconds and hundredths.
* `Montage.timestamp`: the written form of a number of seconds.
* `Montage.centiseconds`: the hundredths of exact seconds.
-/

namespace Montage

/-- A time of day. -/
structure Timestamp where
  hours : Nat
  minutes : Nat
  seconds : Nat
  hundredths : Nat
  deriving DecidableEq, Inhabited

namespace Timestamp

/-- The time after so many hundredths of a second. -/
def ofCentiseconds (n : Nat) : Timestamp :=
  ⟨n / 360000, n % 360000 / 6000, n % 6000 / 100, n % 100⟩

/-- The hundredths of a second up to a time. -/
def toCentiseconds (t : Timestamp) : Nat :=
  ((t.hours * 60 + t.minutes) * 60 + t.seconds) * 100 + t.hundredths

/-- A number with at least two digits. -/
def twoDigits (n : Nat) : String := padLeft 2 '0' (digitText n)

/-- The written form. -/
def text (t : Timestamp) : String :=
  digitText t.hours ++ ":" ++ twoDigits t.minutes ++ ":" ++ twoDigits t.seconds ++ "." ++
    twoDigits t.hundredths

end Timestamp

/-- The hundredths of a second in an exact number of seconds. -/
def centiseconds (q : Rat) : Nat := (roundHalfEven ((if q < 0 then 0 else q) * 100)).toNat

/-- The written form of an exact number of seconds. -/
def exactTimestamp (q : Rat) : String := (Timestamp.ofCentiseconds (centiseconds q)).text

/-- The written form of a number of seconds. -/
def timestamp (seconds : Number) : Except Fault String := do
  let seconds := if seconds < .real 0 then .real 0 else seconds
  return (Timestamp.ofCentiseconds (← (seconds * 100).round).toNat).text

end Montage
