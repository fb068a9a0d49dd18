import Montage.Filter.Stage

/-!
# Changes of tempo

The tempo filter of the renderer halves or doubles the speed at most. Greater changes are made by
several of them: halves or doubles until the rest is within range.

## Main definitions

* `Montage.Tempo.factors`: the whole steps and the rest, in exact arithmetic.
* `Montage.tempoStages`: the filters for a speed.
-/

namespace Montage

namespace Tempo

/-- Take off factors of two while the rest is above two; `fuel` bounds their number. -/
def doublings : Nat → Rat → Nat × Rat
  | 0, q => (0, q)
  | fuel + 1, q =>
    if 2 < q then
      let (n, r) := doublings fuel (q / 2)
      (n + 1, r)
    else (0, q)

/-- Take off factors of a half while the rest is below a half; `fuel` bounds their number. -/
def halvings : Nat → Rat → Nat × Rat
  | 0, q => (0, q)
  | fuel + 1, q =>
    if q < 1 / 2 then
      let (n, r) := halvings fuel (q * 2)
      (n + 1, r)
    else (0, q)

/-- As many rounds as a speed can need. -/
def fuelFor (q : Rat) : Nat := q.num.natAbs.log2 + q.den.log2 + 1

/-- How many doubles and how many halves make up a speed, and the rest. -/
def factors (speed : Rat) : Nat × Nat × Rat :=
  let (up, rest) := doublings (fuelFor speed) speed
  let (down, rest) := halvings (fuelFor speed) rest
  (up, down, rest)

end Tempo

/-- One tempo filter. -/
def tempoStage (factor : Binary64) : Stage := .ofArgs "atempo" [.real factor]

/-- The tempo filters for a speed. -/
def tempoStages (speed : Binary64) : List Stage :=
  match speed.toRat? with
  | some q =>
    let (up, down, rest) := Tempo.factors q
    List.replicate up (tempoStage 2) ++ List.replicate down (tempoStage (.nearest (1 / 2))) ++
      [tempoStage ((Binary64.finite rest).roundPlaces 6)]
  | none => [tempoStage (speed.roundPlaces 6)]

end Montage
