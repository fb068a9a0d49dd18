import Montage.Edit.Operation
import Montage.Edit.Target
import Montage.Engine.Result
import Montage.Session

/-!
# Falling back

An operation can be done by several strategies. They are tried in order until one succeeds; that the
others refused is noted in the warnings of the outcome. Anything but a refusal ends the attempts.

## Main definitions

* `Montage.Outcome`: what a strategy achieves.
* `Montage.Strategy`: a way of doing operations.
* `Montage.fallBack`: the first outcome of several strategies.
-/

namespace Montage

/-- What a strategy achieves. -/
structure Outcome where
  /-- The name of the strategy. -/
  strategy : String
  product : Option Product
  /-- The operation was deliberately not applied. -/
  skipped : Bool
  warnings : List String
  metadata : Fields
  deriving Inhabited

/-- The outcome of a strategy with nothing to show. -/
def Outcome.of (strategy : String) : Outcome := ⟨strategy, none, false, [], []⟩

/-- A way of doing operations. -/
structure Strategy where
  name : String
  /-- The strategy in writing. -/
  text : String
  attempt : Operation → Target → Action Outcome

/-- A refusal of a strategy in the list of failures. -/
def Strategy.failureText (s : Strategy) (e : EditError) : String := s.name ++ ": " ++ e.message

/-- The last refusal, with all failures among its details if there are several strategies. -/
def lastRefusal (count : Nat) (failures : List String) (e : EditError) : EditError :=
  if 1 < count && !e.details.has "failures" then
    { e with details := e.details.set "failures" (.strings failures) }
  else e

/-- Try strategies one after another; `failures` lists those before them, of which `last` was the
last one. -/
def tryEach (count : Nat) (o : Operation) (t : Target) (failures : List String)
    (last : Option EditError) : List Strategy → Action Outcome
  | [] =>
    match last with
    | some e => Action.refuse (lastRefusal count failures e)
    | none => Action.faulted (.value .noStrategy)
  | s :: rest => do
    match ← Action.outcome (s.attempt o t) with
    | .ok outcome => return { outcome with warnings := failures ++ outcome.warnings }
    | .error (.edit e) => tryEach count o t (failures ++ [s.failureText e]) (some e) rest
    | .error (.fault f) => Action.faulted f

/-- The outcome of the first strategy that succeeds. -/
def fallBack (strategies : List Strategy) (o : Operation) (t : Target) : Action Outcome :=
  tryEach strategies.length o t [] none strategies

/-- Strategies in writing. -/
def chainOf (strategies : List Strategy) : String :=
  "FallbackChain(" ++ (Value.strings (strategies.map Strategy.name)).quoted ++ ")"

end Montage
