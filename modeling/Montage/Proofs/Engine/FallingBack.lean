import Montage.Engine.Fallback
import Montage.Proofs.Session

/-!
# One strategy after another

Strategies are attempted in their order, each in the session that the one before it left. Refusals
are collected, and the first attempt that is none decides: its outcome is handed on with the
collected refusals among its warnings, and its fault as it is. If all refuse, the last refusal is
handed on, and it lists all of them unless it is the only one.

## Main definitions

* `Refuse`: attempts one after another that are all refused.
* `FallsBack`: how the attempts come to an end.

## Main statements

* `Refuse.exec_tryEach`: refusals are passed over, and listed.
* `exec_fallBack_append`: the first attempt that is no refusal decides, whatever stands behind it.
* `exec_fallBack_iff`: how any strategies come to an end.
-/
namespace Montage

open Montage.Action

/-- From the session `s` on the strategies are attempted one after another, the last one leaving
`s'`. Each of them refuses; the refusals are in the order of the strategies. -/
inductive Refuse (o : Operation) (t : Target) :
    List Strategy → List EditError → Session → Session → Prop
  | nil (s : Session) : Refuse o t [] [] s s
  | cons {strategy : Strategy} {rest : List Strategy} {e : EditError} {refusals : List EditError}
      {s s' s'' : Session} (attempt : (strategy.attempt o t).exec s = (.error (.edit e), s'))
      (later : Refuse o t rest refusals s' s'') :
      Refuse o t (strategy :: rest) (e :: refusals) s s''

/-- What is noted of refusals: the name of each strategy with the wording of its refusal. -/
def refusalNotes (strategies : List Strategy) (refusals : List EditError) : List String :=
  List.zipWith (fun strategy e => strategy.name ++ ": " ++ e.message) strategies refusals

/-- The refusal with a list of failures among its details. -/
def EditError.listing (e : EditError) (failures : List String) : EditError :=
  { e with details := e.details.set "failures" (.strings failures) }

/-- How attempts of strategies in their order come to an end: with a result, in a session. -/
inductive FallsBack (o : Operation) (t : Target) (strategies : List Strategy) (s : Session) :
    Except Failure Outcome → Session → Prop
  /-- All strategies before one refuse, and that one succeeds. -/
  | success {tried rest : List Strategy} {winner : Strategy} {refusals : List EditError}
      {s₁ s₂ : Session} {outcome : Outcome} (order : strategies = tried ++ winner :: rest)
      (refused : Refuse o t tried refusals s s₁)
      (attempt : (winner.attempt o t).exec s₁ = (.ok outcome, s₂)) :
      FallsBack o t strategies s
        (.ok { outcome with warnings := refusalNotes tried refusals ++ outcome.warnings }) s₂
  /-- All strategies before one refuse, and that one has a fault. -/
  | fault {tried rest : List Strategy} {broken : Strategy} {refusals : List EditError}
      {s₁ s₂ : Session} {f : Fault} (order : strategies = tried ++ broken :: rest)
      (refused : Refuse o t tried refusals s s₁)
      (attempt : (broken.attempt o t).exec s₁ = (.error (.fault f), s₂)) :
      FallsBack o t strategies s (.error (.fault f)) s₂
  /-- All strategies refuse. -/
  | refusal {refusals : List EditError} {e : EditError} {s' : Session}
      (refused : Refuse o t strategies refusals s s') (last : refusals.getLast? = some e) :
      FallsBack o t strategies s
        (.error (.edit (if 1 < strategies.length then
          e.listing (refusalNotes strategies refusals) else e))) s'

/-- The refusals of a strategy list no failures yet. -/
def Strategy.ListsNone (strategy : Strategy) (o : Operation) (t : Target) : Prop :=
  ∀ s e s', (strategy.attempt o t).exec s = (.error (.edit e), s') →
    e.details.has "failures" = false

variable {o : Operation} {t : Target} {strategies tried rest : List Strategy}
  {winner : Strategy} {refusals : List EditError} {s s' s₁ s₂ : Session}
  {r : Except Failure Outcome}

/-! ## Refusals -/

namespace Refuse

theorem refusals_ne_nil (h : Refuse o t strategies refusals s s') (hne : strategies ≠ []) :
    refusals ≠ [] := by
  cases h with
  | nil => exact absurd rfl hne
  | cons => exact List.cons_ne_nil _ _

theorem listsNone (h : Refuse o t strategies refusals s s')
    (hlists : ∀ strategy ∈ strategies, strategy.ListsNone o t) :
    ∀ e ∈ refusals, e.details.has "failures" = false := by
  induction h with
  | nil => exact List.forall_mem_nil _
  | cons attempt _ ih =>
      obtain ⟨hfirst, hrest⟩ := List.forall_mem_cons.mp hlists
      exact List.forall_mem_cons.mpr ⟨hfirst _ _ _ attempt, ih hrest⟩

/-- **Refusals are passed over.** What was refused before is listed first, and the last refusal is
remembered. -/
theorem exec_tryEach (h : Refuse o t tried refusals s s₁) (count : Nat) (failures : List String)
    (last : Option EditError) (rest : List Strategy) :
    (tryEach count o t failures last (tried ++ rest)).exec s =
      (tryEach count o t (failures ++ refusalNotes tried refusals)
        (refusals.getLast?.or last) rest).exec s₁ := by
  induction h generalizing failures last with
  | nil s => rw [refusalNotes, List.zipWith_nil_left, List.append_nil]; rfl
  | @cons strategy tried e refusals s s' s₁ attempt _ ih =>
      rw [List.cons_append, tryEach, exec_bind_of_ok exec_outcome, attempt]
      dsimp only
      have hlast : (e :: refusals).getLast?.or last = refusals.getLast?.or (some e) := by
        rw [List.getLast?_cons]
        cases refusals.getLast? <;> rfl
      rw [ih, hlast, List.append_assoc]
      rfl

end Refuse

/-- All strategies refuse, or there is a first one that does not. -/
theorem exists_refuse (o : Operation) (t : Target) (strategies : List Strategy) (s : Session) :
    (∃ refusals s', Refuse o t strategies refusals s s') ∨
      ∃ tried winner rest refusals s₁, strategies = tried ++ winner :: rest ∧
        Refuse o t tried refusals s s₁ ∧
        ∀ e s₂, (winner.attempt o t).exec s₁ ≠ (.error (.edit e), s₂) := by
  induction strategies generalizing s with
  | nil => exact .inl ⟨[], s, .nil s⟩
  | cons strategy rest ih =>
      by_cases hrefused : ∃ e s', (strategy.attempt o t).exec s = (.error (.edit e), s')
      · obtain ⟨e, s', attempt⟩ := hrefused
        obtain ⟨refusals, s'', hall⟩ |
          ⟨tried, winner, others, refusals, s₁, rfl, htried, hwinner⟩ := ih s'
        · exact .inl ⟨e :: refusals, s'', .cons attempt hall⟩
        · exact .inr ⟨strategy :: tried, winner, others, e :: refusals, s₁, rfl,
            .cons attempt htried, hwinner⟩
      · refine .inr ⟨[], strategy, rest, [], s, rfl, .nil s, ?_⟩
        exact fun e s₂ attempt => hrefused ⟨e, s₂, attempt⟩

/-! ## The end of the attempts -/

/-- **The first attempt that is no refusal** decides, whatever stands behind it. -/
theorem exec_fallBack_append (h : Refuse o t tried refusals s s₁)
    (hwinner : ∀ e s₂, (winner.attempt o t).exec s₁ ≠ (.error (.edit e), s₂)) :
    (fallBack (tried ++ winner :: rest) o t).exec s =
      match (winner.attempt o t).exec s₁ with
      | (.ok outcome, s₂) =>
        (.ok { outcome with warnings := refusalNotes tried refusals ++ outcome.warnings }, s₂)
      | (.error f, s₂) => (.error f, s₂) := by
  rw [fallBack, h.exec_tryEach, tryEach, exec_bind_of_ok exec_outcome, List.nil_append]
  rcases hattempt : (winner.attempt o t).exec s₁ with ⟨(e | f) | outcome, s₂⟩
  · exact absurd hattempt (hwinner e s₂)
  · rfl
  · rfl

/-- **If all strategies refuse**, the last refusal is handed on. -/
theorem exec_fallBack_of_refuse {e : EditError} (h : Refuse o t strategies refusals s s')
    (hlast : refusals.getLast? = some e) (hlists : e.details.has "failures" = false) :
    (fallBack strategies o t).exec s =
      (.error (.edit (if 1 < strategies.length then
        e.listing (refusalNotes strategies refusals) else e)), s') := by
  have hend := h.exec_tryEach strategies.length [] none []
  rw [List.append_nil, hlast, Option.some_or, List.nil_append, tryEach] at hend
  rw [fallBack, hend, lastRefusal, hlists, Bool.not_false, Bool.and_true]
  simp only [decide_eq_true_eq]
  rfl

theorem FallsBack.exec_eq (h : FallsBack o t strategies s r s')
    (hlists : ∀ strategy ∈ strategies, strategy.ListsNone o t) :
    (fallBack strategies o t).exec s = (r, s') := by
  cases h with
  | success order refused attempt =>
      rw [order, exec_fallBack_append refused (by simp [attempt]), attempt]
  | fault order refused attempt =>
      rw [order, exec_fallBack_append refused (by simp [attempt]), attempt]
  | refusal refused last =>
      have hmem := List.mem_of_getLast? last
      exact exec_fallBack_of_refuse refused last (refused.listsNone hlists _ hmem)

/-- Attempts always come to an end. -/
theorem exists_fallsBack (hne : strategies ≠ []) (s : Session) :
    ∃ r s', FallsBack o t strategies s r s' := by
  obtain ⟨refusals, s', hall⟩ | ⟨tried, winner, rest, refusals, s₁, order, htried, hwinner⟩ :=
    exists_refuse o t strategies s
  · have last := List.getLast?_eq_some_getLast (hall.refusals_ne_nil hne)
    exact ⟨_, _, .refusal hall last⟩
  · rcases attempt : (winner.attempt o t).exec s₁ with ⟨(e | f) | outcome, s₂⟩
    · exact absurd attempt (hwinner e s₂)
    · exact ⟨_, _, .fault order htried attempt⟩
    · exact ⟨_, _, .success order htried attempt⟩

/-- **Strategies are attempted in their order**, up to the first that does not refuse: its outcome
is handed on with the refusals before it noted ahead of its own warnings, its fault is handed on as
it is, and if there is none the last refusal is handed on, with all of them listed if there are
several. What stands behind the strategy that decides is not attempted. -/
theorem exec_fallBack_iff (hne : strategies ≠ [])
    (hlists : ∀ strategy ∈ strategies, strategy.ListsNone o t) (s : Session) :
    (∀ r s', (fallBack strategies o t).exec s = (r, s') ↔ FallsBack o t strategies s r s') ∧
      ∀ tried winner rest refusals s₁, strategies = tried ++ winner :: rest →
        Refuse o t tried refusals s s₁ →
        (∀ e s₂, (winner.attempt o t).exec s₁ ≠ (.error (.edit e), s₂)) →
        ∀ others, (fallBack (tried ++ winner :: others) o t).exec s =
          (fallBack strategies o t).exec s := by
  constructor
  · intro r s'
    refine ⟨fun hexec => ?_, fun h => h.exec_eq hlists⟩
    obtain ⟨r', s'', h⟩ : ∃ r s', FallsBack o t strategies s r s' := exists_fallsBack hne s
    obtain ⟨rfl, rfl⟩ : r' = r ∧ s'' = s' := by
      simpa using (h.exec_eq hlists).symm.trans hexec
    exact h
  · rintro tried winner rest refusals s₁ rfl hrefused hwinner others
    rw [exec_fallBack_append hrefused hwinner, exec_fallBack_append hrefused hwinner]

/-! ## Strategies that do one thing -/

namespace Strategy

/-- A strategy that refuses everything. -/
def refusing (name message : String) : Strategy :=
  ⟨name, name, fun _ _ => Action.refuse (.compilation message)⟩

/-- A strategy that hands back an address, with a warning. -/
def granting (name address warning : String) : Strategy :=
  ⟨name, name, fun _ _ => pure { Outcome.of name with
    product := some (.address address), warnings := [warning] }⟩

theorem exec_refusing (name message : String) :
    ((refusing name message).attempt o t).exec s = (.error (.edit (.compilation message)), s) := rfl

theorem listsNone_refusing (name message : String) : (refusing name message).ListsNone o t := by
  rintro s e s' h
  obtain ⟨rfl, -⟩ : EditError.compilation message = e ∧ s = s' := by
    simpa [exec_refusing] using h
  rfl

theorem listsNone_granting (name address warning : String) :
    (granting name address warning).ListsNone o t := by
  rintro s e s' h
  cases h

end Strategy

/-- Two refusals before an outcome, and two refusals that are all. -/
theorem exec_fallBack_two_refusals :
    let o : Operation := ⟨.rotate ⟨.nearest 90⟩, none⟩
    let t : Target := ⟨some "in.mp4", none, none, .video, none, none⟩
    let refusing : List Strategy := [.refusing "first" "nope", .refusing "second" "never"]
    let s : Session := .of .empty [] []
    (∀ strategy ∈ refusing ++ [.granting "ok" "done" "minor"], strategy.ListsNone o t) ∧
      (fallBack (refusing ++ [.granting "ok" "done" "minor"]) o t).exec s =
        (.ok ⟨"ok", some (.address "done"), false,
          ["first: nope", "second: never", "minor"], []⟩, s) ∧
      (fallBack refusing o t).exec s =
        (.error (.edit { EditError.compilation "never" with
          details := [("failures", .strings ["first: nope", "second: never"])] }), s) := by
  intro o t refusing s
  have hrefusing : ∀ strategy ∈ refusing, strategy.ListsNone o t := by
    simp [refusing, Strategy.listsNone_refusing]
  have hall : ∀ strategy ∈ refusing ++ [.granting "ok" "done" "minor"], strategy.ListsNone o t := by
    simpa [or_imp, forall_and, Strategy.listsNone_granting] using hrefusing
  have hrefuse : Refuse o t refusing [.compilation "nope", .compilation "never"] s s :=
    .cons rfl (.cons rfl (.nil s))
  refine ⟨hall, ?_, ?_⟩
  · have hgranted : ((Strategy.granting "ok" "done" "minor").attempt o t).exec s =
        (.ok ⟨"ok", some (.address "done"), false, ["minor"], []⟩, s) := rfl
    exact ((exec_fallBack_iff (by simp) hall s).1 _ _).mpr (.success rfl hrefuse hgranted)
  · exact ((exec_fallBack_iff (by simp [refusing]) hrefusing s).1 _ _).mpr (.refusal hrefuse rfl)

end Montage
