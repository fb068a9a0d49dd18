import Montage.Proofs.Session

/-!
# Faults that stay inside

Who runs an action is ready for its refusals only, so a fault of a value or a file has to be taken
care of inside. Most steps of an action hinge on one condition: they fault unless it holds, never
refuse, and leave the files as they are.

## Main definitions

* `Action.Contained`: no fault escapes from an action in a session.
* `Action.Hinges`: an action yields something if a condition holds, and faults otherwise.

## Main statements

* `Action.contained_bind`, `Action.Hinges.bind`: one action after another.
* `Action.Hinges.contained_iff`: a fault escapes unless the condition holds.
-/
namespace Montage

@[simp] theorem Failure.isEdit_eq_true {e : Failure} : e.isEdit = true ↔ ∃ r, e = .edit r := by
  cases e <;> simp [isEdit]

namespace Action

variable {α β : Type} {a : Action α} {f : α → Action β} {s s' : Session} {x : α} {P Q : Prop}

/-- In the session `s` the action yields something or refuses: no fault escapes from it. -/
def Contained (a : Action α) (s : Session) : Prop := ∀ e, (a.exec s).1 = .error e → e.isEdit = true

/-- In the session `s` the action yields something and leaves the files as they are if `P` holds,
and it faults otherwise. -/
structure Hinges (a : Action α) (s : Session) (P : Prop) : Prop where
  yields : P → ∃ x s', a.exec s = (.ok x, s') ∧ s'.files = s.files
  faults : ¬P → ∃ c s', a.exec s = (.error (.fault c), s')

/-! ## Contained actions -/

theorem Contained.of_exec (h : a.exec s = (.ok x, s')) : a.Contained s := by
  intro e he
  rw [h] at he
  cases he

theorem contained_pure : Contained (pure x : Action α) s := .of_exec rfl

theorem Contained.of_refusal {c : EditError} (h : (a.exec s).1 = .error (.edit c)) :
    a.Contained s := by
  intro e he
  cases h.symm.trans he
  rfl

theorem contained_refuse {e : EditError} : Contained (refuse e : Action α) s := .of_refusal rfl

theorem contained_ofEdit {r : Except EditError α} : (ofEdit r).Contained s := by
  cases r with
  | error c => exact .of_refusal rfl
  | ok x => exact .of_exec rfl

theorem contained_ofFailure_iff {r : Except Failure α} :
    (ofFailure r).Contained s ↔ ∀ c, r ≠ .error (.fault c) := by
  rcases r with (_ | c) | x
  · exact iff_of_true (.of_refusal rfl) nofun
  · exact iff_of_false (fun h => Bool.false_ne_true (h _ rfl)) fun h => h c rfl
  · exact iff_of_true (.of_exec rfl) nofun

/-- **One action after another**: a fault escapes from neither of them. -/
theorem contained_bind : (a >>= f).Contained s ↔
    a.Contained s ∧ ∀ x s', a.exec s = (.ok x, s') → (f x).Contained s' := by
  rw [Contained, Contained, exec_bind]
  rcases h : a.exec s with ⟨r, s'⟩
  cases r with
  | error e => simp
  | ok x => simp [Contained]

/-- After an action that yields something the next one alone decides. -/
theorem contained_bind_of_ok (h : a.exec s = (.ok x, s')) :
    (a >>= f).Contained s ↔ (f x).Contained s' := by
  rw [Contained, exec_bind_of_ok h, Contained]

theorem contained_warn_pure {source text : String} :
    (warn source text >>= fun _ => pure x : Action α).Contained s := .of_exec rfl

/-! ## Actions that hinge on a condition -/

namespace Hinges

theorem congr (h : a.Hinges s P) (hPQ : P ↔ Q) : a.Hinges s Q := by
  obtain rfl := propext hPQ
  exact h

/-- A fault escapes unless the condition holds. -/
theorem contained_iff (h : a.Hinges s P) : a.Contained s ↔ P := by
  constructor
  · intro ha
    by_contra hP
    obtain ⟨c, s', hc⟩ := h.faults hP
    exact absurd (ha (.fault c) (by rw [hc])) Bool.false_ne_true
  · intro hP
    obtain ⟨x, s', hx, -⟩ := h.yields hP
    exact .of_exec hx

/-- What is yielded is yielded under the condition, and with the files as they were. -/
theorem of_exec (h : a.Hinges s P) (hx : a.exec s = (.ok x, s')) : P ∧ s'.files = s.files := by
  by_cases hP : P
  · obtain ⟨y, s'', hy, hfiles⟩ := h.yields hP
    obtain rfl : s'' = s' := congrArg Prod.snd (hy.symm.trans hx)
    exact ⟨hP, hfiles⟩
  · obtain ⟨c, s'', hc⟩ := h.faults hP
    cases hc.symm.trans hx

/-- **One action after another**, of which the second one hinges on its condition whatever the
first one yields. -/
theorem bind (ha : a.Hinges s P)
    (hf : ∀ x s', a.exec s = (.ok x, s') → s'.files = s.files → (f x).Hinges s' Q) :
    (a >>= f).Hinges s (P ∧ Q) := by
  by_cases hP : P
  · obtain ⟨x, s', hx, hfiles⟩ := ha.yields hP
    have hnext := hf x s' hx hfiles
    constructor
    · rintro ⟨-, hQ⟩
      obtain ⟨y, s'', hy, hfiles'⟩ := hnext.yields hQ
      exact ⟨y, s'', (exec_bind_of_ok hx).trans hy, hfiles'.trans hfiles⟩
    · intro hPQ
      obtain ⟨c, s'', hc⟩ := hnext.faults fun hQ => hPQ ⟨hP, hQ⟩
      exact ⟨c, s'', (exec_bind_of_ok hx).trans hc⟩
  · obtain ⟨c, s', hc⟩ := ha.faults hP
    exact ⟨fun hPQ => absurd hPQ.1 hP, fun _ => ⟨c, s', exec_bind_of_error hc⟩⟩

/-- An action that never faults, and one after it. -/
theorem after (ha : a.Hinges s True)
    (hf : ∀ x s', a.exec s = (.ok x, s') → s'.files = s.files → (f x).Hinges s' Q) :
    (a >>= f).Hinges s Q := (ha.bind hf).congr (Iff.of_eq (true_and Q))

/-- An action, and one after it that never faults. -/
theorem andThen (ha : a.Hinges s P) (hf : ∀ x s', (f x).Hinges s' True) :
    (a >>= f).Hinges s P := (ha.bind fun x s' _ _ => hf x s').congr (Iff.of_eq (and_true P))

/-- What comes after an action that hinges on a condition may refuse and change files. -/
theorem contained_bind_iff (ha : a.Hinges s P)
    (hf : ∀ x s', a.exec s = (.ok x, s') → s'.files = s.files → ((f x).Contained s' ↔ Q)) :
    (a >>= f).Contained s ↔ P ∧ Q := by
  rw [contained_bind, ha.contained_iff]
  refine and_congr_right ?_
  intro hP
  obtain ⟨x, s', hx, hfiles⟩ := ha.yields hP
  refine ⟨fun h => (hf x s' hx hfiles).mp (h x s' hx), fun hQ y s'' hy => ?_⟩
  exact (hf y s'' hy (ha.of_exec hy).2).mpr hQ

end Hinges

theorem hinges_pure : Hinges (pure x : Action α) s True :=
  ⟨fun _ => ⟨x, s, rfl, rfl⟩, fun h => absurd trivial h⟩

theorem hinges_ofFault {r : Except Fault α} : (ofFault r).Hinges s (r.isOk = true) := by
  cases r with
  | error c => exact ⟨fun h => absurd h Bool.false_ne_true, fun _ => ⟨c, s, rfl⟩⟩
  | ok x => exact ⟨fun _ => ⟨x, s, rfl, rfl⟩, fun h => absurd rfl h⟩

/-- A computation on values that faults in no case. -/
theorem hinges_ofFault_of_isOk {r : Except Fault α} (h : r.isOk = true) :
    (ofFault r).Hinges s True := hinges_ofFault.congr (iff_true_intro h)

theorem hinges_faulted {c : Fault} : (faulted c : Action α).Hinges s False :=
  ⟨False.elim, fun _ => ⟨c, s, rfl⟩⟩

theorem hinges_files : files.Hinges s True := ⟨fun _ => ⟨_, s, rfl, rfl⟩, fun h => absurd trivial h⟩

theorem hinges_record {level : Level} {source text : String} :
    (record level source text).Hinges s True :=
  ⟨fun _ => ⟨(), _, rfl, rfl⟩, fun h => absurd trivial h⟩

theorem hinges_warn {source text : String} : (warn source text).Hinges s True := hinges_record

theorem hinges_warnAll {source : String} {texts : List String} :
    (warnAll source texts).Hinges s True := by
  induction texts generalizing s with
  | nil => exact hinges_pure
  | cons t texts ih => exact hinges_warn.after fun _ _ _ _ => ih

theorem hinges_exists? {p : Path} : (exists? p).Hinges s ((s.files.exists? p).isOk = true) := by
  refine hinges_files.after ?_
  intro f s' hf _
  obtain ⟨rfl, rfl⟩ : s.files = f ∧ s = s' := by
    simpa using hf
  exact hinges_ofFault

end Action

end Montage
