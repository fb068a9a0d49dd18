import Montage.Proofs.Session

/-!
# Two runs of an action

Two sessions are alike if they differ in nothing but what was told: the journal, and the calls of
observers and listeners. No action asks what was told before. So the same action, or another one
that differs in whom it tells, yields the same in sessions that are alike, and leaves them alike.

## Main definitions

* `Session.Alike`: two sessions differ in the journal and the calls at most.
* `Outcome.Related`: two computations fail alike, or their values are related.
* `Action.Agrees`: two actions yield related values in sessions that are alike, and leave them
  alike; the first one calls listeners to renderings only.
* `Action.Steady`: an action agrees with itself.
* `Action.Remarks`: an action that neither asks the session nor changes it, except for the journal.

## Main statements

* `Action.Agrees.bind`, `Action.Steady.andThen`, `Action.Remarks.andThen`: one action after another.
* `Action.Remarks.steady`, `Action.Remarks.keeps`: what only remarks agrees with itself, and changes
  nothing.
-/
namespace Montage

/-- The call is one of a listener to a rendering. -/
def Call.IsProgress : Call → Prop
  | progress .. => True
  | hook .. => False

namespace Session

/-- The sessions differ in the journal and in the calls at most. -/
structure Alike (s s' : Session) : Prop where
  files : s'.files = s.files
  launches : s'.launches = s.launches
  further : s'.further = s.further
  probes : s'.probes = s.probes
  commands : s'.commands = s.commands
  probed : s'.probed = s.probed
  printed : s'.printed = s.printed

/-- From the first session to the second one nobody is called but listeners to renderings. -/
def TellsProgress (s s' : Session) : Prop :=
  ∃ progress, s'.calls = s.calls ++ progress ∧ ∀ c ∈ progress, c.IsProgress

variable {s s' s'' : Session}

theorem Alike.refl (s : Session) : s.Alike s := ⟨rfl, rfl, rfl, rfl, rfl, rfl, rfl⟩

theorem TellsProgress.of_eq (h : s'.calls = s.calls) : s.TellsProgress s' :=
  ⟨[], by rw [h, List.append_nil], fun _ hc => absurd hc List.not_mem_nil⟩

theorem TellsProgress.trans (h : s.TellsProgress s') (h' : s'.TellsProgress s'') :
    s.TellsProgress s'' := by
  obtain ⟨first, hfirst, hprogress⟩ := h
  obtain ⟨second, hsecond, hprogress'⟩ := h'
  refine ⟨first ++ second, ?_, ?_⟩
  · rw [hsecond, hfirst, List.append_assoc]
  · intro c hc
    exact (List.mem_append.mp hc).elim (hprogress c) (hprogress' c)

end Session

/-- The computations fail alike, or their values are related. -/
inductive Outcome.Related {ε α β : Type} (R : α → β → Prop) : Except ε α → Except ε β → Prop
  | error (e : ε) : Related R (.error e) (.error e)
  | ok {x : α} {y : β} (h : R x y) : Related R (.ok x) (.ok y)

namespace Outcome

variable {ε α β : Type} {R : α → β → Prop} {r r' : Except ε α}

theorem Related.eq (h : Related Eq r r') : r = r' := by
  cases h with
  | error e => rfl
  | ok h => rw [h]

theorem related_eq (r : Except ε α) : Related Eq r r := by
  cases r with
  | error e => exact .error e
  | ok x => exact .ok rfl

end Outcome

namespace Action

variable {α β γ δ : Type}

/-- In sessions that are alike the actions fail alike or yield related values, and they leave
sessions that are alike. Meanwhile the first one calls listeners to renderings only. -/
def Agrees (R : α → β → Prop) (a : Action α) (b : Action β) : Prop :=
  ∀ s s', s.Alike s' → Outcome.Related R (a.exec s).1 (b.exec s').1 ∧
    (a.exec s).2.Alike (b.exec s').2 ∧ s.TellsProgress (a.exec s).2

/-- The action does not depend on what was told before, and calls listeners to renderings only. -/
abbrev Steady (a : Action α) : Prop := Agrees Eq a a

variable {R : α → β → Prop} {Q : γ → δ → Prop} {a : Action α} {b : Action β} {f : α → Action γ}
  {g : β → Action δ} {x : α} {y : β}

/-! ## Steps -/

namespace Agrees

theorem pure (h : R x y) : Agrees R (pure x) (pure y) :=
  fun _ _ hs => ⟨.ok h, hs, .of_eq rfl⟩

/-- **One action after another.** -/
theorem bind (hab : Agrees R a b) (hfg : ∀ x y, R x y → Agrees Q (f x) (g y)) :
    Agrees Q (a >>= f) (b >>= g) := by
  intro s s' hs
  obtain ⟨hvalue, halike, htold⟩ := hab s s' hs
  rw [exec_bind, exec_bind]
  rcases ha : a.exec s with ⟨r, t⟩
  rcases hb : b.exec s' with ⟨r', t'⟩
  rw [ha, hb] at hvalue halike
  rw [ha] at htold
  cases hvalue with
  | error e => exact ⟨.error e, halike, htold⟩
  | ok hxy =>
      obtain ⟨hvalue', halike', htold'⟩ := hfg _ _ hxy t t' halike
      exact ⟨hvalue', halike', htold.trans htold'⟩

/-- What the actions yield, whether they fail or not. -/
theorem outcome (h : Agrees R a b) : Agrees (Outcome.Related R) a.outcome b.outcome := by
  intro s s' hs
  obtain ⟨hvalue, hrest⟩ := h s s' hs
  exact ⟨.ok hvalue, hrest⟩

/-- What is read of the sessions. -/
theorem get {f : Session → Action γ} {g : Session → Action δ}
    (h : ∀ s s', s.Alike s' → Agrees Q (f s) (g s')) :
    Agrees Q (get >>= f) (get >>= g) := fun s s' hs => h s s' hs s s' hs

end Agrees

theorem agrees_ofFault {r : Except Fault α} {r' : Except Fault β} (h : Outcome.Related R r r') :
    Agrees R (ofFault r) (ofFault r') := by
  intro s s' hs
  refine ⟨?_, hs, .of_eq rfl⟩
  cases h with
  | error c => exact .error (Failure.fault c)
  | ok hxy => exact .ok hxy

theorem agrees_ofFailure {r : Except Failure α} {r' : Except Failure β}
    (h : Outcome.Related R r r') : Agrees R (ofFailure r) (ofFailure r') :=
  fun _ _ hs => ⟨h, hs, .of_eq rfl⟩

theorem agrees_refuse {e : EditError} : Agrees R (refuse e) (refuse e) :=
  fun _ _ hs => ⟨.error (Failure.edit e), hs, .of_eq rfl⟩

theorem agrees_faulted {c : Fault} : Agrees R (faulted c) (faulted c) :=
  fun _ _ hs => ⟨.error (Failure.fault c), hs, .of_eq rfl⟩

namespace Steady

theorem pure : Steady (pure x : Action α) := Agrees.pure rfl

/-- **One action after another.** -/
theorem andThen (ha : Steady a) (hf : ∀ x, Steady (f x)) : Steady (a >>= f) := by
  refine Agrees.bind ha ?_
  rintro x _ rfl
  exact hf x

end Steady

theorem steady_ofFault {r : Except Fault α} : Steady (ofFault r) :=
  agrees_ofFault (Outcome.related_eq r)

theorem steady_ofFailure {r : Except Failure α} : Steady (ofFailure r) :=
  agrees_ofFailure (Outcome.related_eq r)

theorem steady_ofEdit {r : Except EditError α} : Steady (ofEdit r) := steady_ofFailure

/-- A change of the session that calls nobody. -/
theorem steady_modify {change : Session → Session}
    (halike : ∀ s s', s.Alike s' → (change s).Alike (change s'))
    (hcalls : ∀ s, (change s).calls = s.calls) : Steady (modify change) :=
  fun s s' hs => ⟨.ok rfl, halike s s' hs, .of_eq (hcalls s)⟩

theorem steady_files : Steady files :=
  Agrees.get fun _ _ hs => .pure hs.files.symm

theorem steady_setFiles {g : Storage} : Steady (setFiles g) :=
  steady_modify (fun _ _ hs => { hs with files := rfl }) fun _ => rfl

theorem steady_exists? {p : Path} : Steady (exists? p) :=
  steady_files.andThen fun _ => steady_ofFault

theorem steady_record {level : Level} {source text : String} :
    Steady (record level source text) :=
  steady_modify (fun _ _ hs => { hs with }) fun _ => rfl

theorem steady_warn {source text : String} : Steady (warn source text) := steady_record

theorem steady_forM {items : List α} {body : α → Action Unit} (h : ∀ x, Steady (body x)) :
    Steady (items.forM body) := by
  induction items with
  | nil => exact .pure
  | cons x items ih => exact (h x).andThen fun _ => ih

theorem steady_warnAll {source : String} {texts : List String} : Steady (warnAll source texts) :=
  steady_forM fun _ => steady_warn

/-! ## Actions that only remark -/

/-- In every session the action does the same, and nothing but to write entries of the journal. -/
def Remarks (a : Action α) : Prop :=
  ∃ r entries, ∀ s, a.exec s = (r, { s with journal := s.journal ++ entries })

namespace Remarks

theorem of_exec {r : Except Failure α} (h : ∀ s, a.exec s = (r, s)) : Remarks a := by
  refine ⟨r, [], fun s => ?_⟩
  rw [h s, List.append_nil]

theorem pure : Remarks (pure x : Action α) := .of_exec fun _ => rfl

/-- **One action after another.** -/
theorem andThen (ha : Remarks a) (hf : ∀ x, Remarks (f x)) : Remarks (a >>= f) := by
  obtain ⟨r, entries, ha⟩ := ha
  cases r with
  | error e => exact ⟨.error e, entries, fun s => exec_bind_of_error (ha s)⟩
  | ok x =>
      obtain ⟨r, more, hx⟩ := hf x
      refine ⟨r, entries ++ more, fun s => ?_⟩
      rw [exec_bind_of_ok (ha s), hx, List.append_assoc]

theorem steady (h : Remarks a) : Steady a := by
  obtain ⟨r, entries, h⟩ := h
  intro s s' hs
  rw [h s, h s']
  exact ⟨Outcome.related_eq r, { hs with }, .of_eq rfl⟩

theorem keeps {W D : Set Place} (h : Remarks a) : Keeps W D a := by
  obtain ⟨r, entries, h⟩ := h
  intro s
  rw [Leads, h s]
  exact ⟨⟨.refl s.files, List.suffix_rfl, rfl⟩, fun _ _ => trivial⟩

end Remarks

theorem remarks_ofFault {r : Except Fault α} : Remarks (ofFault r) := .of_exec fun _ => rfl

theorem remarks_ofFailure {r : Except Failure α} : Remarks (ofFailure r) := .of_exec fun _ => rfl

theorem remarks_ofEdit {r : Except EditError α} : Remarks (ofEdit r) := .of_exec fun _ => rfl

theorem remarks_refuse {e : EditError} : Remarks (refuse e : Action α) := .of_exec fun _ => rfl

theorem remarks_warn {source text : String} : Remarks (warn source text) :=
  ⟨.ok (), [⟨.warning, source, text⟩], fun _ => rfl⟩

theorem remarks_warnAll {source : String} {texts : List String} :
    Remarks (warnAll source texts) := by
  induction texts with
  | nil => exact .pure
  | cons text texts ih => exact remarks_warn.andThen fun _ => ih

end Action

end Montage
