import Montage.Proofs.Files.Storage
import Montage.Session

/-!
# What actions change

An action is followed through its steps: what it changes in the session, and what holds of the value
that it yields. Most steps change the journal only; the changes of the others lie in places that are
known beforehand.

## Main definitions

* `Action.exec`: an action in a session.
* `Session.Changed`: a session after changes in some places.
* `Session.Noted`: a session with further entries in its journal.
* `Action.Leads`: an action in a session changes some places only, and what it yields has a property
  in the session after it.
* `Action.Meets`: the same in every session, with a property of what is yielded alone.
* `Action.Returns`: what an action yields has a property, whatever the action changes.
* `Action.Notes`: the same, and the entries that the action writes to the journal have one.

## Main statements

* `Action.Leads.bind`, `Action.Meets.bind`: one action after another.
* `Action.meets_changeFiles`: a change of the stored files.
-/
namespace Montage

/-- The second session is the first one after changes of the stored files in the places `W`, new
directories in `D`, and starts of the renderer. -/
structure Session.Changed (W D : Set Place) (s s' : Session) : Prop where
  files : s.files.Changed W D s'.files
  launches : s'.launches <:+ s.launches
  further : s'.further = s.further

namespace Session.Changed

variable {s s' s'' : Session} {W W' D : Set Place}

theorem refl (s : Session) : Changed W D s s := ⟨.refl _, List.suffix_rfl, rfl⟩

theorem trans (h : Changed W D s s') (h' : Changed W D s' s'') : Changed W D s s'' :=
  ⟨h.files.trans h'.files, h'.launches.trans h.launches, h'.further.trans h.further⟩

theorem mono (h : Changed W D s s') (hW : W ⊆ W') : Changed W' D s s' :=
  ⟨h.files.mono hW, h.launches, h.further⟩

/-- A change of the files alone. -/
theorem of_files {files : Storage} (h : s.files.Changed W D files) :
    Changed W D s { s with files } := ⟨h, List.suffix_rfl, rfl⟩

end Session.Changed

/-- The second session has further entries in its journal, all of the kind `N`. -/
def Session.Noted (N : JournalEntry → Prop) (s s' : Session) : Prop :=
  ∃ entries, s'.journal = s.journal ++ entries ∧ ∀ e ∈ entries, N e

namespace Session.Noted

variable {s s' s'' : Session} {N : JournalEntry → Prop}

theorem of_journal_eq (h : s'.journal = s.journal) : Noted N s s' :=
  ⟨[], by rw [h, List.append_nil], List.forall_mem_nil _⟩

theorem trans (h : Noted N s s') (h' : Noted N s' s'') : Noted N s s'' := by
  obtain ⟨entries, hentries, hN⟩ := h
  obtain ⟨more, hmore, hN'⟩ := h'
  refine ⟨entries ++ more, ?_, List.forall_mem_append.mpr ⟨hN, hN'⟩⟩
  rw [hmore, hentries, List.append_assoc]

end Session.Noted

namespace Action

variable {α β : Type}

/-- What an action yields in a session, and the session after it. -/
def exec (a : Action α) (s : Session) : Except Failure α × Session := a.run.run s

/-- In the session `s` the action changes the places `W` only, with new directories in `D`; what it
yields has the property `Q` in the session after it. -/
def Leads (W D : Set Place) (a : Action α) (s : Session) (Q : α → Session → Prop) : Prop :=
  Session.Changed W D s (a.exec s).2 ∧ ∀ x, (a.exec s).1 = .ok x → Q x (a.exec s).2

/-- In every session the action changes the places `W` only, with new directories in `D`; what it
yields has the property `Q`. -/
def Meets (W D : Set Place) (a : Action α) (Q : α → Prop) : Prop :=
  ∀ s, Leads W D a s fun x _ => Q x

/-- In every session the action changes the places `W` only, with new directories in `D`. -/
abbrev Keeps (W D : Set Place) (a : Action α) : Prop := Meets W D a fun _ => True

variable {a : Action α} {f : α → Action β} {s s' : Session} {x : α} {y : β} {W W' D : Set Place}
  {P Q : α → Prop} {R : β → Prop}

/-! ## Actions in a session -/

theorem exec_bind : (a >>= f).exec s =
    match a.exec s with
    | (.ok x, s') => (f x).exec s'
    | (.error e, s') => (.error e, s') := by
  rw [exec, ExceptT.run_bind, StateT.run_bind]
  have hrun : a.run.run s = a.exec s := rfl
  rw [hrun]
  rcases a.exec s with ⟨r, s'⟩
  cases r <;> rfl

theorem exec_bind_of_ok (h : a.exec s = (.ok x, s')) : (a >>= f).exec s = (f x).exec s' := by
  rw [exec_bind, h]

theorem exec_bind_of_error {e : Failure} (h : a.exec s = (.error e, s')) :
    (a >>= f).exec s = (.error e, s') := by
  rw [exec_bind, h]

theorem exists_exec_of_isOk (h : (a.exec s).1.isOk = true) : ∃ x s', a.exec s = (.ok x, s') := by
  obtain ⟨x, hx⟩ := Outcome.isOk_iff.mp h
  exact ⟨x, (a.exec s).2, Prod.ext hx rfl⟩

@[simp] theorem exec_ofFault (r : Except Fault α) :
    (ofFault r).exec s = (r.mapError .fault, s) := rfl

@[simp] theorem exec_ofFailure (r : Except Failure α) : (ofFailure r).exec s = (r, s) := rfl

@[simp] theorem exec_outcome : a.outcome.exec s = (.ok (a.exec s).1, (a.exec s).2) := rfl

@[simp] theorem exec_get : (get : Action Session).exec s = (.ok s, s) := rfl

@[simp] theorem exec_files : files.exec s = (.ok s.files, s) := rfl

@[simp] theorem exec_exists? (p : Path) :
    (exists? p).exec s = ((s.files.exists? p).mapError .fault, s) := rfl

@[simp] theorem exec_setFiles (g : Storage) :
    (setFiles g).exec s = (.ok (), { s with files := g }) := rfl

@[simp] theorem exec_warn (source text : String) : (warn source text).exec s =
    (.ok (), { s with journal := s.journal ++ [⟨.warning, source, text⟩] }) := rfl

/-! ## Steps -/

namespace Leads

variable {U U' : α → Session → Prop} {V : β → Session → Prop}

theorem mono (h : Leads W D a s U) (hW : W ⊆ W') (hUV : ∀ x s', U x s' → U' x s') :
    Leads W' D a s U' :=
  ⟨h.1.mono hW, fun x hx => hUV x _ (h.2 x hx)⟩

theorem of_ok (h : a.exec s = (.ok x, s')) (hchanged : Session.Changed W D s s') (hU : U x s') :
    Leads W D a s U := by
  rw [Leads, h]
  exact ⟨hchanged, fun _ hy => Except.ok.inj hy ▸ hU⟩

theorem of_error {e : Failure} (h : a.exec s = (.error e, s'))
    (hchanged : Session.Changed W D s s') : Leads W D a s U := by
  rw [Leads, h]
  exact ⟨hchanged, fun _ hy => nomatch hy⟩

theorem pure (h : U x s) : Leads W D (pure x) s U := ⟨.refl s, fun _ hy => Except.ok.inj hy ▸ h⟩

/-- One action after another, of which the first one may change less. -/
theorem bind_of_subset (ha : Leads W D a s U) (hW : W ⊆ W')
    (hf : ∀ x s', Session.Changed W D s s' → U x s' → Leads W' D (f x) s' V) :
    Leads W' D (a >>= f) s V := by
  obtain ⟨hchanged, hU⟩ := ha
  rw [Leads, exec_bind]
  rcases h : a.exec s with ⟨r, s'⟩
  rw [h] at hchanged hU
  cases r with
  | error e => exact ⟨hchanged.mono hW, nofun⟩
  | ok x =>
      obtain ⟨hchanged', hV⟩ := hf x s' hchanged (hU x rfl)
      exact ⟨(hchanged.mono hW).trans hchanged', hV⟩

/-- **One action after another**, which starts in the session that the first one leaves. -/
theorem bind (ha : Leads W D a s U)
    (hf : ∀ x s', Session.Changed W D s s' → U x s' → Leads W D (f x) s' V) :
    Leads W D (a >>= f) s V := ha.bind_of_subset subset_rfl hf

/-- What an action yields, whether it fails or not. -/
theorem outcome (h : Leads W D a s U) :
    Leads W D a.outcome s fun r s' => ∀ x, r = .ok x → U x s' := by
  refine ⟨h.1, fun r hr x hx => h.2 x ?_⟩
  obtain rfl := Except.ok.inj hr
  exact hx

end Leads

namespace Meets

theorem mono (h : Meets W D a P) (hW : W ⊆ W') (hPQ : ∀ x, P x → Q x) : Meets W' D a Q :=
  fun s => (h s).mono hW fun x _ => hPQ x

theorem pure (h : Q x) : Meets W D (pure x) Q := fun _ => .pure h

/-- **One action after another.** -/
theorem bind (ha : Meets W D a P) (hf : ∀ x, P x → Meets W D (f x) R) : Meets W D (a >>= f) R :=
  fun s => (ha s).bind fun x s' _ hx => hf x hx s'

/-- One action after another that may yield anything. -/
theorem andThen (ha : Keeps W D a) (hf : ∀ x, Meets W D (f x) R) : Meets W D (a >>= f) R :=
  ha.bind fun x _ => hf x

/-- An action that changes no place, and can yield one value only. -/
theorem leads {U : α → Session → Prop} (ha : Meets ∅ D a (· = x))
    (hU : ∀ s', Session.Changed ∅ D s s' → U x s') : Leads W D a s U := by
  obtain ⟨hchanged, hx⟩ := ha s
  refine ⟨hchanged.mono (Set.empty_subset W), fun y hy => ?_⟩
  rw [hx y hy]
  exact hU _ hchanged

end Meets

theorem meets_ofFault {r : Except Fault α} (h : ∀ x, r = .ok x → Q x) :
    Meets W D (ofFault r) Q := by
  intro s
  refine ⟨.refl s, fun x hx => h x ?_⟩
  exact Outcome.mapError_eq_ok.mp hx

theorem keeps_ofFault {r : Except Fault α} : Keeps W D (ofFault r) :=
  meets_ofFault fun _ _ => trivial

theorem meets_ofEdit {r : Except EditError α} (h : ∀ x, r = .ok x → Q x) :
    Meets W D (ofEdit r) Q := by
  intro s
  refine ⟨.refl s, fun x hx => h x ?_⟩
  exact Outcome.mapError_eq_ok.mp hx

theorem meets_ofFailure {r : Except Failure α} (h : ∀ x, r = .ok x → Q x) :
    Meets W D (ofFailure r) Q := fun s => ⟨.refl s, h⟩

theorem keeps_ofFailure {r : Except Failure α} : Keeps W D (ofFailure r) :=
  meets_ofFailure fun _ _ => trivial

theorem meets_refuse {e : EditError} : Meets W D (refuse e : Action α) Q :=
  fun s => ⟨.refl s, nofun⟩

theorem meets_faulted {c : Fault} : Meets W D (faulted c : Action α) Q :=
  fun s => ⟨.refl s, nofun⟩

theorem keeps_get : Keeps W D get := fun s => ⟨.refl s, fun _ _ => trivial⟩

theorem keeps_modify {change : Session → Session} (h : ∀ s, Session.Changed W D s (change s)) :
    Keeps W D (modify change) := fun s => ⟨h s, fun _ _ => trivial⟩

theorem keeps_files : Keeps W D files := fun s => ⟨.refl s, fun _ _ => trivial⟩

theorem keeps_exists? {p : Path} : Keeps W D (exists? p) :=
  keeps_files.andThen fun _ => keeps_ofFault

theorem keeps_record {level : Level} {source text : String} :
    Keeps W D (record level source text) :=
  keeps_modify fun _ => ⟨.refl _, List.suffix_rfl, rfl⟩

theorem keeps_warn {source text : String} : Keeps W D (warn source text) := keeps_record

theorem keeps_complain {source text : String} : Keeps W D (complain source text) := keeps_record

theorem keeps_forM {items : List α} {body : α → Action Unit} (h : ∀ x ∈ items, Keeps W D (body x)) :
    Keeps W D (items.forM body) := by
  induction items with
  | nil => exact .pure trivial
  | cons x items ih =>
      obtain ⟨hx, hitems⟩ := List.forall_mem_cons.mp h
      exact hx.andThen fun _ => ih hitems

theorem keeps_warnAll {source : String} {texts : List String} : Keeps W D (warnAll source texts) :=
  keeps_forM fun _ _ => keeps_warn

/-- **A change of the stored files**, and what is done after it. -/
theorem meets_changeFiles {change : Storage → Except Fault Storage} {next : Unit → Action β}
    (hchange : ∀ f g, change f = .ok g → f.Changed W D g) (hnext : Meets W D (next ()) R) :
    Meets W D (files >>= fun f => ofFault (change f) >>= fun g => setFiles g >>= next) R := by
  intro s
  rw [Leads, exec_bind_of_ok exec_files, exec_bind, exec_ofFault]
  rcases h : change s.files with f | g
  · exact ⟨.refl s, nofun⟩
  · rw [Outcome.mapError_ok]
    dsimp only
    rw [exec_bind_of_ok (exec_setFiles g)]
    obtain ⟨hchanged, hR⟩ := hnext { s with files := g }
    exact ⟨(Session.Changed.of_files (hchange _ _ h)).trans hchanged, hR⟩

/-- A change of the stored files that is left out where it is not possible. -/
theorem keeps_tryChange {change : Storage → Except Fault Storage} {failed : Fault → Action Unit}
    (hchange : ∀ f g, change f = .ok g → f.Changed W D g) (hfailed : ∀ e, Keeps W D (failed e)) :
    Keeps W D (files >>= fun f => match change f with
      | .ok g => setFiles g
      | .error e => failed e) := by
  intro s
  rw [Leads, exec_bind_of_ok exec_files]
  cases h : change s.files with
  | ok g => exact ⟨.of_files (hchange _ _ h), fun _ _ => trivial⟩
  | error e => exact hfailed e s

theorem exec_tryChange {change : Storage → Except Fault Storage} {failed : Fault → Action Unit}
    {g : Storage} (h : change s.files = .ok g) :
    (files >>= fun f => match change f with
      | .ok g => setFiles g
      | .error e => failed e).exec s = (.ok (), { s with files := g }) := by
  rw [exec_bind_of_ok exec_files, h]
  exact exec_setFiles g

theorem exec_tryChange_of_error {change : Storage → Except Fault Storage}
    {failed : Fault → Action Unit} {c : Fault} (h : change s.files = .error c) :
    (files >>= fun f => match change f with
      | .ok g => setFiles g
      | .error e => failed e).exec s = (failed c).exec s := by
  rw [exec_bind_of_ok exec_files, h]

/-! ## Actions that fail or do not -/

/-- In the session `s` the action fails, and leaves a session with the property `U`. -/
def Fails (a : Action α) (s : Session) (U : Session → Prop) : Prop :=
  ∃ e s', a.exec s = (.error e, s') ∧ U s'

namespace Fails

variable {U : Session → Prop}

theorem refuse {e : EditError} (h : U s) : Fails (Action.refuse e : Action α) s U := ⟨_, s, rfl, h⟩

theorem bind (ha : Fails a s U) : Fails (a >>= f) s U := by
  obtain ⟨e, s', h, hU⟩ := ha
  exact ⟨e, s', exec_bind_of_error h, hU⟩

theorem bind_of_ok (h : a.exec s = (.ok x, s')) (hf : Fails (f x) s' U) : Fails (a >>= f) s U := by
  obtain ⟨e, s'', h', hU⟩ := hf
  exact ⟨e, s'', (exec_bind_of_ok h).trans h', hU⟩

end Fails

/-! ## What actions yield -/

/-- Whatever the action yields in any session has the property `Q`. -/
def Returns (a : Action α) (Q : α → Prop) : Prop := ∀ s x, (a.exec s).1 = .ok x → Q x

namespace Returns

theorem pure (h : Q x) : Returns (pure x) Q := fun _ _ hy => Except.ok.inj hy ▸ h

/-- **One action after another.** -/
theorem bind (ha : Returns a P) (hf : ∀ x, P x → Returns (f x) R) : Returns (a >>= f) R := by
  intro s y hy
  rw [exec_bind] at hy
  rcases h : a.exec s with ⟨r, s'⟩
  rw [h] at hy
  cases r with
  | error e => cases hy
  | ok x => exact hf x (ha s x (by rw [h])) s' y hy

/-- One action after another that may yield anything. -/
theorem after (hf : ∀ x, Returns (f x) R) : Returns (a >>= f) R :=
  bind (P := fun _ => True) (fun _ _ _ => trivial) fun x _ => hf x

theorem mono (h : Returns a P) (hPQ : ∀ x, P x → Q x) : Returns a Q :=
  fun s x hx => hPQ x (h s x hx)

/-- What an action yields, whether it fails or not. -/
theorem outcome (h : Returns a P) : Returns a.outcome fun r => ∀ x, r = .ok x → P x := by
  intro s r hr x hx
  obtain rfl := Except.ok.inj hr
  exact h s x hx

end Returns

theorem Meets.returns (h : Meets W D a Q) : Returns a Q := fun s => (h s).2

theorem returns_ofFault {r : Except Fault α} (h : ∀ x, r = .ok x → Q x) : Returns (ofFault r) Q :=
  fun _ x hx => h x (Outcome.mapError_eq_ok.mp hx)

theorem returns_ofEdit {r : Except EditError α} (h : ∀ x, r = .ok x → Q x) :
    Returns (ofEdit r) Q := fun _ x hx => h x (Outcome.mapError_eq_ok.mp hx)

theorem returns_ofFailure {r : Except Failure α} (h : ∀ x, r = .ok x → Q x) :
    Returns (ofFailure r) Q := fun _ x hx => h x hx

theorem returns_refuse {e : EditError} : Returns (refuse e : Action α) Q := nofun

theorem returns_faulted {c : Fault} : Returns (faulted c : Action α) Q := nofun

/-! ## What actions write to the journal -/

/-- Whatever the action yields in any session has the property `Q`, and it writes entries of the
kind `N` to the journal only. -/
def Notes (N : JournalEntry → Prop) (a : Action α) (Q : α → Prop) : Prop :=
  ∀ s, Session.Noted N s (a.exec s).2 ∧ ∀ x, (a.exec s).1 = .ok x → Q x

section

variable {N : JournalEntry → Prop}

namespace Notes

/-- An action that leaves the journal as it is. -/
theorem of_journal_eq (hjournal : ∀ s, (a.exec s).2.journal = s.journal) (h : Returns a Q) :
    Notes N a Q := fun s => ⟨.of_journal_eq (hjournal s), h s⟩

theorem pure (h : Q x) : Notes N (pure x) Q := of_journal_eq (fun _ => rfl) (.pure h)

/-- **One action after another.** -/
theorem bind (ha : Notes N a P) (hf : ∀ x, P x → Notes N (f x) R) : Notes N (a >>= f) R := by
  intro s
  obtain ⟨hnoted, hP⟩ := ha s
  rw [exec_bind]
  rcases h : a.exec s with ⟨r, s'⟩
  rw [h] at hnoted hP
  cases r with
  | error e => exact ⟨hnoted, nofun⟩
  | ok x =>
      obtain ⟨hnoted', hR⟩ := hf x (hP x rfl) s'
      exact ⟨hnoted.trans hnoted', hR⟩

/-- One action after another that may yield anything. -/
theorem andThen (ha : Notes N a fun _ => True) (hf : ∀ x, Notes N (f x) R) :
    Notes N (a >>= f) R := ha.bind fun x _ => hf x

end Notes

theorem notes_ofFault {r : Except Fault α} (h : ∀ x, r = .ok x → Q x) : Notes N (ofFault r) Q :=
  .of_journal_eq (fun _ => rfl) (returns_ofFault h)

theorem notes_ofFailure {r : Except Failure α} (h : ∀ x, r = .ok x → Q x) :
    Notes N (ofFailure r) Q := .of_journal_eq (fun _ => rfl) (returns_ofFailure h)

theorem notes_files : Notes N files fun _ => True :=
  .of_journal_eq (fun _ => rfl) fun _ _ _ => trivial

theorem notes_faulted {c : Fault} : Notes N (faulted c : Action α) Q :=
  .of_journal_eq (fun _ => rfl) returns_faulted

theorem notes_warn {source text : String} (h : N ⟨.warning, source, text⟩) :
    Notes N (warn source text) fun _ => True :=
  fun _ => ⟨⟨[⟨.warning, source, text⟩], rfl, List.forall_mem_singleton.mpr h⟩, fun _ _ => trivial⟩

theorem notes_warnAll {source : String} {texts : List String}
    (h : ∀ text ∈ texts, N ⟨.warning, source, text⟩) :
    Notes N (warnAll source texts) fun _ => True := by
  induction texts with
  | nil => exact .pure trivial
  | cons text texts ih =>
      obtain ⟨htext, htexts⟩ := List.forall_mem_cons.mp h
      exact (notes_warn htext).andThen fun _ => ih htexts

end

/-! ## Actions that never fail -/

/-- The action never fails. -/
def Yields (a : Action α) : Prop := ∀ s, ∃ x s', a.exec s = (.ok x, s')

theorem yields_pure : Yields (pure x : Action α) := fun s => ⟨x, s, rfl⟩

theorem yields_modify {change : Session → Session} : Yields (modify change) :=
  fun s => ⟨(), change s, rfl⟩

theorem yields_outcome : Yields a.outcome := fun _ => ⟨_, _, exec_outcome⟩

theorem Yields.bind (ha : Yields a) (hf : ∀ x, Yields (f x)) : Yields (a >>= f) := by
  intro s
  obtain ⟨x, s', h⟩ := ha s
  rw [exec_bind_of_ok h]
  exact hf x s'

end Action

end Montage
