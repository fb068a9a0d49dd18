import Montage.Proofs.Engine.Attempting
import Montage.Proofs.Engine.Numbering

/-!
# What strategies hand back together

Strategies are tried one after another. A refusal leads on to the next one, but a fault ends the
attempts, so that not even the last resort is reached. With all three strategies a request is
answered with media unless a fault escapes from one of the first two.

## Main definitions

* `Reaches`: strategies that come to an outcome.
* `Workshop.AutoFits`: no fault escapes from the strategies before the last resort.
* `Engine.HandsBack`: a request that is completed or skipped with all strategies.

## Main statements

* `isOk_tryEach_iff`: when strategies come to an outcome.
* `Engine.exec_process`: what a request does beside its operation.
* `Engine.handsBack_iff`: when a prepared request is completed or skipped.
-/
namespace Montage

open Montage.Action

variable {o : Operation} {t : Target} {σ : Session}

/-! ## Strategies one after another -/

/-- The first strategy comes to an outcome, or it refuses and the others come to one. -/
def Reaches (o : Operation) (t : Target) : List Strategy → Session → Prop
  | [], _ => False
  | strategy :: rest, s => (strategy.attempt o t).Contained s ∧
    ∀ c s', (strategy.attempt o t).exec s = (.error (.edit c), s') → Reaches o t rest s'

/-- **Strategies come to an outcome** just if one of them does, and those before it refuse. -/
theorem isOk_tryEach_iff {count : Nat} {failures : List String} {last : Option EditError}
    {strategies : List Strategy} :
    ((tryEach count o t failures last strategies).exec σ).1.isOk = true ↔
      Reaches o t strategies σ := by
  -- What was refused before plays no part, so the induction is for any failures so far.
  induction strategies generalizing failures last σ with
  | nil =>
      refine iff_of_false ?_ id
      cases last <;> exact Bool.false_ne_true
  | cons strategy rest ih =>
      rw [tryEach, exec_bind_of_ok exec_outcome, Reaches]
      rcases hexec : (strategy.attempt o t).exec σ with ⟨(c | f) | outcome, σ'⟩
      · have hcontained : (strategy.attempt o t).Contained σ :=
          .of_refusal (congrArg Prod.fst hexec)
        rw [and_iff_right hcontained]
        -- A refusal: the rest decides, in the session that the attempt leaves.
        refine ih.trans ⟨?_, fun h => h c σ' rfl⟩
        rintro h _ _ ⟨⟩
        exact h
      · refine iff_of_false Bool.false_ne_true ?_
        intro h
        exact Bool.false_ne_true (h.1 (.fault f) (congrArg Prod.fst hexec))
      · refine iff_of_true rfl ⟨.of_exec hexec, ?_⟩
        intro c s' hrefusal
        cases hrefusal

/-! ## All three strategies -/

/-- What has a name on the preview service fits that service, and what is not shown there fits the
attempt to compile and render. -/
structure Workshop.AutoFits (w : Workshop) (o : Operation) (t : Target) (s : Session) : Prop where
  preview : (Target.given? t.publicId).isSome = true → w.studio.PreviewFits o.edit
  render : ∀ c s', (w.preview.attempt o t).exec s = (.error (.edit c), s') → w.AttemptFits o t s'

namespace Workshop

variable {w : Workshop}

/-- Nothing is shown of media without a name. -/
theorem autoFits_iff_of_none (h : Target.given? t.publicId = none) :
    w.AutoFits o t σ ↔ w.AttemptFits o t σ := by
  have hrefusal : (w.preview.attempt o t).exec σ =
      (.error (.edit (.compilation "Preview rendering needs a public id")), σ) := by
    rw [preview]
    dsimp only
    rw [h]
    rfl
  constructor
  · exact fun hfits => hfits.render _ σ hrefusal
  · intro hfits
    refine ⟨fun hsome => ?_, ?_⟩
    · rw [h] at hsome
      cases hsome
    · rw [hrefusal]
      rintro _ _ ⟨⟩
      exact hfits

/-- **All three strategies** come to an outcome for media just if no fault escapes from the first
two. -/
theorem reaches_auto_iff (h : o.edit.IsChecked) (hw : ∀ w ∈ o.window, w.HasReals)
    (ht : t.HasMedia) : Reaches o t (Backend.auto.strategies w) σ ↔ w.AutoFits o t σ := by
  have hlast : ∀ s, Reaches o t [w.passthrough] s := by
    intro s
    obtain ⟨outcome, s', hexec⟩ : ∃ outcome s', (w.passthrough.attempt o t).exec s =
        (.ok outcome, s') := exists_passthrough ht
    refine ⟨.of_exec hexec, fun c s'' hrefusal => ?_⟩
    cases hexec.symm.trans hrefusal
  have hrender : ∀ s, Reaches o t [w.authoritative, w.passthrough] s ↔ w.AttemptFits o t s :=
    fun s => (and_iff_left fun _ s' _ => hlast s').trans (contained_authoritative_iff h hw)
  refine (and_congr (contained_preview_iff h hw) (forall₃_congr fun c s' _ => hrender s')).trans ?_
  exact ⟨fun h => ⟨h.1, h.2⟩, fun h => ⟨h.preview, h.render⟩⟩

end Workshop

/-! ## Requests -/

namespace Engine

variable {e : Engine} {r : Request} {index : Int}

/-- The calls of the observers of an event, in their order. -/
def hookCalls (e : Engine) (event : String) (index : Int) (shown : Shown) : List Call :=
  (e.hooks.filter fun h => h.event = event).map fun h => .hook h index shown

/-- The session in which the observers of an event have been called. -/
def told (e : Engine) (event : String) (index : Int) (shown : Shown) (s : Session) : Session :=
  { s with
    calls := s.calls ++ e.hookCalls event index shown
    journal := s.journal ++ (e.hooks.filter fun h => h.event = event).filterMap hookNote }

theorem exec_notify {event : String} {shown : Shown} :
    (e.notify event index shown).exec σ = (.ok (), e.told event index shown σ) := rfl

/-- The session in which a request is done: its observers have been called. -/
def announced (e : Engine) (r : Request) (index : Int) (s : Session) : Session :=
  ((e.notify "before_operation" index r.shown).exec s).2

/-- The session after a request with an outcome was reported. -/
def concluded (e : Engine) (kind : Value) (index : Int) (r : Except Failure Outcome)
    (s : Session) : Session :=
  e.told "after_operation" index (.status (resultOf kind index r).status.name)
    (match r with
      | .error f =>
        e.told "on_error" index (.failure f) ((complain engineSource (failureText kind f)).exec s).2
      | .ok _ => s)

/-- With all strategies the request is completed, or deliberately skipped. -/
def HandsBack (e : Engine) (r : Request) (t : Target) (index : Int) (s : Session) : Prop :=
  ∃ result s', (e.process r t (.string "auto") index).exec s = (.ok result, s') ∧
    (result.status = .completed ∨ result.status = .skipped)

/-- **A request** is announced, its operation is done, and the outcome is reported. -/
theorem exec_process {kind backend : Value} (hkind : r.kindText = .ok kind) :
    (e.process r t backend index).exec σ =
      let (outcome, s') := (e.perform r t backend).exec (e.announced r index σ)
      (.ok (resultOf kind index outcome), e.concluded kind index outcome s') := by
  have hnotify : (e.notify "before_operation" index r.shown).exec σ =
      (.ok (), e.announced r index σ) := exec_notify
  unfold process
  rw [hkind, exec_bind_of_ok (exec_ofFault _), exec_bind_of_ok hnotify,
    exec_bind_of_ok exec_outcome]
  rcases (e.perform r t backend).exec (e.announced r index σ) with ⟨outcome, s'⟩
  cases outcome with
  | ok outcome => rfl
  | error f => rfl

theorem status_resultOf {kind : Value} {r : Except Failure Outcome} :
    ((resultOf kind index r).status = .completed ∨ (resultOf kind index r).status = .skipped) ↔
      r.isOk = true := by
  cases r with
  | error f => exact iff_of_false (by rintro (h | h) <;> cases h) Bool.false_ne_true
  | ok outcome =>
      refine iff_of_true ?_ rfl
      cases hskipped : outcome.skipped <;> simp [resultOf, hskipped]

/-- A request that was prepared has a name. -/
theorem exists_kindText_of_prepare (h : r.prepare = .ok o) : ∃ kind, r.kindText = .ok kind := by
  obtain ⟨i, hi, -⟩ := Outcome.bind_eq_ok.mp h
  cases r with
  | typed i => exact ⟨_, rfl⟩
  | untyped v =>
      cases v with
      | object fs => exact ⟨_, rfl⟩
      | _ => cases hi

theorem handsBack_iff_isOk_perform (h : r.prepare = .ok o) : e.HandsBack r t index σ ↔
    ((e.perform r t (.string "auto")).exec (e.announced r index σ)).1.isOk = true := by
  obtain ⟨kind, hkind⟩ := exists_kindText_of_prepare h
  have hexec : (e.process r t (.string "auto") index).exec σ = _ := exec_process hkind
  rw [HandsBack, hexec]
  refine Iff.trans ⟨?_, fun hstatus => ⟨_, _, rfl, hstatus⟩⟩ status_resultOf
  rintro ⟨_, _, ⟨⟩, hstatus⟩
  exact hstatus

/-- The operation of a request comes to an outcome just if no fault escapes from it. -/
theorem isOk_perform_iff (h : r.prepare = .ok o) (ht : t.HasMedia) :
    ((e.perform r t (.string "auto")).exec σ).1.isOk = true ↔ e.workshop.AutoFits o t σ := by
  obtain ⟨i, -, hprepare⟩ := Outcome.bind_eq_ok.mp h
  obtain ⟨k, fs, gs, hprepares⟩ := Instruction.exists_of_prepare hprepare
  have hperform : (e.perform r t (.string "auto")).exec σ =
      (fallBack (Backend.auto.strategies e.workshop) o t).exec σ := by
    rw [perform, h, exec_bind_of_ok (exec_ofFailure _)]
    exact exec_bind_of_ok (exec_ofFault _)
  rw [hperform]
  exact isOk_tryEach_iff.trans
    (Workshop.reaches_auto_iff hprepares.isChecked hprepares.hasReals ht)

/-- **A prepared request for media** is completed or skipped with all strategies just if no fault
escapes: from the preview of what has a name on the preview service, from inspecting the source,
from compiling the edit, from the command or from the renderer. -/
theorem handsBack_iff (e : Engine) (h : r.prepare = .ok o) (ht : t.HasMedia) (index : Int)
    (s : Session) :
    e.HandsBack r t index s ↔ e.workshop.AutoFits o t (e.announced r index s) :=
  (handsBack_iff_isOk_perform h).trans (isOk_perform_iff h ht)

/-! ## A film -/

/-- A film of which nothing is known yet. -/
def unknownFilm : Target := ⟨some "in.mp4", none, some (.ofString "out.mp4"), .video, none, none⟩

/-- The source of a film is there. -/
theorem exists?_filmSession (launch : Launch) :
    (filmSession launch).files.exists? (.ofString "in.mp4") = .ok true := by
  have hlocate : (filmSession launch).files.locate (.ofString "in.mp4") = .at ["in.mp4"] :=
    Storage.locate_name (by decide) (by decide)
  rw [Storage.exists?_eq_ok (by simp [hlocate]), Storage.lookup, hlocate]
  rfl

theorem prepare_rotation : rotation.prepare = .ok ⟨.rotate ⟨.nearest 90⟩, none⟩ := by
  have hparams : RotationParams.ofFields [("degrees", .int 90)] = .ok ⟨.nearest 90⟩ := by
    decide +kernel
  have hbuilt : Operation.ofFields .rotate [("degrees", .int 90)] none =
      .ok ⟨.rotate ⟨.nearest 90⟩, none⟩ := by
    rw [Operation.ofFields_eq, Edit.ofFields, hparams]
    rfl
  have hprepares : Instruction.Prepares
      ⟨.string "rotate", .object [("degrees", .int 90)], .video⟩ .rotate [("degrees", .int 90)]
      [("degrees", .int 90)] ⟨.rotate ⟨.nearest 90⟩, none⟩ :=
    ⟨Kind.ofValue?_name .rotate, rfl, by decide +kernel, rfl, hbuilt⟩
  exact hprepares.prepare_eq_ok

/-- A renderer that reports nothing but its success lets no fault escape. -/
theorem not_escapes_plain (duration : Option Number) :
    ¬Launch.plain.Escapes duration (.ok ()) := by
  have hstrip : "progress=end".strip = "progress=end" := by decide +kernel
  have hduration : RenderOutput.duration? "progress=end".toList = none := by decide +kernel
  have htime : ∀ n, ¬TellsLongTime n "progress=end" := fun n =>
    not_tellsLongTime (by decide +kernel)
  rintro ((⟨-, hours, minutes, seconds, h, m, s, hlong, -⟩ |
    ⟨duration', -, ⟨n, -, hlong⟩ | ⟨-, hrest⟩⟩) | ⟨-, -, -, -, f, hf, -⟩)
  · rw [hstrip, hduration] at hlong
    cases hlong
  · rw [hstrip] at hlong
    exact htime n hlong
  · exact hrest
  · cases hf

/-- A film of known length is rendered. -/
theorem handsBack_rotation :
    rotation.prepare = .ok ⟨.rotate ⟨.nearest 90⟩, none⟩ ∧ film.HasMedia ∧
      plainEngine.HandsBack rotation film 0 (filmSession .plain) := by
  have hmedia : film.HasMedia := by
    change (Target.given? film.source).isSome = true
    decide
  refine ⟨prepare_rotation, hmedia, (handsBack_iff plainEngine prepare_rotation hmedia _ _).mpr ?_⟩
  rw [Workshop.autoFits_iff_of_none rfl]
  refine fun _ => ⟨nofun, fun t' s' hprobe => ?_⟩
  obtain ⟨rfl, rfl⟩ : film = t' ∧ plainEngine.announced rotation 0 (filmSession .plain) = s' := by
    simpa using (Workshop.exec_probe rfl rfl).symm.trans hprobe
  refine ⟨trivial, fun d s'' hdraft => ⟨⟨?_, fun _ => ?_, fun _ _ => ?_⟩, ?_⟩⟩
  · exact fun _ => ⟨_, rfl⟩
  · exact fun _ => ⟨_, rfl⟩
  · exact fun _ => ⟨_, rfl⟩
  · have hchanged : Session.Changed _ _ _ (Except.ok (Except.ok d), s'').2 :=
      hdraft ▸ (Workshop.meets_draft _).1
    have hplain : ∀ launch ∈ s''.launches, launch = .plain := fun launch hlaunch =>
      List.mem_singleton.mp (hchanged.launches.subset hlaunch)
    rw [Session.headD_of_forall hplain hchanged.further]
    exact not_escapes_plain _

/-- **A film that can be neither described nor opened** is not handed back. -/
theorem not_handsBack_unknownFilm :
    rotation.prepare = .ok ⟨.rotate ⟨.nearest 90⟩, none⟩ ∧ unknownFilm.HasMedia ∧
      ¬plainEngine.HandsBack rotation unknownFilm 0 (filmSession .plain) := by
  have hmedia : unknownFilm.HasMedia := by
    change (Target.given? unknownFilm.source).isSome = true
    decide
  refine ⟨prepare_rotation, hmedia, fun h => ?_⟩
  rw [handsBack_iff_isOk_perform prepare_rotation, isOk_perform_iff prepare_rotation hmedia,
    Workshop.autoFits_iff_of_none rfl] at h
  obtain ⟨-, hinspects⟩ := (h rfl).1 rfl "in.mp4" rfl rfl
  have hopens := hinspects (exists?_filmSession .plain)
  cases hopens

end Engine

end Montage
