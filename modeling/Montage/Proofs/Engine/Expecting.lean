import Mathlib.Tactic.Linarith
import Montage.Proofs.Engine.Probing

/-!
# How long a result is expected to be

The renderer is told how long its result is expected to be, and every share that it reports is a
share of that. For a removal this is the length of what the plan keeps. For every other edit it is
the length of the source, also where the edit changes it: the shares of media that are trimmed or
sped up are too small, and those of slowed media too large.

## Main definitions

* `RenderJob`: what the renderer is called with.
* `Workshop.arrange`, `Workshop.carryOut`: an attempt up to the call of the renderer, and from there
  on.
* `Edit.Lasts`: how long the result of an edit is.
* `Edit.KeepsLength`: the edits whose result is as long as their source, and removals.

## Main statements

* `Workshop.attempt_eq`: an attempt arranges a job and carries it out.
* `Workshop.returns_draft_drafts`: what the draft of an edit is.
* `Workshop.expects_iff`: when the expected length is the one of the result.
-/
namespace Montage

/-- What the renderer is called with for a draft. -/
structure RenderJob where
  draft : Draft
  command : Command
  /-- How long the result is expected to be. -/
  expected : Option Number

namespace Workshop

/-- Compile an operation for a target with an output, up to the call of the renderer. -/
def arrange (w : Workshop) (o : Operation) (t : Target) (output : Path) :
    Action (Except Outcome RenderJob) := do
  if (Target.given? t.source).isNone then
    Action.refuse (.execution "Authoritative rendering needs a source" none "" none)
  let t ← w.probe t
  match ← w.draft o t with
  | .error outcome => return .error outcome
  | .ok d =>
    let command ← Action.ofFault (renderCommand w.studio.settings (t.source.getD "") output.text
      d.compiled t.resource (t.hasAudio.getD true))
    return .ok ⟨d, command, d.compiled.length? t.duration⟩

/-- Call the renderer, and hand on what comes of it. -/
def carryOut (w : Workshop) (o : Operation) (job : RenderJob) : Action Outcome := do
  let run ← Action.outcome
    (render w.timeout job.command job.expected (.of o.kind.name w.listeners))
  removeScratch job.draft.compiled.scratch
  let path ← Action.ofFailure (do (← run).result)
  return { Outcome.of authoritativeName with
    product := some (.file path)
    warnings := job.draft.warnings
    metadata := Fields.set job.draft.metadata "command" (.list job.command) }

end Workshop

/-- How long the result of an edit is, in exact arithmetic: as long as the part of the source that a
trim keeps, if it starts before the source ends, or as the source at another speed. Of a removal the
plan tells it, and other edits take the time of their source. -/
def Edit.Lasts (edit : Edit) (source length : Number) : Prop :=
  match edit with
  | .trim p => length.value =
      (p.finish.elim source.value fun e => min (Number.real e).value source.value) -
        (Number.real p.start).value
  | .removeClip p => ∃ plan, planRemoval (.real p.start) (.real p.finish) (some source) = .ok plan ∧
      plan.outputDuration? = some length
  | .adjustSpeed p => length.value = source.value / (Number.real p.speed).value
  | _ => length.value = source.value

/-- The times and the speed that the length of the result depends on are numbers. -/
def Edit.HasLength : Edit → Prop
  | .trim p => (Number.real p.start).IsFinite ∧ ∀ e ∈ p.finish, (Number.real e).IsFinite
  | .adjustSpeed p => (Number.real p.speed).IsFinite
  | _ => True

/-- The result of the edit is as long as the source, unless the edit is a removal, whose plan tells
how long its result is. A trim cuts off nothing, or as much at the end as a time before the start
adds. -/
def Edit.KeepsLength (source : Number) : Edit → Prop
  | .trim p =>
      (Number.real p.start == 0) = true ∧ (∀ e ∈ p.finish, source ≤ .real e) ∨
        Number.real p.start < 0 ∧ ∃ e ∈ p.finish,
          (Number.real e).value = source.value + (Number.real p.start).value
  | .adjustSpeed _ => False
  | _ => True

open Montage.Action

variable {s s' : Session} {t : Target} {o : Operation} {source : Number}

/-! ## An attempt as a job -/

variable {w : Workshop} {output : Path} {job : RenderJob}

namespace Workshop

/-- **An attempt** arranges a job and carries it out, unless there is nothing to render. -/
theorem attempt_eq (houtput : t.output = some output) :
    w.authoritative.attempt o t = (do
      match ← w.arrange o t output with
      | .error outcome => return outcome
      | .ok job => w.carryOut o job) := by
  rw [authoritative]
  dsimp only
  rw [houtput]
  unfold arrange
  dsimp only
  split_ifs
  · rfl
  · rw [bind_assoc]
    refine bind_congr fun t => ?_
    rw [bind_assoc]
    refine bind_congr fun r => ?_
    cases r with
    | error outcome => rfl
    | ok d =>
        dsimp only
        rw [bind_assoc]
        rfl

end Workshop

/-! ## Drafts -/

/-- The draft of an edit of media of the length `duration` is a plan for a removal and a filter
expression for all else. A speed that has a draft is positive, and not the one of the source. -/
def Edit.Drafts (duration : Option Number) (compiled : Compiled) : Edit → Prop
  | .removeClip p => ∃ plan, compiled = .plan plan ∧
      planRemoval (.real p.start) (.real p.finish) duration = .ok plan
  | .adjustSpeed p => (∃ e, compiled = .expression e) ∧ ¬p.speed ≤ 0 ∧ (p.speed == 1) = false
  | _ => ∃ e, compiled = .expression e

theorem Studio.returns_applyWindow_isEmpty {kind : Kind} {window : Window} {e : Expression} :
    Returns (applyWindow kind window e) (·.isEmpty = e.isEmpty) := by
  unfold applyWindow
  split_ifs
  · exact .pure rfl
  · exact .after fun _ => .pure rfl
  · exact .after fun _ => .pure rfl

/-- An expression for a speed that is not empty has a speed to be adjusted to. -/
theorem Studio.returns_compileOperation_speed {studio : Studio} {p : SpeedParams}
    (hedit : o.edit = .adjustSpeed p) :
    Returns (studio.compileOperation o) fun e => e.isEmpty = false →
      ¬p.speed ≤ 0 ∧ (p.speed == 1) = false := by
  unfold compileOperation
  rw [hedit]
  refine (returns_ofEdit (Q := fun e => e.isEmpty = false → ¬p.speed ≤ 0 ∧ (p.speed == 1) = false)
    fun e he => ?_).bind fun e he => ?_
  · rw [SpeedParams.expression] at he
    split_ifs at he with hpositive hsame
    · rw [← Except.ok.inj he]
      intro hempty
      cases hempty
    · exact fun _ => ⟨hpositive, Bool.eq_false_iff.mpr hsame⟩
  · cases o.window with
    | none => exact .pure he
    | some window => exact returns_applyWindow_isEmpty.mono fun e' he' => he' ▸ he

namespace Workshop

/-- The draft of an edit that removes nothing is an expression that is not empty. -/
theorem returns_draft_of_compile {Q : Expression → Prop} (hedit : ∀ p, o.edit ≠ .removeClip p)
    (hcompile : Returns (w.studio.compileOperation o) Q) :
    Returns (w.draft o t) fun r => ∀ d, r = .ok d →
      ∃ e, d.compiled = .expression e ∧ e.isEmpty = false ∧ Q e := by
  unfold draft
  split
  · next p hremoval => exact absurd hremoval (hedit p)
  · refine hcompile.bind fun e he => ?_
    split_ifs with hempty
    · exact .after fun _ => .pure fun d h => by cases h
    · refine .pure ?_
      rintro _ ⟨⟩
      exact ⟨e, rfl, Bool.eq_false_iff.mpr hempty, he⟩

/-- **A draft** is a plan or an expression, by the kind of the edit. -/
theorem returns_draft_drafts :
    Returns (w.draft o t) fun r => ∀ d, r = .ok d → o.edit.Drafts t.duration d.compiled := by
  have hany (hedit : ∀ p, o.edit ≠ .removeClip p) :
      Returns (w.draft o t) fun r => ∀ d, r = .ok d → ∃ e, d.compiled = .expression e :=
    (returns_draft_of_compile hedit (Q := fun _ => True) fun _ _ _ => trivial).mono
      fun r hr d hd => (hr d hd).imp fun _ he => he.1
  cases hedit : o.edit with
  | removeClip p =>
      rw [draft_eq hedit]
      unfold draftRemoval
      split
      · exact .after fun _ => .pure fun d h => by cases h
      · next plan hplan =>
        refine .after fun graph => .pure ?_
        rintro _ ⟨⟩
        exact ⟨plan, rfl, hplan⟩
  | adjustSpeed p =>
      refine (returns_draft_of_compile (by simp [hedit])
        (Studio.returns_compileOperation_speed hedit)).mono fun r hr d hd => ?_
      obtain ⟨e, hcompiled, hempty, hspeed⟩ := hr d hd
      exact ⟨⟨e, hcompiled⟩, hspeed hempty⟩
  | _ => exact hany (by simp [hedit])

theorem returns_probe (hduration : t.duration.isSome = true) (hsound : t.hasAudio.isSome = true) :
    Returns (w.probe t) (· = t) := by
  intro s t' h
  rw [exec_probe hduration hsound] at h
  exact (Except.ok.inj h).symm

/-- What is expected of a job for a known source is the length that its draft tells. -/
theorem returns_arrange (hduration : t.duration.isSome = true) (hsound : t.hasAudio.isSome = true) :
    Returns (w.arrange o t output) fun r => ∀ job, r = .ok job →
      o.edit.Drafts t.duration job.draft.compiled ∧
        job.expected = job.draft.compiled.length? t.duration := by
  unfold arrange
  dsimp only
  split_ifs
  · exact (returns_refuse (Q := fun _ => False)).bind fun _ => False.elim
  · refine (returns_probe hduration hsound).bind ?_
    rintro _ rfl
    refine returns_draft_drafts.bind fun r hr => ?_
    cases r with
    | error outcome => exact .pure fun job h => by cases h
    | ok d =>
        refine .after fun command => .pure ?_
        rintro _ ⟨⟩
        exact ⟨hr d rfl, rfl⟩

end Workshop

/-! ## What is expected -/

namespace Edit

variable {edit : Edit} {compiled : Compiled}

/-- The result of a trim lasts as long as its source just if the trim keeps the length. -/
theorem lasts_iff_of_trim {p : TrimParams} (hsource : 0 < source.value)
    (hlength : (trim p).HasLength) :
    (trim p).Lasts source source ↔ (trim p).KeepsLength source := by
  obtain ⟨hstart, hfinish⟩ := hlength
  have hzero : (0 : Number).IsFinite := rfl
  have hvalue : (0 : Number).value = 0 := rfl
  simp only [Lasts, KeepsLength, Number.beq_iff_value hstart hzero,
    Number.lt_iff_value hstart hzero, hvalue]
  cases hend : p.finish with
  | none =>
      have hwhole : source.value = source.value - (Number.real p.start).value ↔
          (Number.real p.start).value = 0 := by
        constructor <;> intro h <;> linarith
      simpa using hwhole
  | some e =>
      simp only [Option.elim_some, Option.mem_some_iff, forall_eq', exists_eq_left',
        Number.le_iff_value (Number.isFinite_of_value_pos hsource) (hfinish e hend)]
      -- The result ends with the trim or with the source, whichever is first.
      rcases le_total source.value (Number.real e).value with hle | hle
      · rw [min_eq_right hle]
        constructor
        · exact fun h => .inl ⟨by linarith, hle⟩
        · rintro (⟨h, -⟩ | ⟨hbefore, h⟩) <;> linarith
      · rw [min_eq_left hle]
        constructor
        · intro h
          rcases eq_or_lt_of_le hle with heq | hlt
          · exact .inl ⟨by linarith, heq.ge⟩
          · exact .inr ⟨by linarith, by linarith⟩
        · rintro (⟨h, hge⟩ | ⟨-, h⟩) <;> linarith

/-- Another speed changes the length. -/
theorem not_lasts_of_adjustSpeed {p : SpeedParams} (hsource : 0 < source.value)
    (hlength : (adjustSpeed p).HasLength) (hpositive : ¬p.speed ≤ 0)
    (hsame : (p.speed == 1) = false) : ¬(adjustSpeed p).Lasts source source := by
  have hspeed : (Number.real p.speed).IsFinite := hlength
  have hpos : 0 < (Number.real p.speed).value := by
    have hle : ¬Number.real p.speed ≤ 0 := hpositive
    rwa [Number.le_iff_value hspeed (by decide), not_le] at hle
  have hother : (Number.real p.speed).value ≠ 1 := fun h => by
    have hone : (Number.real 1).IsFinite := by decide
    exact Bool.eq_false_iff.mp hsame ((Number.beq_iff_value hspeed hone).mpr h)
  intro h
  have hlasts : source.value = source.value / (Number.real p.speed).value := h
  rw [eq_div_iff hpos.ne', mul_eq_left₀ hsource.ne'] at hlasts
  exact hother hlasts

/-- **The length that a draft tells** is the one of the result just if that is as long as the
source, or has a plan. -/
theorem exists_lasts_iff (hdraft : edit.Drafts (some source) compiled) (hsource : 0 < source.value)
    (hlength : edit.HasLength) :
    (∃ length ∈ compiled.length? (some source), edit.Lasts source length) ↔
      edit.KeepsLength source := by
  cases edit with
  | trim p =>
      obtain ⟨e, rfl⟩ := hdraft
      simpa [Compiled.length?] using lasts_iff_of_trim hsource hlength
  | removeClip p =>
      obtain ⟨plan, rfl, hplan⟩ := hdraft
      obtain ⟨length, hlasts⟩ := exists_outputDuration? hplan
      exact iff_of_true ⟨length, hlasts, plan, hplan, hlasts⟩ trivial
  | adjustSpeed p =>
      obtain ⟨⟨e, rfl⟩, hpositive, hsame⟩ := hdraft
      refine iff_of_false ?_ id
      rintro ⟨_, ⟨⟩, hlasts⟩
      exact not_lasts_of_adjustSpeed hsource hlength hpositive hsame hlasts
  | _ =>
      obtain ⟨e, rfl⟩ := hdraft
      exact iff_of_true ⟨source, rfl, rfl⟩ trivial

end Edit

/-- **What the renderer expects** is the length of the result just if the edit is a removal or
leaves the source as long as it is. -/
theorem Workshop.expects_iff (houtput : t.output = some output)
    (hduration : t.duration = some source) (hsound : t.hasAudio.isSome = true)
    (hsource : 0 < source.value) (hlength : o.edit.HasLength)
    (hjob : (w.arrange o t output).exec s = (.ok (.ok job), s')) :
    (w.authoritative.attempt o t).exec s = (w.carryOut o job).exec s' ∧
      ((∃ length ∈ job.expected, o.edit.Lasts source length) ↔ o.edit.KeepsLength source) := by
  have hknown : t.duration.isSome = true := by
    rw [hduration]
    rfl
  obtain ⟨hdraft, hexpected⟩ := returns_arrange hknown hsound s _ (congrArg Prod.fst hjob) job rfl
  rw [hduration] at hdraft hexpected
  refine ⟨?_, ?_⟩
  · rw [attempt_eq houtput, exec_bind_of_ok hjob]
  · rw [hexpected]
    exact Edit.exists_lasts_iff hdraft hsource hlength

namespace Engine

/-- The film at twice its speed. -/
def doubling : SpeedParams := ⟨2⟩

theorem exists_arrange_of_isOk {a : Action (Except Outcome RenderJob)}
    (h : (a.exec s).1.toOption.any (·.isOk) = true) : ∃ job s', a.exec s = (.ok (.ok job), s') := by
  rcases ha : a.exec s with ⟨_ | _ | job, s'⟩
  · simp [ha, Except.toOption] at h
  · simp [ha, Except.toOption] at h
  · exact ⟨job, s', rfl⟩

/-- Ten seconds without the second one. -/
theorem expects_shortFilm :
    ∃ job s', (plainEngine.workshop.arrange ⟨.removeClip removal, none⟩ film
        (.ofString "out.mp4")).exec (filmSession .plain) = (.ok (.ok job), s') ∧
      ∃ length ∈ job.expected, (Edit.removeClip removal).Lasts 10 length := by
  obtain ⟨job, s', hjob⟩ := exists_arrange_of_isOk (s := filmSession .plain)
    (a := plainEngine.workshop.arrange ⟨.removeClip removal, none⟩ film (.ofString "out.mp4"))
    (by decide +kernel)
  have hlength : (Edit.removeClip removal).HasLength := trivial
  have hsource : 0 < (10 : Number).value := by decide +kernel
  have hiff := (Workshop.expects_iff (t := film) (o := ⟨.removeClip removal, none⟩) rfl rfl rfl
    hsource hlength hjob).2
  exact ⟨job, s', hjob, hiff.mpr trivial⟩

/-- **Ten seconds at twice their speed** are expected to last ten seconds, so that the renderer is
taken to be half done when it has written all five seconds of the result. -/
theorem not_expects_fastFilm :
    ∃ job s', (plainEngine.workshop.arrange ⟨.adjustSpeed doubling, none⟩ film
        (.ofString "out.mp4")).exec (filmSession .plain) = (.ok (.ok job), s') ∧
      (Edit.adjustSpeed doubling).Lasts 10 5 ∧ job.expected = some 10 ∧
      (¬∃ length ∈ job.expected, (Edit.adjustSpeed doubling).Lasts 10 length) ∧
      (progressOf "out_time_ms=5000000" job.expected).toOption = some (some 50) := by
  obtain ⟨job, s', hjob⟩ := exists_arrange_of_isOk (s := filmSession .plain)
    (a := plainEngine.workshop.arrange ⟨.adjustSpeed doubling, none⟩ film (.ofString "out.mp4"))
    (by decide +kernel)
  obtain ⟨hdraft, hexpected⟩ :=
    Workshop.returns_arrange rfl rfl _ _ (congrArg Prod.fst hjob) job rfl
  have hlength : (Edit.adjustSpeed doubling).HasLength := by
    change (Number.real 2).IsFinite
    decide
  have hknown : film.duration = some 10 := rfl
  rw [hknown] at hdraft hexpected
  have hsource : 0 < (10 : Number).value := by decide +kernel
  have hiff := Edit.exists_lasts_iff hdraft hsource hlength
  rw [← hexpected] at hiff
  obtain ⟨⟨e, he⟩, -⟩ := hdraft
  rw [he] at hexpected
  refine ⟨job, s', hjob, ?_, hexpected, hiff.mp, ?_⟩
  · change (5 : Number).value = (10 : Number).value / (Number.real 2).value
    decide +kernel
  · rw [hexpected]
    change (progressOf "out_time_ms=5000000" (some 10)).toOption = some (some 50)
    decide +kernel

end Engine

end Montage
