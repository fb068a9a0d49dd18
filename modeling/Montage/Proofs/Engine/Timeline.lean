import Montage.Proofs.Engine.HandingBack

/-!
# Edits of a timeline

Some edits make sense only for media with a timeline, and the check refuses them for images. What is
refused is turned away: the request has a failed result, nothing is changed but what the observers
and the journal hold, and neither the settings nor the media nor the backend are looked at. The
check compares the kind of media that the request names, which is video where it names none. The
media that the edit is then applied to are not compared with it.

## Main definitions

* `Request.Names`: a request for an edit.
* `Engine.TurnsAway`: a request that fails before anything is done for it.

## Main statements

* `Instruction.exists_prepare_iff_of_image`: nothing of a timeline is prepared for an image.
* `Engine.turnsAway_iff_refused`: what is turned away is what is not prepared.
* `Engine.turnsAway_iff`: which requests for the edits of a timeline are turned away.
-/
namespace Montage

open Montage.Action

/-- The request is for an edit of this kind. -/
def Request.Names (r : Request) (k : Kind) : Prop := r.kindText = .ok (.string k.name)

/-- The request fails, and nothing changes but the calls of observers and the journal. All of this
is the same for other settings, media and backends, so nothing was compiled, inspected or run. -/
structure Engine.TurnsAway (e : Engine) (r : Request) (t : Target) (backend : Value) (index : Int)
    (s : Session) : Prop where
  fails : ∃ result s', (e.process r t backend index).exec s = (.ok result, s') ∧
    result.status = .failed ∧ s' = { s with calls := s'.calls, journal := s'.journal }
  blind : ∀ studio timeout t' backend',
    ({ e with studio, timeout }.process r t' backend' index).exec s =
      (e.process r t backend index).exec s

variable {k : Kind} {i : Instruction} {r : Request} {o : Operation} {f : Failure} {e : Engine}
  {t : Target} {backend kind : Value} {index : Int} {σ : Session}

/-! ## Requests for images -/

namespace Request

/-- The parts of a request for an edit name it. -/
theorem Names.ofValue? (hr : r.Names k) (hi : r.instruction = .ok i) :
    Kind.ofValue? i.operation = some k := by
  suffices hname : i.operation = .string k.name by rw [hname, Kind.ofValue?_name]
  cases r with
  | typed j =>
      obtain rfl := Except.ok.inj hi
      exact Except.ok.inj hr
  | untyped v =>
      cases v with
      | object fs =>
          have hof : Instruction.ofFields fs = .ok i := Outcome.mapError_eq_ok.mp hi
          have hoperation : i.operation =
              .string ((Fields.get? fs "operation").getD (.string "")).text := by
            rw [Instruction.ofFields] at hof
            split at hof
            · cases hof
            · dsimp only at hof
              split at hof
              · rw [← Except.ok.inj hof]
              · split_ifs at hof
                rw [← Except.ok.inj hof]
          rw [hoperation]
          exact Except.ok.inj hr
      | _ => cases hi

theorem exists_prepare_iff :
    (∃ o, r.prepare = .ok o) ↔ ∃ i, r.instruction = .ok i ∧ ∃ o, i.prepare = .ok o := by
  constructor
  · rintro ⟨o, ho⟩
    obtain ⟨i, hi, ho⟩ := Outcome.bind_eq_ok.mp ho
    exact ⟨i, hi, o, ho⟩
  · rintro ⟨i, hi, o, ho⟩
    exact ⟨o, Outcome.bind_eq_ok.mpr ⟨i, hi, ho⟩⟩

end Request

/-- **Nothing of a timeline is prepared for an image**, and what is prepared for anything else is
what is prepared for a video. -/
theorem Instruction.exists_prepare_iff_of_image (hkind : Kind.ofValue? i.operation = some k)
    (hk : k.needsTimeline = true) :
    (∃ o, i.prepare = .ok o) ↔
      i.resource ≠ .image ∧ ∃ o, { i with resource := .video }.prepare = .ok o := by
  cases hi : i.resource with
  | image =>
      refine iff_of_false ?_ fun h => h.1 rfl
      rintro ⟨o, ho⟩
      obtain ⟨j, fs, gs, hprepares⟩ := exists_of_prepare ho
      obtain rfl : k = j := Option.some.inj (hkind.symm.trans hprepares.kind)
      -- The check ends in the problem of the image, unless it has found others before.
      have hfields := fieldProblems_of_accepted hkind hprepares.params hprepares.accepted
      have hproblem : instructionProblems i = .ok [k.name ++ " cannot be applied to an image"] := by
        rw [instructionProblems_eq hkind hprepares.params, hfields]
        exact if_pos ⟨hi, hk⟩
      cases hproblem.symm.trans hprepares.accepted
  | video =>
      have hsame : { i with resource := .video } = i := by rw [← hi]
      rw [hsame]
      exact (and_iff_right nofun).symm

/-! ## What is turned away -/

namespace Engine

theorem exec_perform_of_refused (h : r.prepare = .error f) :
    (e.perform r t backend).exec σ = (.error f, σ) := by
  rw [perform, h]
  rfl

/-- A request that is not prepared is announced, and its failure is reported. -/
theorem exec_process_of_refused (hkind : r.kindText = .ok kind) (h : r.prepare = .error f) :
    (e.process r t backend index).exec σ =
      (.ok (resultOf kind index (.error f)),
        e.concluded kind index (.error f) (e.announced r index σ)) := by
  rw [exec_process hkind, exec_perform_of_refused h]

/-- A prepared request fails for the backend that is asked for if there is none of that name. -/
theorem fst_exec_process_of_unknown {c : Fault} (h : r.prepare = .ok o)
    (hkind : r.kindText = .ok kind) (hbackend : Backend.ofValue backend = .error c) :
    ((e.process r t backend index).exec σ).1 = .ok (resultOf kind index (.error (.fault c))) := by
  have hperform : ((e.perform r t backend).exec (e.announced r index σ)).1 =
      .error (.fault c) := by
    rw [perform, h, strategies, hbackend]
    rfl
  rw [exec_process hkind]
  simp only [hperform]

/-- **What is turned away** are the requests that are not prepared. -/
theorem turnsAway_iff_refused (hkind : r.kindText = .ok kind) :
    e.TurnsAway r t backend index σ ↔ ¬∃ o, r.prepare = .ok o := by
  cases h : r.prepare with
  | ok o =>
      refine iff_of_false (fun haway => ?_) fun hrefused => hrefused ⟨o, rfl⟩
      -- The failures name the backends, so that two unknown ones are told apart.
      have hresult : ((e.process r t .null index).exec σ).1 =
          ((e.process r t (.bool true) index).exec σ).1 :=
        congrArg Prod.fst ((haway.blind e.studio e.timeout t .null).trans
          (haway.blind e.studio e.timeout t (.bool true)).symm)
      rw [fst_exec_process_of_unknown h hkind rfl, fst_exec_process_of_unknown h hkind rfl]
        at hresult
      have hfailure := congrArg EditResult.failure (Except.ok.inj hresult)
      simp only [resultOf, EditResult.failed, Option.some.injEq, Failure.fault.injEq,
        Fault.value.injEq, ValueFault.notMember.injEq, and_true] at hfailure
      exact absurd hfailure (by decide)
  | error f =>
      refine iff_of_true ⟨⟨_, _, exec_process_of_refused hkind h, rfl, rfl⟩, ?_⟩ ?_
      · intro studio timeout t' backend'
        rw [exec_process_of_refused hkind h, exec_process_of_refused hkind h]
        rfl
      · rintro ⟨o, ⟨⟩⟩

/-- **Which edits of a timeline are turned away.** It is those whose own request is for an image, or
is none that would be prepared for a video. The media and the backend play no part in it. -/
theorem turnsAway_iff (e : Engine) (hr : r.Names k) (hk : k.needsTimeline = true) (t : Target)
    (backend : Value) (index : Int) (s : Session) :
    e.TurnsAway r t backend index s ↔
      ∀ i, r.instruction = .ok i →
        i.resource = .image ∨ ∀ o, { i with resource := .video }.prepare ≠ .ok o := by
  rw [turnsAway_iff_refused hr, Request.exists_prepare_iff]
  constructor
  · intro h i hi
    by_contra hor
    obtain ⟨hresource, hprepare⟩ := not_or.mp hor
    refine h ⟨i, hi, (Instruction.exists_prepare_iff_of_image (hr.ofValue? hi) hk).mpr ?_⟩
    exact ⟨hresource, by simpa using hprepare⟩
  · rintro h ⟨i, hi, hprepare⟩
    obtain ⟨hresource, o, ho⟩ :=
      (Instruction.exists_prepare_iff_of_image (hr.ofValue? hi) hk).mp hprepare
    exact (h i hi).elim hresource fun hnone => hnone o ho

/-! ## A photo -/

/-- Keep the first two seconds, of media of a kind that is named or not. -/
def trimming (resource : Fields) : Request :=
  .untyped (.object ([("operation", .string "trim"),
    ("params", .object [("start", .int 0), ("end", .int 2)])] ++ resource))

/-- A photo that the preview service knows. -/
def photo : Target := ⟨none, some "sample", none, .image, none, none⟩

/-- A request for an image is turned away. -/
theorem turnsAway_trimming :
    (trimming [("resourceType", .string "image")]).Names .trim ∧
      Kind.trim.needsTimeline = true ∧ photo.resource = .image ∧
      plainEngine.TurnsAway (trimming [("resourceType", .string "image")]) photo
        (.string "preview") 0 (.of ⟨[]⟩ [] []) := by
  have hnames : (trimming [("resourceType", .string "image")]).Names .trim := rfl
  refine ⟨hnames, rfl, rfl, (turnsAway_iff plainEngine hnames rfl _ _ _ _).mpr fun i hi => ?_⟩
  obtain rfl := Except.ok.inj hi
  exact .inl rfl

/-- **A photo is trimmed** if the request does not say that it is for an image. -/
theorem not_turnsAway_trimming :
    (trimming []).Names .trim ∧ Kind.trim.needsTimeline = true ∧ photo.resource = .image ∧
      (∃ result s', (plainEngine.process (trimming []) photo (.string "preview") 0).exec
        (.of ⟨[]⟩ [] []) = (.ok result, s') ∧ result.status = .completed) ∧
      ¬plainEngine.TurnsAway (trimming []) photo (.string "preview") 0 (.of ⟨[]⟩ [] []) := by
  have hcompleted : ∃ result s', (plainEngine.process (trimming []) photo (.string "preview")
      0).exec (.of ⟨[]⟩ [] []) = (.ok result, s') ∧ result.status = .completed := by
    have hstatus : ((plainEngine.process (trimming []) photo (.string "preview") 0).exec
        (.of ⟨[]⟩ [] [])).1.toOption.map EditResult.status = some .completed := by
      decide +kernel
    rcases hexec : (plainEngine.process (trimming []) photo (.string "preview") 0).exec
      (.of ⟨[]⟩ [] []) with ⟨f | result, s'⟩ <;> rw [hexec] at hstatus
    · cases hstatus
    · exact ⟨result, s', rfl, Option.some.inj hstatus⟩
  refine ⟨rfl, rfl, rfl, hcompleted, fun h => ?_⟩
  obtain ⟨result, s', hexec, hstatus⟩ := hcompleted
  obtain ⟨result', s'', hexec', hstatus', -⟩ := h.fails
  obtain rfl := Except.ok.inj (congrArg Prod.fst (hexec.symm.trans hexec'))
  cases hstatus.symm.trans hstatus'

end Engine

end Montage
