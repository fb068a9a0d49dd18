import Montage.Proofs.Outcome
import Montage.Proofs.Value
import Montage.Template.Basic

/-!
# Templates that are read

A template is read from the fields of an entry. A key that is missing and a value of the wrong type
make the entry malformed, and it is refused. Parameters may be given as a list of pairs, and an
element of another length is a fault of a third sort, which slips through. What is read is read back
from its own fields.

## Main definitions

* `Slips`: a computation that stops at a fault which does not make an entry malformed.
* `Unpaired`, `Value.IsMispaired`: parameters whose first element that is no pair has another
  length.
* `Template.HasMispairedStep`: the entries whose first edit that is not read has such parameters.
* `Template.Settles`: an entry is refused, or read with its edits in order, and read back.

## Main statements

* `slips_pairFields`, `TemplateStep.slips_ofValue`, `Template.slips_partsOf`: from where faults
  slip through.
* `Template.ofValue_toFields`: every template is read back from its fields.
* `Template.settles_iff`: which entries are refused or read.
-/
namespace Montage

/-- The computation stops at a fault that does not make an entry malformed. -/
def Slips {α : Type} (r : Except Fault α) : Prop :=
  ∃ f, r = .error f ∧ Template.isMalformed f = false

/-- The elements are pairs up to one that has some other number of items. -/
inductive Unpaired : List Value → Prop
  | here {v : Value} {vs items : List Value} (items_eq : v.items = .ok items)
      (length_ne : items.length ≠ 2) : Unpaired (v :: vs)
  | later {v key w : Value} {vs : List Value} (items_eq : v.items = .ok [key, w])
      (hashable : key.isHashable = true) (rest : Unpaired vs) : Unpaired (v :: vs)

/-- The value lists elements among which one of the wrong length is the first that is no pair; those
of a text are of the wrong length. -/
def Value.IsMispaired : Value → Prop
  | .string s => s ≠ ""
  | .list vs => Unpaired vs
  | _ => False

/-- The value describes the edit: an object with its operation, and with its parameters, unless it
has none. -/
def TemplateStep.Describes (v : Value) (s : TemplateStep) : Prop :=
  ∃ fields : Fields, v = .object fields ∧ fields.get? "operation" = some s.operation ∧
    if (fields.get "params").isTruthy then (fields.get "params").asFields = .ok s.params
    else s.params = []

namespace Template

/-- The entry lists these edits; nothing in the place of a list stands for none. -/
def Lists (fs : Fields) (items : List Value) : Prop :=
  fs.get "operations" = .list items ∨ (fs.get "operations").isTruthy = false ∧ items = []

/-- Of the edits that an entry lists, one with mispaired parameters is the first that is not
read. -/
def HasMispairedStep (fs : Fields) : Prop :=
  (fs.get? "id").isSome = true ∧ ∃ before after, ∃ fields : Fields,
    fs.get "operations" = .list (before ++ .object fields :: after) ∧
      (∀ v ∈ before, ∃ s, TemplateStep.Describes v s) ∧
        (fields.get? "operation").isSome = true ∧ (fields.get "params").IsMispaired

/-- The entry is refused as malformed; or it is read, the template has an edit for each one that the
entry lists, in order, and the template is read back from its fields. -/
def Settles (fs : Fields) : Prop :=
  (∃ message, ofValue (.object fs) = .error (.edit (.malformed message))) ∨
    ∃ t items, ofValue (.object fs) = .ok t ∧ Lists fs items ∧
      List.Forall₂ TemplateStep.Describes items t.steps ∧ ofValue (.object t.toFields) = .ok t

end Template

variable {α β : Type} {v : Value} {vs : List Value} {fs : Fields}

/-! ## Faults that slip through -/

theorem not_slips_ok {a : α} : ¬Slips (.ok a) := nofun

theorem not_slips_type {c : TypeFault} : ¬Slips (.error (.type c) : Except Fault α) := by
  rintro ⟨_, ⟨⟩, h⟩
  cases h

theorem slips_value {c : ValueFault} : Slips (.error (.value c) : Except Fault α) :=
  ⟨_, rfl, rfl⟩

theorem slips_bind {r : Except Fault α} {f : α → Except Fault β} :
    Slips (r >>= f) ↔ Slips r ∨ ∃ a, r = .ok a ∧ Slips (f a) := by
  simp only [Slips, Outcome.bind_eq_error]
  constructor
  · rintro ⟨e, he | ⟨a, ha, he⟩, hslips⟩
    · exact .inl ⟨e, he, hslips⟩
    · exact .inr ⟨a, ha, e, he, hslips⟩
  · rintro (⟨e, he, hslips⟩ | ⟨a, ha, e, he, hslips⟩)
    · exact ⟨e, .inl he, hslips⟩
    · exact ⟨e, .inr ⟨a, ha, he⟩, hslips⟩

/-- A fault slips through from a list at the first element that is not read. -/
theorem slips_mapM {f : Value → Except Fault β} : Slips (vs.mapM f) ↔
    ∃ before v after, vs = before ++ v :: after ∧ (∀ u ∈ before, ∃ b, f u = .ok b) ∧
      Slips (f v) := by
  simp only [Slips, Outcome.mapM_eq_error_iff]
  constructor
  · rintro ⟨e, ⟨before, v, after, hvs, hbefore, he⟩, hslips⟩
    exact ⟨before, v, after, hvs, hbefore, e, he, hslips⟩
  · rintro ⟨before, v, after, hvs, hbefore, e, he, hslips⟩
    exact ⟨e, ⟨before, v, after, hvs, hbefore, he⟩, hslips⟩

namespace Value

theorem not_slips_items : ¬Slips v.items := by
  cases v with
  | list | string | object => exact not_slips_ok
  | _ => exact not_slips_type

theorem slips_pair {index : Nat} :
    Slips (v.pair index) ↔ ∃ items, v.items = .ok items ∧ items.length ≠ 2 := by
  rw [pair]
  split
  · next hitems => simp [hitems, not_slips_ok]
  · next items hne hitems =>
    refine iff_of_true slips_value ⟨items, hitems, fun hlength => ?_⟩
    obtain ⟨k, w, rfl⟩ := List.length_eq_two.mp hlength
    exact hne k w rfl
  · next hitems => simp [hitems, not_slips_type]

theorem pair_eq_ok_iff {index : Nat} {key w : Value} :
    v.pair index = .ok (key, w) ↔ v.items = .ok [key, w] := by
  rw [pair]
  split
  · next hitems => simp [hitems]
  · next hne hitems =>
    refine iff_of_false nofun fun h => ?_
    exact hne key w (Except.ok.inj (hitems.symm.trans h))
  · next hitems => simp [hitems]

end Value

/-- **A fault slips through from a list of pairs** at an element of another length. -/
theorem slips_pairFields {index : Nat} :
    Slips (Value.pairFields index vs) ↔ Unpaired vs := by
  induction vs generalizing index with
  | nil => exact iff_of_false not_slips_ok nofun
  | cons v vs ih =>
      rw [Value.pairFields, slips_bind, Value.slips_pair]
      constructor
      · rintro (⟨items, hitems, hlength⟩ | ⟨⟨key, w⟩, hpair, hslips⟩)
        · exact .here hitems hlength
        · dsimp only at hslips
          split_ifs at hslips with hhashable
          · exact absurd hslips not_slips_type
          · rw [slips_bind, ih] at hslips
            rcases hslips with hrest | ⟨_, -, hpure⟩
            · exact .later (Value.pair_eq_ok_iff.mp hpair) (by simpa using hhashable) hrest
            · exact absurd hpure not_slips_ok
      · rintro (⟨hitems, hlength⟩ | ⟨hitems, hhashable, hrest⟩)
        · exact .inl ⟨_, hitems, hlength⟩
        · refine .inr ⟨_, Value.pair_eq_ok_iff.mpr hitems, ?_⟩
          dsimp only
          rw [hhashable, Bool.not_true, if_neg Bool.false_ne_true, slips_bind, ih]
          exact .inl hrest

theorem Value.slips_asFields : Slips v.asFields ↔ v.IsMispaired := by
  have hpairs : ∀ vs, Slips (pairFields 0 vs >>= fun fs => .ok (Fields.ofList fs)) ↔
      Unpaired vs := by
    intro vs
    rw [slips_bind, slips_pairFields]
    exact or_iff_left fun ⟨_, _, h⟩ => not_slips_ok h
  cases v with
  | object fs => exact iff_of_false not_slips_ok id
  | list vs => exact hpairs vs
  | string s =>
      refine (hpairs (s.toList.map fun c => .string (String.ofList [c]))).trans ?_
      rw [IsMispaired, Ne, ← String.toList_eq_nil_iff]
      cases s.toList with
      | nil => simp only [List.map_nil, not_true_eq_false, iff_false]; exact nofun
      | cons c cs =>
          refine iff_of_true (.here rfl ?_) (List.cons_ne_nil c cs)
          simp
  | _ => exact iff_of_false not_slips_type id

/-! ## Edits -/

namespace TemplateStep

variable {s : TemplateStep} {key : String}

theorem not_slips_required : ¬Slips (required v key) := by
  unfold required
  split
  · split
    · exact not_slips_ok
    · rintro ⟨_, ⟨⟩, h⟩
      cases h
  · exact not_slips_type
  · exact not_slips_type
  · exact not_slips_type

theorem required_eq_ok_iff {w : Value} :
    required v key = .ok w ↔ ∃ fields : Fields, v = .object fields ∧ fields.get? key = some w := by
  cases v with
  | object fields =>
      have hget : fields.lookup key = Fields.get? fields key := rfl
      rw [required, hget]
      cases h : Fields.get? fields key <;> simp [h]
  | _ => simp [required]

/-- The parameters of an edit as they are read. -/
def paramsOf (fields : Fields) : Except Fault Fields :=
  if (fields.get "params").isTruthy then (fields.get "params").asFields else .ok []

theorem paramsOf_eq_ok_iff {fields params : Fields} : paramsOf fields = .ok params ↔
    if (fields.get "params").isTruthy then (fields.get "params").asFields = .ok params
    else params = [] := by
  rw [paramsOf]
  split_ifs
  · rfl
  · simp [eq_comm]

theorem slips_paramsOf {fields : Fields} :
    Slips (paramsOf fields) ↔ (fields.get "params").IsMispaired := by
  rw [paramsOf]
  split_ifs with htruthy
  · exact Value.slips_asFields
  · refine iff_of_false not_slips_ok fun h => htruthy ?_
    cases hparams : fields.get "params" with
    | string s =>
        rw [hparams] at h
        exact decide_eq_true h
    | list vs =>
        rw [hparams] at h
        cases h <;> rfl
    | _ =>
        rw [hparams] at h
        exact h.elim

/-- An object is an edit with its parameters if it names an operation. -/
theorem ofValue_object {fields : Fields} : ofValue (.object fields) = (do
    let operation ← required (.object fields) "operation"
    return ⟨operation, ← paramsOf fields⟩) := rfl

/-- **What is read of a value** is the edit that it describes. -/
theorem ofValue_eq_ok_iff : ofValue v = .ok s ↔ Describes v s := by
  obtain ⟨operation, params⟩ := s
  constructor
  · intro h
    obtain ⟨w, hw, -⟩ := Outcome.bind_eq_ok.mp h
    obtain ⟨fields, rfl, hget⟩ := required_eq_ok_iff.mp hw
    rw [ofValue_object, hw] at h
    obtain ⟨_, ⟨⟩, h⟩ := Outcome.bind_eq_ok.mp h
    obtain ⟨ps, hps, hs⟩ := Outcome.bind_eq_ok.mp h
    obtain ⟨rfl, rfl⟩ := TemplateStep.mk.inj (Except.ok.inj hs)
    exact ⟨fields, rfl, hget, paramsOf_eq_ok_iff.mp hps⟩
  · rintro ⟨fields, rfl, hget, hparams⟩
    rw [ofValue_object, Outcome.bind_eq_ok]
    refine ⟨operation, required_eq_ok_iff.mpr ⟨fields, rfl, hget⟩, ?_⟩
    exact Outcome.bind_eq_ok.mpr ⟨params, paramsOf_eq_ok_iff.mpr hparams, rfl⟩

/-- **A fault slips through from an edit** with mispaired parameters. -/
theorem slips_ofValue : Slips (ofValue v) ↔ ∃ fields : Fields, v = .object fields ∧
    (fields.get? "operation").isSome = true ∧ (fields.get "params").IsMispaired := by
  constructor
  · intro h
    obtain hrequired | ⟨w, hw, hslips⟩ := slips_bind.mp h
    · exact absurd hrequired not_slips_required
    · obtain ⟨fields, rfl, hget⟩ := required_eq_ok_iff.mp hw
      refine ⟨fields, rfl, by rw [hget]; rfl, ?_⟩
      have hslips' : Slips (paramsOf fields >>= fun ps => .ok (⟨w, ps⟩ : TemplateStep)) :=
        hslips
      obtain hparams | ⟨_, -, hpure⟩ := slips_bind.mp hslips'
      · exact slips_paramsOf.mp hparams
      · exact absurd hpure not_slips_ok
  · rintro ⟨fields, rfl, hoperation, hparams⟩
    obtain ⟨w, hget⟩ := Option.isSome_iff_exists.mp hoperation
    rw [ofValue_object, slips_bind]
    refine .inr ⟨w, required_eq_ok_iff.mpr ⟨fields, rfl, hget⟩, ?_⟩
    exact slips_bind.mpr (.inl (slips_paramsOf.mpr hparams))

/-- An edit is read back from its fields. -/
theorem ofValue_toFields (s : TemplateStep) : ofValue (.object s.toFields) = .ok s := by
  refine ofValue_eq_ok_iff.mpr ⟨s.toFields, rfl, rfl, ?_⟩
  have hparams : Fields.get s.toFields "params" = .object s.params := rfl
  rw [hparams]
  split_ifs with htruthy
  · rfl
  · simpa [Value.isTruthy] using htruthy

end TemplateStep

/-! ## Templates -/

namespace Template

/-- The values in the place of the edits of an entry. -/
def listedIn (fs : Fields) : Except Fault (List Value) :=
  if (fs.get "operations").isTruthy then (fs.get "operations").items else .ok []

theorem partsOf_object : partsOf (.object fs) = (do
    let id ← TemplateStep.required (.object fs) "id"
    let items ← listedIn fs
    return (id, ← items.mapM TemplateStep.ofValue)) := by
  refine congrArg (TemplateStep.required (.object fs) "id" >>= ·) (funext fun id => ?_)
  let next (items : List Value) : Except Fault (Value × List TemplateStep) :=
    items.mapM TemplateStep.ofValue >>= fun steps => .ok (id, steps)
  change (if (fs.get "operations").isTruthy then (fs.get "operations").items >>= next
    else .ok [] >>= next) = (listedIn fs >>= next)
  rw [listedIn]
  split_ifs <;> rfl

/-- What is listed is a list of values, or the parts of something else, none of which is an
object. -/
theorem lists_or_of_listedIn {items : List Value} (h : listedIn fs = .ok items) :
    Lists fs items ∨ ∃ v items', items = v :: items' ∧ ∀ fields, v ≠ .object fields := by
  rw [listedIn] at h
  split_ifs at h with htruthy
  · cases hlisted : fs.get "operations" with
    | list vs =>
        rw [hlisted] at h
        exact .inl (.inl (Except.ok.inj h ▸ hlisted))
    | string s =>
        rw [hlisted] at h htruthy
        refine .inr ?_
        obtain rfl := Except.ok.inj h
        cases hs : s.toList with
        | nil => exact absurd (String.toList_eq_nil_iff.mp hs) (of_decide_eq_true htruthy)
        | cons c cs => exact ⟨_, _, rfl, nofun⟩
    | object fields =>
        rw [hlisted] at h htruthy
        refine .inr ?_
        obtain rfl := Except.ok.inj h
        cases fields with
        | nil => cases htruthy
        | cons f fields => exact ⟨_, _, rfl, nofun⟩
    | _ =>
        rw [hlisted] at h
        cases h
  · exact .inl (.inr ⟨Bool.eq_false_iff.mpr htruthy, (Except.ok.inj h).symm⟩)

theorem listedIn_of_list {items : List Value} (h : fs.get "operations" = .list items) :
    listedIn fs = .ok items := by
  rw [listedIn, h]
  cases items <;> rfl

/-- **A fault slips through from an entry** with a mispaired edit. -/
theorem slips_partsOf : Slips (partsOf (.object fs)) ↔ HasMispairedStep fs := by
  rw [partsOf_object, slips_bind]
  constructor
  · rintro (hrequired | ⟨id, hid, hslips⟩)
    · exact absurd hrequired TemplateStep.not_slips_required
    obtain ⟨_, ⟨⟩, hget⟩ := TemplateStep.required_eq_ok_iff.mp hid
    refine ⟨by rw [hget]; rfl, ?_⟩
    rcases slips_bind.mp hslips with hlisted | ⟨items, hitems, hslips⟩
    · rw [listedIn] at hlisted
      split_ifs at hlisted
      · exact absurd hlisted Value.not_slips_items
      · exact absurd hlisted not_slips_ok
    · rcases slips_bind.mp hslips with hsteps | ⟨_, -, hpure⟩
      · obtain ⟨before, v, after, rfl, hbefore, hslips⟩ := slips_mapM.mp hsteps
        obtain ⟨fields, rfl, hoperation, hparams⟩ := TemplateStep.slips_ofValue.mp hslips
        have hdescribes : ∀ v ∈ before, ∃ s, TemplateStep.Describes v s := fun v hv =>
          (hbefore v hv).imp fun _ => TemplateStep.ofValue_eq_ok_iff.mp
        refine ⟨before, after, fields, ?_, hdescribes, hoperation, hparams⟩
        rcases lists_or_of_listedIn hitems with (hlist | ⟨-, hnil⟩) | ⟨v, items, hcons, hv⟩
        · exact hlist
        · exact absurd hnil (by simp)
        · cases before with
          | nil => exact absurd (List.head_eq_of_cons_eq hcons).symm (hv fields)
          | cons u before =>
              obtain ⟨s, fields', hu, -⟩ := hdescribes u List.mem_cons_self
              exact absurd ((List.head_eq_of_cons_eq hcons).symm.trans hu) (hv fields')
      · exact absurd hpure not_slips_ok
  · rintro ⟨hid, before, after, fields, hlist, hbefore, hoperation, hparams⟩
    obtain ⟨id, hget⟩ := Option.isSome_iff_exists.mp hid
    refine .inr ⟨id, TemplateStep.required_eq_ok_iff.mpr ⟨fs, rfl, hget⟩, ?_⟩
    refine slips_bind.mpr (.inr ⟨_, listedIn_of_list hlist, slips_bind.mpr (.inl ?_)⟩)
    refine slips_mapM.mpr ⟨before, .object fields, after, rfl, fun v hv => ?_, ?_⟩
    · exact (hbefore v hv).imp fun _ => TemplateStep.ofValue_eq_ok_iff.mpr
    · exact TemplateStep.slips_ofValue.mpr ⟨fields, rfl, hoperation, hparams⟩

/-- **Every template** is read back from its fields. -/
theorem ofValue_toFields (t : Template) : ofValue (.object t.toFields) = .ok t := by
  have hsteps : (t.steps.map fun s => Value.object s.toFields).mapM TemplateStep.ofValue =
      .ok t.steps := by
    rw [Outcome.mapM_eq_ok_iff, List.forall₂_map_left_iff, List.forall₂_same]
    exact fun s _ => TemplateStep.ofValue_toFields s
  have hparts : partsOf (.object t.toFields) = .ok (t.id, t.steps) := by
    rw [partsOf_object]
    refine Outcome.bind_eq_ok.mpr ⟨t.id, rfl, Outcome.bind_eq_ok.mpr ⟨_, listedIn_of_list rfl, ?_⟩⟩
    exact Outcome.bind_eq_ok.mpr ⟨t.steps, hsteps, rfl⟩
  unfold ofValue
  rw [hparts]
  rfl

/-- What is read has the edits that the entry lists, in order. -/
theorem exists_lists_of_partsOf {id : Value} {steps : List TemplateStep}
    (h : partsOf (.object fs) = .ok (id, steps)) :
    ∃ items, Lists fs items ∧ List.Forall₂ TemplateStep.Describes items steps := by
  rw [partsOf_object] at h
  obtain ⟨_, -, h⟩ := Outcome.bind_eq_ok.mp h
  obtain ⟨items, hitems, h⟩ := Outcome.bind_eq_ok.mp h
  obtain ⟨_, hsteps, h⟩ := Outcome.bind_eq_ok.mp h
  obtain ⟨rfl, rfl⟩ := Prod.mk.inj (Except.ok.inj h)
  have hdescribes : List.Forall₂ TemplateStep.Describes items _ :=
    (Outcome.mapM_eq_ok_iff.mp hsteps).imp fun _ _ => TemplateStep.ofValue_eq_ok_iff.mp
  rcases lists_or_of_listedIn hitems with hlists | ⟨v, items, rfl, hv⟩
  · exact ⟨items, hlists, hdescribes⟩
  · obtain ⟨s, steps, ⟨fields, hfields, -⟩, -, -⟩ := List.forall₂_cons_left_iff.mp hdescribes
    exact absurd hfields (hv fields)

theorem ofValue_of_partsOf {f : Fault} (h : partsOf (.object fs) = .error f) :
    ofValue (.object fs) = if isMalformed f then
      .error (.edit (.malformed ("Malformed template entry: " ++ f.message)))
    else .error (.fault f) := by
  unfold ofValue
  rw [h]

/-- An entry settles just if no fault slips through. -/
theorem settles_iff_not_slips : Settles fs ↔ ¬Slips (partsOf (.object fs)) := by
  constructor
  · rintro hsettles ⟨f, hf, hslips⟩
    have hof := ofValue_of_partsOf hf
    rw [hslips, if_neg Bool.false_ne_true] at hof
    rcases hsettles with ⟨message, hrefused⟩ | ⟨t, items, hread, -⟩
    · cases hrefused.symm.trans hof
    · cases hread.symm.trans hof
  · intro hslips
    cases hparts : partsOf (.object fs) with
    | error f =>
        have hof := ofValue_of_partsOf hparts
        cases hmalformed : isMalformed f with
        | false => exact absurd ⟨f, hparts, hmalformed⟩ hslips
        | true =>
            rw [hmalformed, if_pos rfl] at hof
            exact .inl ⟨_, hof⟩
    | ok parts =>
        obtain ⟨id, steps⟩ := parts
        obtain ⟨items, hlists, hdescribes⟩ := exists_lists_of_partsOf hparts
        refine .inr ⟨⟨id, (fs.get? "name").getD id, (fs.get? "description").getD (.string ""),
          (fs.get? "category").getD (.string "creative"), steps⟩, items, ?_, hlists, hdescribes,
          ofValue_toFields _⟩
        unfold ofValue
        rw [hparts]

end Template

end Montage
