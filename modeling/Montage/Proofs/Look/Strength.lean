import Montage.Proofs.Look.Table
import Montage.Proofs.Number.Finite
import Montage.Look.Stages

/-!
# Looks at a strength

An effect takes numbers from its strength or from a given level. Some of them have to be integers,
and such a number faults where the strength or the level is infinite or none. A colour grade faults
where its colour cast is a setting that describes none.

## Main definitions

* `Amount.value`: a number of an effect before it is rounded.
* `Effect.Fits`: the numbers that an effect rounds to integers are finite.
* `Tint.IsReadable`: the setting of a colour cast describes one, or says nothing.

## Main statements

* `Effect.isOk_expand_iff`: when an effect has stages.
* `Effect.fits_of_mem`: the effects of the catalogue fit every strength from zero to one.
* `Grade.isOk_stages_iff`, `Grade.isOk_scaled_iff`: when a colour grade has stages.
-/
namespace Montage

/-! ## Effects -/

namespace Amount

/-- The number is rounded to an integer. -/
def isWhole : Amount → Bool
  | scaled _ _ whole | level _ whole => whole

/-- The number at a strength and a level, before it is rounded. -/
def value (strength : Number) (level : Option Number) : Amount → Number
  | scaled base span _ => base + span * strength
  | .level base _ => level.getD base

/-- What the number takes from its strength is made of small integers. -/
def isModest : Amount → Bool
  | scaled (.int base) (.int span) true => base.natAbs ≤ 20 && span.natAbs ≤ 20
  | a => !a.isWhole

variable {strength : Number} {level : Option Number} {a : Amount}

theorem isOk_resolve_iff : (a.resolve strength level).isOk = true ↔
    (a.isWhole = true → (a.value strength level).IsFinite) := by
  cases a with
  | scaled base span whole =>
      cases whole with
      | false => simp [resolve, isWhole]
      | true => simp [resolve, isWhole, value, Number.isOk_round_iff]
  | level base whole =>
      cases whole with
      | false => simp [resolve, isWhole]
      | true => simp [resolve, isWhole, value, Number.isOk_round_iff]

/-- A modest number is finite at every strength from zero to one. -/
theorem isFinite_of_isModest {x : Binary64} (h : a.isModest = true) (hx : x.Within 1)
    (hwhole : a.isWhole = true) : (a.value (.real x) level).IsFinite := by
  obtain ⟨base, span, rfl, hbase, hspan⟩ : ∃ base span : Int,
      a = .scaled (.int base) (.int span) true ∧ base.natAbs ≤ 20 ∧ span.natAbs ≤ 20 := by
    unfold isModest at h
    split at h
    · exact ⟨_, _, rfl, by simpa using h⟩
    · simp [hwhole] at h
  have hsmall : ∀ n : Int, n.natAbs ≤ 20 → (Binary64.nearest n).Within 20 := by
    intro n hn
    rw [Binary64.nearest_intCast (abs_lt.mpr ⟨by omega, by omega⟩), Binary64.within_finite]
    exact_mod_cast (abs_le.mpr ⟨by omega, by omega⟩ : |n| ≤ 20)
  have hproduct := (hsmall span hspan).mul hx (by norm_num)
  exact ((hsmall base hbase).add hproduct (by norm_num)).isFinite

end Amount

/-- The number that an option of an effect takes from the strength or the level. -/
def OptionForm.amount? : OptionForm → Option Amount
  | fixed _ => none
  | amount a | ending _ a => some a

theorem OptionForm.isOk_resolve_iff {strength : Number} {level : Option Number} {f : OptionForm} :
    (f.resolve strength level).isOk = true ↔
      ∀ a ∈ f.amount?, a.isWhole = true → (a.value strength level).IsFinite := by
  cases f <;> simp [resolve, amount?, Amount.isOk_resolve_iff]

namespace Effect

/-- The numbers that an effect takes from its strength and its level. -/
def amounts (e : Effect) : List Amount :=
  e.stages.flatMap fun f => f.options.filterMap fun o => o.2.amount?

/-- The numbers that the effect rounds to integers are finite. -/
def Fits (e : Effect) (strength : Number) (level : Option Number) : Prop :=
  ∀ a ∈ e.amounts, a.isWhole = true → (a.value strength level).IsFinite

instance (e : Effect) (strength : Number) (level : Option Number) :
    Decidable (e.Fits strength level) := inferInstanceAs (Decidable (∀ a ∈ e.amounts, _))

variable {e : Effect} {strength : Number} {level : Option Number}

/-- **When an effect has stages.** -/
theorem isOk_expand_iff : (e.expand strength level).isOk = true ↔ e.Fits strength level := by
  have hform : ∀ f : StageForm, (f.expand strength level).isOk = true ↔
      ∀ o ∈ f.options, (o.2.resolve strength level).isOk = true := by
    intro f
    rw [StageForm.expand, Outcome.isOk_bind_of_forall fun _ => rfl, Outcome.isOk_mapM]
    exact forall₂_congr fun o _ => by rw [Outcome.isOk_bind_of_forall fun _ => rfl]
  rw [expand, Outcome.isOk_mapM]
  simp only [hform, OptionForm.isOk_resolve_iff, Fits, amounts, List.mem_flatMap,
    List.mem_filterMap]
  constructor
  · rintro h a ⟨f, hf, o, ho, ha⟩
    exact h f hf o ho a ha
  · exact fun h f hf o ho a ha => h a ⟨f, hf, o, ho, ha⟩

/-- **The effects of the catalogue** fit every strength from zero to one. -/
theorem fits_of_mem {x : Binary64} (h : e ∈ neutralEffect :: effects) (h₀ : 0 ≤ x) (h₁ : x ≤ 1) :
    e.Fits (.real x) none := by
  have hmodest : ∀ e ∈ neutralEffect :: effects, ∀ a ∈ e.amounts, a.isModest = true := by
    decide +kernel
  exact fun a ha => Amount.isFinite_of_isModest (hmodest e h a ha) (Binary64.within_one h₀ h₁)

end Effect

/-! ## Colour grades -/

/-- The setting of a colour cast describes one, or says nothing. -/
def Tint.IsReadable : Tint → Prop
  | .unreadable v => v.isTruthy = false
  | _ => True

namespace Tint

variable {t t' : Tint} {x : Binary64}

theorem isOk_scaled_iff : (t.scaled (.real x)).isOk = true ↔ t.IsReadable := by
  cases t with
  | none => exact iff_of_true rfl trivial
  | cast color strength => exact iff_of_true rfl trivial
  | unreadable v =>
      rw [scaled, IsReadable]
      cases v.isTruthy <;> simp

theorem isReadable_of_scaled (h : t.scaled (.real x) = .ok t') : t'.IsReadable := by
  cases t with
  | none =>
      obtain rfl := Except.ok.inj h
      trivial
  | cast color strength =>
      obtain rfl := Except.ok.inj h
      trivial
  | unreadable v =>
      rw [scaled] at h
      split_ifs at h
      obtain rfl := Except.ok.inj h
      trivial

end Tint

namespace Grade

variable {g g' : Grade} {intensity : Option Binary64}

theorem isOk_stages_iff : g.stages.isOk = true ↔ g.tint.IsReadable := by
  simp only [stages]
  cases g.tint with
  | none => exact iff_of_true rfl trivial
  | cast color strength => exact iff_of_true rfl trivial
  | unreadable v =>
      dsimp only [Tint.IsReadable]
      cases v.isTruthy with
      | false => exact iff_of_true rfl rfl
      | true => exact iff_of_false Bool.false_ne_true Bool.true_eq_false.mp

/-- A grade is scaled unless its strength differs from one and its colour cast cannot be read. -/
theorem isOk_scaled_iff : (g.scaled (intensity.map .real)).isOk = true ↔
    ∀ x ∈ intensity, (x == 1) = false → g.tint.IsReadable := by
  cases intensity with
  | none => simp [scaled]
  | some x =>
      have hone : (Number.real x == 1) = (x == 1) := rfl
      rw [Option.map_some, scaled, hone]
      simp only [Option.mem_some, forall_eq']
      cases x == 1 with
      | true => exact iff_of_true rfl nofun
      | false =>
          rw [if_neg Bool.false_ne_true, Outcome.isOk_bind_of_forall fun _ => rfl,
            Tint.isOk_scaled_iff]
          simp

/-- A grade that is scaled is left as it is, or its colour cast is scaled, and its preview and its
curve are kept. -/
theorem eq_or_tint_of_scaled (h : g.scaled (intensity.map .real) = .ok g') : g' = g ∨
    ∃ x, g.tint.scaled (.real x) = .ok g'.tint ∧ g'.preview = g.preview ∧ g'.curve = g.curve := by
  cases intensity with
  | none => exact .inl (Except.ok.inj h).symm
  | some x =>
      have hreal : (Number.real x).beyondReal = false := rfl
      rw [Option.map_some, scaled, hreal] at h
      split at h
      · exact .inl (Except.ok.inj h).symm
      · obtain ⟨t, ht, h⟩ := Outcome.bind_eq_ok.mp h
        obtain rfl := Except.ok.inj h
        exact .inr ⟨x, ht, rfl, rfl⟩

theorem isReadable_tint_of_scaled (h : g.scaled (intensity.map .real) = .ok g') :
    g'.tint.IsReadable ↔ g.tint.IsReadable := by
  rcases eq_or_tint_of_scaled h with rfl | ⟨x, ht, -, -⟩
  · rfl
  · exact iff_of_true (Tint.isReadable_of_scaled ht)
      (Tint.isOk_scaled_iff.mp (Outcome.isOk_iff.mpr ⟨_, ht⟩))

end Grade

end Montage
