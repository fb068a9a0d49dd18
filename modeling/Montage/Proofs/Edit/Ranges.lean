import Montage.Proofs.Catalog.Accepted
import Montage.Proofs.Number.Exact

/-!
# Accepted edits stay in range

The check looks for a parameter under its names in one order, and the edit that is built in an order
of its own. Where both orders lead to the same value, the number that the edit uses is the one that
was checked, and rounding it into the binary format keeps it in its range. The orders differ in two
places: a change of intensity prefers the new intensity, and a zoom the new zoom.

## Main definitions

* `Edit.InRange`: the numbers of an edit lie in their ranges.
* `Kind.PrefersInRange`: so does the number of the name that only the edit prefers.

## Main statements

* `FieldSpec.exists_admitted_number`: a number that is used is the one that was checked.
* `inRange_iff`: when the numbers of an accepted edit lie in their ranges.
-/
namespace Montage

/-- No value among the fields is the number that is none. -/
def Fields.NoNan (fs : Fields) : Prop := ∀ f ∈ fs, f.2 ≠ .real .nan

/-- A size of text, if there is one: a number in the range of sizes, or a text, which is in that
range if it is made of digits. -/
def Value.IsTextSize : Value → Prop
  | .null => True
  | .number n => 12 ≤ n ∧ n ≤ 120
  | .string s =>
    Text.allDigits s.strip.lowerCase.toList = true →
      ∃ m ∈ (Numeral.integer s.strip.lowerCase).toOption, 12 ≤ m ∧ m ≤ 120
  | _ => False

/-- The numbers of an edit lie in the ranges of its parameters. -/
def Edit.InRange : Edit → Prop
  | .trim p => 0 ≤ p.start ∧ ∀ e ∈ p.finish, 0 < e
  | .removeClip _ => True
  | .colorGrade p => ∀ x ∈ p.intensity, 0 ≤ x ∧ x ≤ 1
  | .applyEffect p => 0 ≤ p.intensity ∧ p.intensity ≤ 1
  | .addText p | .customText p => p.size.IsTextSize
  | .filter p => ∀ x ∈ p.level, 0 ≤ x
  | .addCaptions p => p.size.IsTextSize
  | .adjustIntensity p => ∀ x ∈ p.intensity, 0 ≤ x ∧ x ≤ 2
  | .adjustZoom p => ∀ x ∈ p.zoom, 0 < x ∧ x ≤ 4
  | .adjustSpeed p => p.speed ∈ speeds
  | .rotate p => .finite (-180) ≤ p.degrees ∧ p.degrees ≤ 180
  | .crop p => 0 ≤ p.x ∧ 0 ≤ p.y ∧ 0 < p.width ∧ 0 < p.height

/-- Where a number is given both under the name that the check prefers and under the one that the
edit prefers, the latter is in range as well. -/
def Kind.PrefersInRange (fs : Fields) : Kind → Prop
  | .adjustIntensity =>
    (fs.get "intensity").isPresent → (fs.get "newIntensity").isPresent →
      ∀ x, (fs.get "newIntensity").toReal = .ok x → 0 ≤ x ∧ x ≤ 2
  | .adjustZoom =>
    (fs.get "zoom").isPresent → (fs.get "newZoom").isPresent →
      ∀ x, (fs.get "newZoom").toReal = .ok x → 0 < x ∧ x ≤ 4
  | _ => True

namespace Number

variable {n : Number}

theorem toReal_ne_nan (h : n.IsOrdered) : n.toReal ≠ .nan := by
  cases n with
  | real x => exact h
  | int k => exact Binary64.nearest_ne_nan k

theorem zero_le_toReal (hn : n.IsOrdered) (h : 0 ≤ n) : (0 : Binary64) ≤ n.toReal := by
  have hplace := (le_iff (isOrdered_int 0) hn).mp h
  exact (Binary64.le_iff (by decide) (toReal_ne_nan hn)).mpr (place_toReal_nonneg hplace)

theorem zero_lt_toReal (hn : n.IsOrdered) (h : 0 < n) : (0 : Binary64) < n.toReal := by
  have hplace := (lt_iff (isOrdered_int 0) hn).mp h
  exact (Binary64.lt_iff (by decide) (toReal_ne_nan hn)).mpr (place_toReal_pos hplace)

/-- Rounding keeps a number between two small integers between them. -/
theorem toReal_between {a b : Int} (hn : n.IsOrdered) (ha : -2 ^ 53 < a) (hb : b < 2 ^ 53)
    (hlow : .int a ≤ n) (hhigh : n ≤ .int b) :
    Binary64.finite a ≤ n.toReal ∧ n.toReal ≤ Binary64.finite b := by
  rw [le_iff (isOrdered_int a) hn] at hlow
  rw [le_iff hn (isOrdered_int b)] at hhigh
  have hplace : n.toReal.place = n.place := by
    refine place_toReal_of_small fun k hk => ?_
    subst hk
    have hak : (a : ℚ) ≤ k := WithTop.coe_le_coe.mp (WithBot.coe_le_coe.mp hlow)
    have hkb : (k : ℚ) ≤ b := WithTop.coe_le_coe.mp (WithBot.coe_le_coe.mp hhigh)
    have hak' : a ≤ k := by exact_mod_cast hak
    have hkb' : k ≤ b := by exact_mod_cast hkb
    exact abs_lt.mpr ⟨by omega, by omega⟩
  have hnan := toReal_ne_nan hn
  constructor
  · rw [Binary64.le_iff (by simp) hnan, hplace]
    exact hlow
  · rw [Binary64.le_iff hnan (by simp), hplace]
    exact hhigh

end Number

/-- A binary number in the place of a rational other than zero is that rational. -/
theorem Binary64.eq_finite_of_place {x : Binary64} {v : ℚ} (hx : x ≠ .nan) (hv : v ≠ 0)
    (h : x.place = (finite v).place) : x = finite v := by
  cases x with
  | finite w => rw [WithTop.coe_injective (WithBot.coe_injective h)]
  | negZero => exact absurd (WithTop.coe_injective (WithBot.coe_injective h)).symm hv
  | infinite negative => cases negative <;> simp [place] at h
  | nan => exact absurd rfl hx

/-- A number equal to a speed on offer is that speed once it is rounded. -/
theorem Number.toReal_mem_speeds {n : Number} {s : Binary64} (hn : n.IsOrdered) (hs : s ∈ speeds)
    (h : (n == .real s) = true) : n.toReal ∈ speeds := by
  have hexact : ∀ s ∈ speeds, ∃ v ∈ s.toRat?, v ≠ 0 ∧ s = .finite v ∧
      Binary64.nearest v = .finite v := by decide +kernel
  obtain ⟨v, -, hv, rfl, hnearest⟩ := hexact s hs
  rw [beq_iff hn (by simp [IsOrdered, exact])] at h
  have hvalue : n.exact = .finite v := Binary64.eq_finite_of_place hn hv h
  cases n with
  | real x => exact (show x = .finite v from hvalue) ▸ hs
  | int k =>
      have hk : (k : ℚ) = v := Binary64.finite.inj hvalue
      rw [toReal, hk, hnearest]
      exact hs

namespace FieldSpec

variable {k : Kind} {fs : Fields} {f : FieldSpec} {v : Value} {x : Binary64}

theorem find?_eq_some_of_first? (h : fs.first? f.keys = some v) :
    ∃ key, f.find? fs = some (key, v) := by
  obtain ⟨⟨key, w⟩, hpick, rfl⟩ := Option.map_eq_some_iff.mp h
  exact ⟨key, hpick⟩

/-- What is found under the names of a parameter of accepted fields passes the check of it. -/
theorem exists_valueProblems (h : fieldProblems k fs = .ok []) (hf : f ∈ checkedFields k)
    (hv : fs.first? f.keys = some v) : ∃ key, f.valueProblems key v = .ok [] := by
  have hproblems := (fieldProblems_eq_nil.mp h).1 f hf
  obtain ⟨key, hfind⟩ := find?_eq_some_of_first? hv
  rw [problems, hfind] at hproblems
  exact ⟨key, hproblems⟩

/-- A number that passes the check of a range closed on both sides lies in the range. -/
theorem between_of_rangeProblems {key : String} {n low high : Number}
    (hmin : f.minimum = some low) (hmax : f.maximum = some high) (hchoices : f.choices = [])
    (h : f.rangeProblems key n = .ok []) : low ≤ n ∧ n ≤ high := by
  by_contra hout
  simp only [rangeProblems, hmin, hmax, hchoices, List.isEmpty_nil, Bool.not_true, if_neg hout,
    Bool.false_eq_true, if_false] at h
  obtain ⟨a, -, h⟩ := Outcome.bind_eq_ok.mp h
  obtain ⟨b, -, h⟩ := Outcome.bind_eq_ok.mp h
  obtain ⟨c, -, h⟩ := Outcome.bind_eq_ok.mp h
  cases h

/-- A size that passes its check is in the range of sizes. -/
theorem isTextSize_of_sizeProblems {key : String} (hmin : f.minimum = some 12)
    (hmax : f.maximum = some 120) (hchoices : f.choices = [])
    (h : f.sizeProblems key v = .ok []) : v.IsTextSize := by
  cases v with
  | number n => exact between_of_rangeProblems hmin hmax hchoices h
  | string s =>
      intro hdigits
      simp only [sizeProblems, hdigits, if_true] at h
      obtain ⟨m, hm, hrange⟩ := Outcome.bind_eq_ok.mp h
      obtain ⟨hlow, hhigh⟩ := between_of_rangeProblems hmin hmax hchoices hrange
      rw [Number.le_iff (by decide) (Number.isOrdered_int m)] at hlow
      rw [Number.le_iff (Number.isOrdered_int m) (by decide)] at hhigh
      have hlow' : (12 : ℚ) ≤ m := WithTop.coe_le_coe.mp (WithBot.coe_le_coe.mp hlow)
      have hhigh' : (m : ℚ) ≤ 120 := WithTop.coe_le_coe.mp (WithBot.coe_le_coe.mp hhigh)
      exact ⟨m, by rw [hm]; rfl, by exact_mod_cast hlow', by exact_mod_cast hhigh'⟩
  | _ => cases h

end FieldSpec

theorem truncate_intCast (k : Int) : Binary64.truncate (k : ℚ) = k := by
  rw [Binary64.truncate, ← Int.cast_neg, Rat.floor_intCast, Rat.floor_intCast]
  split_ifs <;> omega

/-- A size without a fraction stays in its place when it is taken for an integer. -/
theorem place_truncate {x : Binary64} {v : ℚ} (hinteger : x.isInteger = true)
    (hv : x.toRat? = some v) :
    (Number.int (Binary64.truncate v)).place = (Number.real x).place := by
  cases x with
  | finite w =>
      obtain rfl : w = v := Option.some.inj hv
      have hw : (w.num : ℚ) = w := Rat.coe_int_num_of_den_eq_one (of_decide_eq_true hinteger)
      rw [← hw, truncate_intCast]
      rfl
  | negZero =>
      obtain rfl : 0 = v := Option.some.inj hv
      rfl
  | _ => cases hv

theorem isTextSize_wholeSize {v : Value} (h : v.IsTextSize) :
    (TextParams.wholeSize v).IsTextSize := by
  unfold TextParams.wholeSize
  split
  · rename_i x
    split
    · rename_i v hinteger hv
      have hx : (Number.real x).IsOrdered := by
        rintro rfl
        cases hv
      have hplace := place_truncate hinteger hv
      obtain ⟨hlow, hhigh⟩ := h
      rw [Number.le_iff (by decide) hx, ← hplace] at hlow
      rw [Number.le_iff hx (by decide), ← hplace] at hhigh
      exact ⟨(Number.le_iff (by decide) (Number.isOrdered_int _)).mpr hlow,
        (Number.le_iff (Number.isOrdered_int _) (by decide)).mpr hhigh⟩
    · exact h
  · exact h

namespace Fields

/-- The number that is read under several keys. -/
def Uses (fs : Fields) (keys : List String) (x : Binary64) : Prop :=
  ∃ v, fs.first? keys = some v ∧ v.toReal = .ok x

variable {fs : Fields} {keys : List String} {key : String} {x : Binary64}

theorem mem_real?_iff {t : Option Binary64} (h : fs.real? keys = .ok t) :
    x ∈ t ↔ fs.Uses keys x := by
  rw [real?] at h
  rw [Uses]
  cases hfirst : fs.first? keys with
  | none =>
      rw [hfirst] at h
      cases h
      simp
  | some v =>
      rw [hfirst] at h
      obtain ⟨y, hy, rfl⟩ := Outcome.map_eq_ok.mp h
      simp [hy, eq_comm]

/-- A number that is read was found under one of the keys, or it is the default. -/
theorem uses_of_real {d : Binary64} (h : fs.real keys d = .ok x) : x = d ∨ fs.Uses keys x := by
  rw [real] at h
  cases hfirst : fs.first? keys with
  | none =>
      rw [hfirst] at h
      exact .inl (Except.ok.inj h).symm
  | some v =>
      rw [hfirst] at h
      exact .inr ⟨v, hfirst, h⟩

theorem uses_of_get (h : (fs.get key).toReal = .ok x) : fs.Uses [key] x :=
  ⟨fs.get key, by rw [first?_cons, if_pos (Value.IsReal.isPresent ⟨x, h⟩)], h⟩

theorem uses_of_requiredReal (h : fs.requiredReal key = .ok x) : fs.Uses [key] x :=
  uses_of_get (requiredReal_eq_ok_iff.mp h)

/-- What holds of a number read in one order of two names holds of it in the other order too, if it
holds of the number under the other name where both are given. -/
theorem forall_uses_swap_iff {other : String} {P : Binary64 → Prop}
    (h : ∀ x, fs.Uses (key :: other :: keys) x → P x) :
    (∀ x, fs.Uses (other :: key :: keys) x → P x) ↔
      ((fs.get key).isPresent → (fs.get other).isPresent →
        ∀ x, (fs.get other).toReal = .ok x → P x) := by
  simp only [Uses, first?_cons] at h ⊢
  by_cases hkey : (fs.get key).isPresent = true
  · by_cases hother : (fs.get other).isPresent = true
    · simp [hkey, hother]
    · simpa [hkey, hother] using h
  · simpa [hkey] using h

/-- The level of a filter is read under the name of its strength where that comes first. -/
theorem uses_level (h : fs.Uses ["level", "intensity", "value"] x) :
    fs.Uses ["level", "value"] x ∨ fs.Uses ["intensity"] x := by
  simp only [Uses, first?_cons] at h ⊢
  by_cases hlevel : (fs.get "level").isPresent = true
  · exact .inl (by simpa [hlevel] using h)
  · by_cases hintensity : (fs.get "intensity").isPresent = true
    · exact .inr (by simpa [hlevel, hintensity] using h)
    · exact .inl (by simpa [hlevel, hintensity] using h)

end Fields

section

variable {k : Kind} {fs : Fields} {f : FieldSpec} {x : Binary64}
  (h : fieldProblems k fs = .ok [])

include h

section

variable (hnan : fs.NoNan) (hf : f ∈ checkedFields k) (htype : f.type = .number)

include hnan hf htype

/-- What is found under the names of a number is one, and the parameter admits it. -/
theorem FieldSpec.exists_ordered_number {v : Value} (hv : fs.first? f.keys = some v) :
    ∃ n : Number, v = .number n ∧ n.IsOrdered ∧ f.Admits n := by
  obtain ⟨key, hfind⟩ := find?_eq_some_of_first? hv
  obtain ⟨n, rfl, hadm⟩ := exists_number (regular_of_mem_checkedFields f hf) htype
    ((fieldProblems_eq_nil.mp h).1 f hf) hfind
  have hn : n.IsOrdered := by
    intro hexact
    cases n with
    | int k => cases hexact
    | real y =>
        obtain rfl : y = .nan := hexact
        exact hnan _ (Fields.mem_of_get? (Fields.get?_of_pick? hfind)) rfl
  exact ⟨n, rfl, hn, hadm hn⟩

variable (hx : fs.Uses f.keys x)

include hx

/-- **What is used was checked.** A number that is read under the names of a parameter, in the order
of the check, is admitted by it before it is rounded. -/
theorem FieldSpec.exists_admitted_number :
    ∃ n : Number, x = n.toReal ∧ n.IsOrdered ∧ f.Admits n := by
  obtain ⟨v, hv, hx⟩ := hx
  obtain ⟨n, rfl, hn, hadm⟩ := exists_ordered_number h hnan hf htype hv
  refine ⟨n, ?_, hn, hadm⟩
  rw [Value.toReal, Number.toReal?] at hx
  split_ifs at hx
  exact (Except.ok.inj hx).symm

theorem zero_le_of_uses (hmin : f.minimum = some 0) : 0 ≤ x := by
  obtain ⟨n, rfl, hn, hadm⟩ := FieldSpec.exists_admitted_number h hnan hf htype hx
  exact Number.zero_le_toReal hn (hadm.minimum 0 hmin)

theorem zero_lt_of_uses (habove : f.above = some 0) : 0 < x := by
  obtain ⟨n, rfl, hn, hadm⟩ := FieldSpec.exists_admitted_number h hnan hf htype hx
  exact Number.zero_lt_toReal hn (hadm.above 0 habove)

theorem between_of_uses {a b : Int} (hmin : f.minimum = some (.int a))
    (hmax : f.maximum = some (.int b)) (ha : -2 ^ 53 < a) (hb : b < 2 ^ 53) :
    .finite a ≤ x ∧ x ≤ .finite b := by
  obtain ⟨n, rfl, hn, hadm⟩ := FieldSpec.exists_admitted_number h hnan hf htype hx
  exact Number.toReal_between hn ha hb (hadm.minimum _ hmin) (hadm.maximum _ hmax)

theorem le_of_uses {b : Int} (habove : f.above = some 0) (hmax : f.maximum = some (.int b))
    (hb : b < 2 ^ 53) : x ≤ .finite b := by
  obtain ⟨n, rfl, hn, hadm⟩ := FieldSpec.exists_admitted_number h hnan hf htype hx
  have hpos := (Number.lt_iff (Number.isOrdered_int 0) hn).mp (hadm.above 0 habove)
  have hlow : .int 0 ≤ n := (Number.le_iff (Number.isOrdered_int 0) hn).mpr hpos.le
  exact (Number.toReal_between hn (by norm_num) hb hlow (hadm.maximum _ hmax)).2

theorem mem_speeds_of_uses (hchoices : f.choices = speeds.map Value.real) : x ∈ speeds := by
  obtain ⟨n, rfl, hn, hadm⟩ := FieldSpec.exists_admitted_number h hnan hf htype hx
  obtain ⟨c, hc, m, hm, heq⟩ := hadm.choice.resolve_left (by rw [hchoices]; exact nofun)
  rw [hchoices] at hc
  obtain ⟨s, hs, rfl⟩ := List.mem_map.mp hc
  obtain rfl : .real s = m := Option.some.inj hm
  exact Number.toReal_mem_speeds hn hs heq

end

/-- An accepted size is in the range of sizes. -/
theorem isTextSize_value (hf : f ∈ checkedFields k) (htype : f.type = .size)
    (hmin : f.minimum = some 12) (hmax : f.maximum = some 120) (hchoices : f.choices = []) :
    (fs.value f.keys).IsTextSize := by
  rw [Fields.value]
  cases hfirst : fs.first? f.keys with
  | none => trivial
  | some v =>
      obtain ⟨key, hproblems⟩ := FieldSpec.exists_valueProblems h hf hfirst
      simp only [FieldSpec.valueProblems, htype] at hproblems
      exact FieldSpec.isTextSize_of_sizeProblems hmin hmax hchoices hproblems

variable (hnan : fs.NoNan)

include hnan

theorem TrimParams.inRange_of_accepted {p : TrimParams} (hk : k = .trim)
    (hp : TrimParams.ofFields fs = .ok p) : (Edit.trim p).InRange := by
  subst hk
  obtain ⟨start, hstart, hp⟩ := Outcome.bind_eq_ok.mp hp
  obtain ⟨finish, hfinish, hp⟩ := Outcome.bind_eq_ok.mp hp
  obtain rfl := Except.ok.inj hp
  refine ⟨?_, fun e he => ?_⟩
  · rcases Fields.uses_of_real hstart with hzero | hx
    · exact hzero ▸ (by decide : (0 : Binary64) ≤ 0)
    · exact zero_le_of_uses h hnan (.head _) rfl hx rfl
  · exact zero_lt_of_uses h hnan (.tail _ (.head _)) rfl ((Fields.mem_real?_iff hfinish).mp he) rfl

theorem GradeParams.inRange_of_accepted {p : GradeParams} (hk : k = .colorGrade)
    (hp : GradeParams.ofFields fs = .ok p) : (Edit.colorGrade p).InRange := by
  subst hk
  rw [GradeParams.ofFields] at hp
  split at hp
  · obtain rfl := Except.ok.inj hp
    rintro y ⟨⟩
  · obtain ⟨x, hx, hp⟩ := Outcome.bind_eq_ok.mp hp
    obtain rfl := Except.ok.inj hp
    rintro y ⟨⟩
    exact between_of_uses h hnan (.tail _ (.head _)) rfl (Fields.uses_of_get hx) rfl rfl
      (by decide) (by decide)

theorem EffectParams.inRange_of_accepted {p : EffectParams} (hk : k = .applyEffect)
    (hp : EffectParams.ofFields fs = .ok p) : (Edit.applyEffect p).InRange := by
  subst hk
  obtain ⟨x, hx, hp⟩ := Outcome.bind_eq_ok.mp hp
  obtain rfl := Except.ok.inj hp
  rcases Fields.uses_of_real hx with rfl | huses
  · exact (by decide +kernel :
      (0 : Binary64) ≤ .nearest (1 / 2) ∧ .nearest (1 / 2) ≤ (1 : Binary64))
  · exact between_of_uses h hnan (.tail _ (.head _)) rfl huses rfl rfl (by decide) (by decide)

theorem FilterParams.inRange_of_accepted {p : FilterParams} (hk : k = .filter)
    (hp : FilterParams.ofFields fs = .ok p) : (Edit.filter p).InRange := by
  subst hk
  obtain ⟨level, hlevel, hp⟩ := Outcome.bind_eq_ok.mp hp
  obtain rfl := Except.ok.inj hp
  intro x hx
  rcases Fields.uses_level ((Fields.mem_real?_iff hlevel).mp hx) with huses | huses
  · exact zero_le_of_uses h hnan (.tail _ (.head _)) rfl huses rfl
  · exact zero_le_of_uses h hnan (.tail _ (.tail _ (.head _))) rfl huses rfl

theorem IntensityParams.inRange_iff_of_accepted {p : IntensityParams} (hk : k = .adjustIntensity)
    (hp : IntensityParams.ofFields fs = .ok p) :
    (Edit.adjustIntensity p).InRange ↔ k.PrefersInRange fs := by
  subst hk
  obtain ⟨intensity, hintensity, hp⟩ := Outcome.bind_eq_ok.mp hp
  obtain rfl := Except.ok.inj hp
  have hchecked : ∀ x, fs.Uses ["intensity", "newIntensity"] x → 0 ≤ x ∧ x ≤ 2 := fun x huses =>
    between_of_uses h hnan (.head _) rfl huses rfl rfl (by decide) (by decide)
  simp only [Edit.InRange, Fields.mem_real?_iff hintensity]
  exact Fields.forall_uses_swap_iff hchecked

theorem ZoomParams.inRange_iff_of_accepted {p : ZoomParams} (hk : k = .adjustZoom)
    (hp : ZoomParams.ofFields fs = .ok p) :
    (Edit.adjustZoom p).InRange ↔ k.PrefersInRange fs := by
  subst hk
  obtain ⟨zoom, hzoom, hp⟩ := Outcome.bind_eq_ok.mp hp
  obtain rfl := Except.ok.inj hp
  have hchecked : ∀ x, fs.Uses ["zoom", "newZoom", "zoomLevel"] x → 0 < x ∧ x ≤ 4 :=
    fun x huses => ⟨zero_lt_of_uses h hnan (.head _) rfl huses rfl,
      le_of_uses h hnan (.head _) rfl huses rfl rfl (by decide)⟩
  simp only [Edit.InRange, Fields.mem_real?_iff hzoom]
  exact Fields.forall_uses_swap_iff hchecked

theorem SpeedParams.inRange_of_accepted {p : SpeedParams} (hk : k = .adjustSpeed)
    (hp : SpeedParams.ofFields fs = .ok p) : (Edit.adjustSpeed p).InRange := by
  subst hk
  obtain ⟨x, hx, hp⟩ := Outcome.bind_eq_ok.mp hp
  obtain rfl := Except.ok.inj hp
  rcases Fields.uses_of_real hx with rfl | huses
  · exact .tail _ (.head _)
  · exact mem_speeds_of_uses h hnan (.head _) rfl huses rfl

theorem RotationParams.inRange_of_accepted {p : RotationParams} (hk : k = .rotate)
    (hp : RotationParams.ofFields fs = .ok p) : (Edit.rotate p).InRange := by
  subst hk
  obtain ⟨x, hx, hp⟩ := Outcome.bind_eq_ok.mp hp
  obtain rfl := Except.ok.inj hp
  rcases Fields.uses_of_real hx with rfl | huses
  · exact (by decide +kernel : Binary64.finite (-180) ≤ 0 ∧ (0 : Binary64) ≤ 180)
  · exact between_of_uses h hnan (.head _) rfl huses rfl rfl (by decide) (by decide)

theorem CropParams.inRange_of_accepted {p : CropParams} (hk : k = .crop)
    (hp : CropParams.ofFields fs = .ok p) : (Edit.crop p).InRange := by
  subst hk
  obtain ⟨x, hx, hp⟩ := Outcome.bind_eq_ok.mp hp
  obtain ⟨y, hy, hp⟩ := Outcome.bind_eq_ok.mp hp
  obtain ⟨width, hwidth, hp⟩ := Outcome.bind_eq_ok.mp hp
  obtain ⟨height, hheight, hp⟩ := Outcome.bind_eq_ok.mp hp
  obtain rfl := Except.ok.inj hp
  exact ⟨zero_le_of_uses h hnan (.head _) rfl (Fields.uses_of_requiredReal hx) rfl,
    zero_le_of_uses h hnan (.tail _ (.head _)) rfl (Fields.uses_of_requiredReal hy) rfl,
    zero_lt_of_uses h hnan (.tail _ (.tail _ (.head _))) rfl
      (Fields.uses_of_requiredReal hwidth) rfl,
    zero_lt_of_uses h hnan (.tail _ (.tail _ (.tail _ (.head _)))) rfl
      (Fields.uses_of_requiredReal hheight) rfl⟩

theorem Edit.inRange_iff_of_accepted {e : Edit} (he : Edit.ofFields k fs = .ok e) :
    e.InRange ↔ k.PrefersInRange fs := by
  cases k with
  | trim =>
      obtain ⟨p, hp, rfl⟩ := Outcome.map_eq_ok.mp he
      exact iff_of_true (p.inRange_of_accepted h hnan rfl hp) trivial
  | removeClip =>
      obtain ⟨p, hp, rfl⟩ := Outcome.map_eq_ok.mp he
      exact iff_of_true trivial trivial
  | colorGrade =>
      obtain ⟨p, hp, rfl⟩ := Outcome.map_eq_ok.mp he
      exact iff_of_true (p.inRange_of_accepted h hnan rfl hp) trivial
  | applyEffect =>
      obtain ⟨p, hp, rfl⟩ := Outcome.map_eq_ok.mp he
      exact iff_of_true (p.inRange_of_accepted h hnan rfl hp) trivial
  | addText | customText =>
      obtain rfl := Except.ok.inj he
      refine iff_of_true (isTextSize_wholeSize ?_) trivial
      exact isTextSize_value h (.tail _ (.tail _ (.head _))) rfl rfl rfl rfl
  | filter =>
      obtain ⟨p, hp, rfl⟩ := Outcome.map_eq_ok.mp he
      exact iff_of_true (p.inRange_of_accepted h hnan rfl hp) trivial
  | addCaptions =>
      obtain ⟨p, hp, rfl⟩ := Outcome.map_eq_ok.mp he
      obtain ⟨cues, -, hp⟩ := Outcome.bind_eq_ok.mp hp
      obtain rfl := Except.ok.inj hp
      refine iff_of_true ?_ trivial
      exact isTextSize_value h (.tail _ (.tail _ (.tail _ (.head _)))) rfl rfl rfl rfl
  | adjustIntensity =>
      obtain ⟨p, hp, rfl⟩ := Outcome.map_eq_ok.mp he
      exact p.inRange_iff_of_accepted h hnan rfl hp
  | adjustZoom =>
      obtain ⟨p, hp, rfl⟩ := Outcome.map_eq_ok.mp he
      exact p.inRange_iff_of_accepted h hnan rfl hp
  | adjustSpeed =>
      obtain ⟨p, hp, rfl⟩ := Outcome.map_eq_ok.mp he
      exact iff_of_true (p.inRange_of_accepted h hnan rfl hp) trivial
  | rotate =>
      obtain ⟨p, hp, rfl⟩ := Outcome.map_eq_ok.mp he
      exact iff_of_true (p.inRange_of_accepted h hnan rfl hp) trivial
  | crop =>
      obtain ⟨p, hp, rfl⟩ := Outcome.map_eq_ok.mp he
      exact iff_of_true (p.inRange_of_accepted h hnan rfl hp) trivial

end

/-- Accepted parameters are none or an object without problems. -/
theorem exists_fields_of_valid {kind params : Value} {verdict : Verdict}
    (h : validate kind params = .ok verdict) (hvalid : verdict.valid = true) :
    ∃ k fs, Kind.ofValue? kind = some k ∧ fieldProblems k fs = .ok [] ∧
      (params = .object fs ∨ params = .null ∧ fs = []) := by
  obtain ⟨found, hfound, rfl⟩ := Outcome.map_eq_ok.mp h
  obtain rfl : found = [] := by
    cases found with
    | nil => rfl
    | cons p ps => cases hvalid
  simp only [problems] at hfound
  split at hfound
  · cases hfound
  · rename_i k hk
    exact ⟨k, [], hk, hfound, .inr ⟨rfl, rfl⟩⟩
  · rename_i k fs hk
    exact ⟨k, fs, hk, hfound, .inl rfl⟩
  · cases hfound

/-- The fields of an accepted edit have no problem. -/
theorem fieldProblems_of_valid {kind : Value} {k : Kind} {fs : Fields} {verdict : Verdict}
    (hkind : Kind.ofValue? kind = some k) (hverdict : validate kind (.object fs) = .ok verdict)
    (hvalid : verdict.valid = true) : fieldProblems k fs = .ok [] := by
  obtain ⟨k', fs', hkind', haccepted, hparams⟩ := exists_fields_of_valid hverdict hvalid
  obtain rfl : k = k' := Option.some.inj (hkind.symm.trans hkind')
  rcases hparams with hobject | ⟨hnull, -⟩
  · obtain rfl : fs = fs' := Value.object.inj hobject
    exact haccepted
  · cases hnull

/-- **When an accepted edit is in range.** Its numbers lie in the ranges of its parameters just if
the number under a name that only the edit prefers does, where the check has looked at another. -/
theorem inRange_iff {kind params : Value} {window : Option Window} {verdict : Verdict}
    {o : Operation} (hverdict : validate kind params = .ok verdict)
    (hvalid : verdict.valid = true) (hbuild : Operation.build kind params window = .ok o)
    (hnan : ∀ fs, params = .object fs → Fields.NoNan fs) :
    o.edit.InRange ↔ ∀ fs, params = .object fs → o.kind.PrefersInRange fs := by
  obtain ⟨k, fs, hk, haccepted, hparams⟩ := exists_fields_of_valid hverdict hvalid
  rw [Operation.build_of_kind hk, Outcome.mapError_eq_ok] at hbuild
  have hfields : Operation.ofFields k fs window = .ok o := by
    rcases hparams with rfl | ⟨rfl, rfl⟩
    · rwa [Operation.ofValue_object] at hbuild
    · exact hbuild
  have hedit := Operation.edit_of_ofFields hfields
  have hkind : o.kind = k := Edit.kind_of_ofFields hedit
  rw [hkind]
  rcases hparams with rfl | ⟨rfl, rfl⟩
  · rw [Edit.inRange_iff_of_accepted haccepted (hnan fs rfl) hedit]
    exact ⟨fun h gs hgs => Value.object.inj hgs ▸ h, fun h => h fs rfl⟩
  · rw [Edit.inRange_iff_of_accepted haccepted (fun f hf => nomatch hf) hedit]
    refine iff_of_true ?_ nofun
    cases k <;> first | trivial | exact nofun

/-- Both names of an intensity with numbers that pass. -/
theorem inRange_two_intensities :
    ∃ o, Operation.build (.string "adjustIntensity")
        (.object [("intensity", .int 1), ("newIntensity", .int 2)]) none = .ok o ∧
      o.edit.InRange := by
  have hverdict : validate (.string "adjustIntensity")
      (.object [("intensity", .int 1), ("newIntensity", .int 2)]) = .ok .accepted := by rfl
  have hkind : ((Operation.build (.string "adjustIntensity")
      (.object [("intensity", .int 1), ("newIntensity", .int 2)]) none).toOption.map
        Operation.kind) = some .adjustIntensity := by decide +kernel
  have hnew : (Value.int 2).toReal = .ok (.finite 2) := by decide +kernel
  cases hbuild : Operation.build (.string "adjustIntensity")
      (.object [("intensity", .int 1), ("newIntensity", .int 2)]) none with
  | error e =>
      rw [hbuild] at hkind
      cases hkind
  | ok o =>
      rw [hbuild] at hkind
      refine ⟨o, rfl, (inRange_iff hverdict rfl hbuild ?_).mpr ?_⟩
      · rintro fs ⟨⟩
        simp [Fields.NoNan]
      · rintro fs ⟨⟩
        rw [show o.kind = .adjustIntensity from Option.some.inj hkind]
        intro _ _ x hx
        obtain rfl : .finite 2 = x := Except.ok.inj (hnew.symm.trans hx)
        decide

/-- A new intensity is used without having been looked at, beside an intensity that passes. -/
theorem not_inRange_new_intensity :
    ¬∀ o, validate (.string "adjustIntensity")
          (.object [("intensity", .int 1), ("newIntensity", .int 99)]) = .ok .accepted →
        Operation.build (.string "adjustIntensity")
          (.object [("intensity", .int 1), ("newIntensity", .int 99)]) none = .ok o →
        o.edit.InRange := by
  intro h
  have hused : ((Operation.build (.string "adjustIntensity")
      (.object [("intensity", .int 1), ("newIntensity", .int 99)]) none).toOption.bind fun o =>
        match o.edit with
        | .adjustIntensity p => p.intensity
        | _ => none) = some (.finite 99) := by decide +kernel
  cases hbuild : Operation.build (.string "adjustIntensity")
      (.object [("intensity", .int 1), ("newIntensity", .int 99)]) none with
  | error e =>
      rw [hbuild] at hused
      cases hused
  | ok o =>
      rw [hbuild] at hused
      have hrange := h o (by rfl) hbuild
      obtain ⟨e, window⟩ := o
      cases e with
      | adjustIntensity p => exact absurd (hrange _ hused).2 (by decide)
      | _ => cases hused

end Montage
