import Montage.Proofs.Edit.Ranges
import Montage.Proofs.Number.Stored

/-!
# The times of a trim

A trim keeps what lies between two times, and each of them goes by two names. The check of their
order takes what is under the first name, if that is there at all; the trim takes the first value
that is present. So a first name without a value hides the time under the second one from the check
of the order. The check also compares the times as they are given, and a trim holds them rounded.
Rounding keeps their order, but it can put two integers on one binary number.

## Main definitions

* `TrimParams.IsProper`: the trim ends after it starts.
* `Fields.hides`: a name without a value, which hides the next one from the check.
* `Fields.TimesFit`: what a request has to see to by itself.

## Main statements

* `Number.place_toReal_mono`: rounding keeps the order of stored numbers.
* `exists_trim_isProper_iff`: when an accepted trim is proper.
-/
namespace Montage

/-- The part that is kept starts at zero or later, and ends after its start. -/
structure TrimParams.IsProper (p : TrimParams) : Prop where
  start : 0 ≤ p.start
  order : ∀ e ∈ p.finish, p.start < e

namespace Fields

/-- The key is there without a value, so that the check of the order does not look any further. -/
def hides (fs : Fields) (key : String) : Bool := fs.has key && !(fs.get key).isPresent

/-- The finite binary numbers among the values are numbers of the format. -/
def InFormat (fs : Fields) : Prop := ∀ f ∈ fs, ∀ x, f.2 = .real x → x.IsFinite → x.IsStored

/-- Where both times of a trim are given, rounding keeps them apart, and they are in order if one of
them may be hidden from the check. -/
def TimesFit (fs : Fields) : Prop :=
  ∀ s e : Number, fs.first? ["start", "startTime"] = some (.number s) →
    fs.first? ["end", "endTime"] = some (.number e) →
      s.toReal ≠ e.toReal ∧ (fs.hides "start" ∨ fs.hides "end" → s < e)

end Fields

/-! ## Rounding two numbers -/

/-- Above zero, no two binary numbers share a place. -/
theorem Binary64.eq_of_place {x y : Binary64} (hx : x ≠ .nan) (hpos : 0 < y.place)
    (h : x.place = y.place) : x = y := by
  cases y with
  | finite v =>
      have hv : (0 : ℚ) < v := WithTop.coe_lt_coe.mp (WithBot.coe_lt_coe.mp hpos)
      exact eq_finite_of_place hx hv.ne' h
  | infinite negative =>
      cases negative with
      | true => exact absurd hpos (not_lt.mpr bot_le)
      | false =>
          cases x with
          | infinite negative => cases negative <;> simp [place] at h ⊢
          | nan => exact absurd rfl hx
          | finite v => cases WithBot.coe_injective h
          | negZero => cases WithBot.coe_injective h
  | negZero => exact absurd hpos (lt_irrefl 0)
  | nan => exact absurd hpos (lt_irrefl 0)

namespace Number

variable {m n : Number}

/-- The number rounds to a finite number of the format, or it is infinite by itself. -/
def IsHeld (n : Number) : Prop := n.toReal.IsStored ∨ ∃ negative, n = .real (.infinite negative)

/-- What a number above zero is rounded to is the nearest number of the format. -/
theorem exists_nearest (hpos : 0 < n.place) (hstored : n.toReal.IsStored) :
    ∃ q v : ℚ, n.place = ((q : WithTop ℚ) : Line) ∧ 0 < q ∧ Binary64.nearest q = .finite v ∧
      n.toReal = .finite v := by
  obtain ⟨v, hv, hnearest⟩ := hstored
  cases n with
  | int k =>
      have hk : (0 : ℚ) < k := WithTop.coe_lt_coe.mp (WithBot.coe_lt_coe.mp hpos)
      have hreal := Binary64.nearest_eq_of_toRat? hk hv
      exact ⟨k, v, rfl, hk, hreal, hreal⟩
  | real x =>
      cases x with
      | finite w =>
          obtain rfl : w = v := Option.some.inj hv
          exact ⟨w, w, rfl, WithTop.coe_lt_coe.mp (WithBot.coe_lt_coe.mp hpos), hnearest, rfl⟩
      | negZero => exact absurd hpos (lt_irrefl 0)
      | infinite _ => cases hv
      | nan => cases hv

/-- **Rounding keeps the order** of numbers from zero on. -/
theorem place_toReal_mono (h₀ : 0 ≤ m.place) (hle : m.place ≤ n.place) (hm : m.IsHeld)
    (hn : n.IsHeld) : m.toReal.place ≤ n.toReal.place := by
  rcases h₀.eq_or_lt with hzero | hpos
  · have hreal : m.toReal.place = 0 := by
      cases m with
      | real x => exact hzero.symm
      | int k =>
          have hk : (0 : ℚ) = k := WithTop.coe_injective (WithBot.coe_injective hzero)
          obtain rfl : k = 0 := by exact_mod_cast hk.symm
          rfl
    rw [hreal]
    exact place_toReal_nonneg (h₀.trans hle)
  · rcases hn with hn | ⟨negative, rfl⟩
    · rcases hm with hm | ⟨negative, rfl⟩
      · obtain ⟨q, v, hq, hq₀, hv, hmv⟩ := exists_nearest hpos hm
        obtain ⟨r, w, hr, -, hw, hnw⟩ := exists_nearest (hpos.trans_le hle) hn
        rw [hq, hr] at hle
        have hqr : q ≤ r := WithTop.coe_le_coe.mp (WithBot.coe_le_coe.mp hle)
        rw [hmv, hnw]
        exact WithBot.coe_le_coe.mpr (WithTop.coe_le_coe.mpr
          (Binary64.le_of_nearest hq₀ hqr hv hw))
      · obtain ⟨r, w, hr, -⟩ := exists_nearest (hpos.trans_le hle) hn
        rw [hr] at hle
        cases negative with
        | true => exact absurd hpos (not_lt.mpr bot_le)
        | false => exact absurd hle (WithBot.coe_lt_coe.mpr (WithTop.coe_lt_top r)).not_ge
    · cases negative with
      | true => exact absurd (hpos.trans_le hle) (not_lt.mpr bot_le)
      | false => exact le_top

/-- **Two rounded numbers** are in order just if the numbers are and rounding keeps them apart. -/
theorem toReal_lt_toReal_iff (hmo : m.IsOrdered) (hno : n.IsOrdered) (hm : m.IsHeld)
    (hn : n.IsHeld) (h₀ : 0 ≤ m) (hpos : 0 < n) :
    m.toReal < n.toReal ↔ m.toReal ≠ n.toReal ∧ m < n := by
  replace h₀ : 0 ≤ m.place := (le_iff (isOrdered_int 0) hmo).mp h₀
  replace hpos : 0 < n.place := (lt_iff (isOrdered_int 0) hno).mp hpos
  rw [Binary64.lt_iff (toReal_ne_nan hmo) (toReal_ne_nan hno), lt_iff hmo hno]
  constructor
  · intro hlt
    refine ⟨fun heq => hlt.ne (congrArg Binary64.place heq), ?_⟩
    by_contra hle
    exact hlt.not_ge (place_toReal_mono hpos.le (not_lt.mp hle) hn hm)
  · rintro ⟨hne, hlt⟩
    refine (place_toReal_mono h₀ hlt.le hm hn).lt_of_ne fun hplace => hne ?_
    exact Binary64.eq_of_place (toReal_ne_nan hmo) (place_toReal_pos hpos) hplace

/-- Two integers in order fall on one binary number. -/
example : int (2 ^ 53) < int (2 ^ 53 + 1) ∧ (int (2 ^ 53)).toReal = (int (2 ^ 53 + 1)).toReal := by
  decide +kernel

end Number

/-! ## The times that are checked -/

namespace Fields

variable {fs : Fields} {key other : String} {v w : Value}

/-- What is first found under two names is what is compared, unless the first one hides it. -/
theorem either_of_first? (hshown : fs.hides key = false) (h : fs.first? [key, other] = some v) :
    fs.either key other w = v := by
  rw [either]
  cases hget : fs.get? key with
  | none =>
      rw [first?_cons_of_none hget, first?_cons] at h
      split_ifs at h with hpresent
      · rw [get?_of_get (Option.some.inj h) (Option.some.inj h ▸ hpresent)]
        rfl
      · cases h
  | some u =>
      have hpresent : u.isPresent = true := by simpa [hides, has, get, hget] using hshown
      rw [first?_cons_of_present hget hpresent] at h
      exact Option.some.inj h

end Fields

section

variable {fs : Fields} {keys : List String} {f : FieldSpec} {v : Value} {x : Binary64}
  {n s e : Number} {p : TrimParams}

/-- A number that is read as a binary one is held by the format. -/
theorem isHeld_of_first? (hformat : fs.InFormat) (hfirst : fs.first? keys = some (.number n))
    (hn : n.IsOrdered) (hx : (Value.number n).toReal = .ok x) : n.IsHeld := by
  obtain ⟨⟨key, w⟩, hpick, rfl⟩ := Option.map_eq_some_iff.mp hfirst
  have hmem := Fields.mem_of_get? (Fields.get?_of_pick? hpick)
  cases n with
  | int k =>
      rw [Value.toReal, Number.toReal?] at hx
      split_ifs at hx with hbeyond
      exact .inl (Number.isStored_toReal (Bool.not_eq_true _ ▸ hbeyond))
  | real y =>
      cases y with
      | infinite negative => exact .inr ⟨negative, rfl⟩
      | nan => exact absurd rfl hn
      | finite _ | negZero => exact .inl (hformat _ hmem _ rfl rfl)

/-- Times that are not hidden are in order if their rule is kept. -/
theorem not_le_of_ruleProblems (h : ruleProblems .trim fs = .ok [])
    (hshown : fs.hides "start" = false) (hshown' : fs.hides "end" = false)
    (hs : fs.first? ["start", "startTime"] = some (.number s))
    (he : fs.first? ["end", "endTime"] = some (.number e)) : ¬e ≤ s := by
  intro hle
  have horder : orderProblems "start" (.number s) "end" (.number e) = .ok [] := by
    simpa [ruleProblems, Kind.isText, Kind.isBounded, Fields.either_of_first? hshown hs,
      Fields.either_of_first? hshown' he, Outcome.bind_eq_ok] using h
  rw [orderProblems, if_pos hle] at horder
  obtain ⟨a, -, horder⟩ := Outcome.bind_eq_ok.mp horder
  obtain ⟨b, -, horder⟩ := Outcome.bind_eq_ok.mp horder
  cases horder

variable (h : fieldProblems .trim fs = .ok []) (hnan : fs.NoNan) (hformat : fs.InFormat)

include h hnan hformat

/-- A time that a trim holds is a number that was checked, rounded. -/
theorem exists_time (hf : f ∈ checkedFields .trim) (htype : f.type = .number)
    (hfirst : fs.first? f.keys = some v) (hx : v.toReal = .ok x) :
    ∃ n : Number, v = .number n ∧ x = n.toReal ∧ n.IsOrdered ∧ n.IsHeld ∧ f.Admits n := by
  obtain ⟨n, rfl, hn, hadm⟩ := FieldSpec.exists_ordered_number h hnan hf htype hfirst
  refine ⟨n, rfl, ?_, hn, isHeld_of_first? hformat hfirst hn hx, hadm⟩
  rw [Value.toReal, Number.toReal?] at hx
  split_ifs at hx
  exact (Except.ok.inj hx).symm

/-- Both times, where both are given: the trim is in order just if rounding keeps them apart and
they are in order themselves. -/
theorem exists_times_lt_iff {w : Value} {y : Binary64}
    (hstart : fs.first? ["start", "startTime"] = some v) (hx : v.toReal = .ok x)
    (hfinish : fs.first? ["end", "endTime"] = some w) (hy : w.toReal = .ok y) :
    ∃ s e : Number, v = .number s ∧ w = .number e ∧ (x < y ↔
      s.toReal ≠ e.toReal ∧ (fs.hides "start" ∨ fs.hides "end" → s < e)) := by
  obtain ⟨s, rfl, rfl, hso, hsh, hsadm⟩ :=
    exists_time h hnan hformat (.head _) rfl hstart hx
  obtain ⟨e, rfl, rfl, heo, heh, headm⟩ :=
    exists_time h hnan hformat (.tail _ (.head _)) rfl hfinish hy
  refine ⟨s, e, rfl, rfl, ?_⟩
  rw [Number.toReal_lt_toReal_iff hso heo hsh heh (hsadm.minimum 0 rfl) (headm.above 0 rfl)]
  refine and_congr_right fun _ => ⟨fun hlt _ => hlt, fun hfit => ?_⟩
  by_cases hhides : fs.hides "start" ∨ fs.hides "end"
  · exact hfit hhides
  · obtain ⟨hshown, hshown'⟩ := not_or.mp hhides
    exact (Number.not_le_iff heo hso).mp (not_le_of_ruleProblems (fieldProblems_eq_nil.mp h).2
      (Bool.eq_false_of_not_eq_true hshown) (Bool.eq_false_of_not_eq_true hshown') hstart hfinish)

theorem TrimParams.isProper_iff_of_accepted (hp : TrimParams.ofFields fs = .ok p) :
    p.IsProper ↔ fs.TimesFit := by
  obtain ⟨hlow, hpos⟩ := p.inRange_of_accepted h hnan rfl hp
  obtain ⟨start, hstart, hp⟩ := Outcome.bind_eq_ok.mp hp
  obtain ⟨finish, hfinish, hp⟩ := Outcome.bind_eq_ok.mp hp
  obtain rfl := Except.ok.inj hp
  constructor
  · intro hproper s e hs he
    rw [Fields.real, hs] at hstart
    rw [Fields.real?, he] at hfinish
    obtain ⟨y, hy, rfl⟩ := Outcome.map_eq_ok.mp hfinish
    obtain ⟨s', e', hs', he', hlt⟩ := exists_times_lt_iff h hnan hformat hs hstart he hy
    obtain rfl := Value.number.inj hs'
    obtain rfl := Value.number.inj he'
    exact hlt.mp (hproper.order y rfl)
  · intro hfit
    refine ⟨hlow, fun y hy => ?_⟩
    obtain ⟨w, hw, hwy⟩ := (Fields.mem_real?_iff hfinish).mp hy
    cases hfirst : fs.first? ["start", "startTime"] with
    | none =>
        rw [Fields.real, hfirst] at hstart
        obtain rfl := Except.ok.inj hstart
        exact hpos y hy
    | some v =>
        rw [Fields.real, hfirst] at hstart
        obtain ⟨s, e, rfl, rfl, hlt⟩ := exists_times_lt_iff h hnan hformat hfirst hstart hw hwy
        exact hlt.mpr (hfit s e hfirst hw)

end

/-- **When an accepted trim is proper.** It starts at zero or later and ends after its start just if
rounding keeps its two times apart, and they are in order where the check does not see one of
them. -/
theorem exists_trim_isProper_iff {kind : Value} {fs : Fields} {verdict : Verdict}
    {window : Option Window} {o : Operation} (hkind : Kind.ofValue? kind = some .trim)
    (hverdict : validate kind (.object fs) = .ok verdict) (hvalid : verdict.valid = true)
    (hbuild : Operation.build kind (.object fs) window = .ok o) (hnan : fs.NoNan)
    (hformat : fs.InFormat) : ∃ p, o.edit = .trim p ∧ (p.IsProper ↔ fs.TimesFit) := by
  have haccepted := fieldProblems_of_valid hkind hverdict hvalid
  rw [Operation.build_of_kind hkind, Outcome.mapError_eq_ok, Operation.ofValue_object] at hbuild
  obtain ⟨p, hp, hedit⟩ := Outcome.map_eq_ok.mp (Operation.edit_of_ofFields hbuild)
  exact ⟨p, hedit.symm, TrimParams.isProper_iff_of_accepted haccepted hnan hformat hp⟩

theorem kind_trim : Kind.ofValue? (.string "trim") = some .trim := by rfl

/-- How a trim without a window is built. -/
theorem build_trim {fs : Fields} {p : TrimParams} (h : TrimParams.ofFields fs = .ok p) :
    Operation.build (.string "trim") (.object fs) none = .ok ⟨.trim p, none⟩ := by
  rw [Operation.build_of_kind kind_trim, Operation.ofValue_object, Operation.ofFields_eq,
    Edit.ofFields, h]
  rfl

/-- A trim to the seconds from two to five. -/
theorem isProper_trim_two_five :
    ∃ o p, Operation.build (.string "trim") (.object [("start", .int 2), ("end", .int 5)]) none =
        .ok o ∧ o.edit = .trim p ∧ p.IsProper := by
  have hverdict : validate (.string "trim") (.object [("start", .int 2), ("end", .int 5)]) =
      .ok .accepted := by rfl
  have hp : TrimParams.ofFields [("start", .int 2), ("end", .int 5)] =
      .ok ⟨.finite 2, some (.finite 5)⟩ := by decide +kernel
  have hnan : Fields.NoNan [("start", .int 2), ("end", .int 5)] := by simp [Fields.NoNan]
  have hformat : Fields.InFormat [("start", .int 2), ("end", .int 5)] := by
    simp [Fields.InFormat]
  have hfit : Fields.TimesFit [("start", .int 2), ("end", .int 5)] := by
    rintro s e ⟨⟩ ⟨⟩
    exact ⟨by decide +kernel, fun _ => by decide +kernel⟩
  obtain ⟨p, hedit, hproper⟩ :=
    exists_trim_isProper_iff kind_trim hverdict rfl (build_trim hp) hnan hformat
  exact ⟨_, p, build_trim hp, hedit, hproper.mpr hfit⟩

/-- **A time behind an empty name** is not compared: the trim ends before it starts. -/
theorem not_isProper_hidden_start :
    ∃ o p, validate (.string "trim")
        (.object [("start", .null), ("startTime", .int 5), ("end", .int 3)]) = .ok .accepted ∧
      Operation.build (.string "trim")
        (.object [("start", .null), ("startTime", .int 5), ("end", .int 3)]) none = .ok o ∧
      o.edit = .trim p ∧ ¬p.IsProper := by
  have hp : TrimParams.ofFields [("start", .null), ("startTime", .int 5), ("end", .int 3)] =
      .ok ⟨.finite 5, some (.finite 3)⟩ := by decide +kernel
  have horder : ¬Binary64.finite 5 < .finite 3 := by decide +kernel
  exact ⟨_, _, by rfl, build_trim hp, rfl, fun hproper => horder (hproper.order _ rfl)⟩

end Montage
