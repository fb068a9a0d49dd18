import Mathlib.Data.List.Nodup
import Montage.Proofs.Look.Table
import Montage.Proofs.Settings

/-!
# The grade of a name

A name stands for a grade by its key. The last override of the key comes first, then the built-in
grade of the key, then what a further name stands for; any other name is not known and stands for
the neutral grade. The table is asked for the empty key in place of a further name that there is
not, so an override whose name has the empty key is found under every name that is not known.

## Main definitions

* `lastOf?`: the last element of a key.
* `Looks.Stands`: the grade that stands under a key by itself.
* `Looks.Names`: the grade that a key is a name of.
* `Looks.Follows`: a name is looked up by these rules.

## Main statements

* `LookTable.lookup_foldlM`: what is found in a table after several looks are put into it.
* `Looks.lookup_eq_some_iff`: what is found under a key is what stands there.
* `Looks.follows_iff`: which names are looked up by the rules.
-/
namespace Montage

variable {α β : Type}

/-- The last element of a key. -/
def lastOf? (keyOf : β → String) (key : String) (xs : List β) : Option β :=
  (xs.filter fun x => keyOf x = key).getLast?

theorem lastOf?_cons {keyOf : β → String} {key : String} {x : β} {xs : List β} :
    lastOf? keyOf key (x :: xs) =
      (lastOf? keyOf key xs).or (if keyOf x = key then some x else none) := by
  rw [lastOf?, lastOf?]
  by_cases hx : keyOf x = key
  · rw [List.filter_cons_of_pos (by simpa using hx), List.getLast?_cons, if_pos hx]
    cases (xs.filter fun x => keyOf x = key).getLast? <;> rfl
  · rw [List.filter_cons_of_neg (by simpa using hx), if_neg hx, Option.or_none]

theorem lastOf?_eq_none_iff {keyOf : β → String} {key : String} {xs : List β} :
    lastOf? keyOf key xs = none ↔ ∀ x ∈ xs, keyOf x ≠ key := by
  simp [lastOf?]

theorem of_lastOf? {keyOf : β → String} {key : String} {xs : List β} {x : β}
    (h : lastOf? keyOf key xs = some x) : x ∈ xs ∧ keyOf x = key := by
  simpa using List.mem_filter.mp (List.mem_of_getLast? h)

/-- Where no two elements have the same key, each is the last one of its key. -/
theorem lastOf?_eq_some_iff {keyOf : β → String} {key : String} {xs : List β} {x : β}
    (h : (xs.map keyOf).Nodup) : lastOf? keyOf key xs = some x ↔ x ∈ xs ∧ keyOf x = key := by
  refine ⟨of_lastOf?, fun ⟨hx, hkey⟩ => ?_⟩
  cases hlast : lastOf? keyOf key xs with
  | none => exact absurd hkey (lastOf?_eq_none_iff.mp hlast x hx)
  | some y =>
      obtain ⟨hy, hkey'⟩ := of_lastOf? hlast
      rw [List.inj_on_of_nodup_map h hy hx (hkey'.trans hkey.symm)]

/-- The key of a grade: that of its name. -/
def Grade.key (g : Grade) : String := normalizeName (.string g.name)

/-- The key of an override. -/
def overrideKey (o : String × Value) : String := normalizeName (.string o.1)

namespace Looks

/-- The grade that stands under a key by itself: the one that the last override of the key
describes, else the built-in one of the key. -/
inductive Stands (overrides : Fields) (key : String) : Grade → Prop
  | override {o : String × Value} {g : Grade} (last : lastOf? overrideKey key overrides = some o)
      (describes : Grade.ofValue o.1 o.2 = .ok g) : Stands overrides key g
  | builtIn {g : Grade} (free : ∀ o ∈ overrides, overrideKey o ≠ key) (mem : g ∈ Montage.grades)
      (keyed : g.key = key) : Stands overrides key g

/-- The grade that a key is a name of: the one that stands there, else the one that stands where a
further name leads. -/
inductive Names (overrides : Fields) (key : String) : Grade → Prop
  | itself {g : Grade} (stands : Stands overrides key g) : Names overrides key g
  | further {target : String} {g : Grade} (free : ∀ g, ¬Stands overrides key g)
      (mem : (key, target) ∈ gradeAliases)
      (stands : Stands overrides (normalizeName (.string target)) g) : Names overrides key g

/-- A name is looked up by the rules: where its key is a name of a grade the name is known, and
this grade is found; elsewhere it is not, and the neutral grade is found. -/
structure Follows (looks : Looks) (overrides : Fields) (name : Value) : Prop where
  known : ∀ g, Names overrides (normalizeName name) g → (looks.grade name).look = g
  unknown : (∀ g, ¬Names overrides (normalizeName name) g) →
    (looks.grade name).look = neutralGrade
  isKnown_iff : (looks.grade name).isKnown = true ↔ ∃ g, Names overrides (normalizeName name) g

end Looks

/-! ## Tables -/

namespace LookTable

variable {t t' : LookTable α} {key key' : String} {look : α}

theorem lookup_cons :
    List.lookup key' ((key, look) :: t) = if key' = key then some look else t.lookup key' := by
  rw [List.lookup_cons]
  by_cases h : key' = key
  · simp [h]
  · rw [beq_eq_false_iff_ne.mpr h, if_neg h]

theorem lookup_set :
    (t.set key look).lookup key' = if key' = key then some look else t.lookup key' := by
  induction t with
  | nil => exact lookup_cons
  | cons entry t ih =>
      obtain ⟨k, l⟩ := entry
      rw [set]
      by_cases hk : k = key
      · rw [if_pos hk, lookup_cons, lookup_cons, hk]
        by_cases h : key' = key
        · rw [if_pos h, if_pos h]
        · rw [if_neg h, if_neg h, if_neg h]
      · rw [if_neg hk, lookup_cons, lookup_cons, ih]
        by_cases h : key' = k
        · rw [if_pos h, if_pos h, if_neg fun hkey => hk (h.symm.trans hkey)]
        · rw [if_neg h, if_neg h]

/-- **What is found after several looks are put into a table** is the last one of the key, else
what was found before. -/
theorem lookup_foldlM (keyOf : β → String) (lookOf : β → Except Fault α) {xs : List β}
    (h : xs.foldlM (fun t x => return LookTable.set t (keyOf x) (← lookOf x)) t = .ok t') :
    t'.lookup key = match lastOf? keyOf key xs with
      | some x => (lookOf x).toOption
      | none => t.lookup key := by
  induction xs generalizing t with
  | nil =>
      obtain rfl : t = t' := Except.ok.inj h
      rfl
  | cons x xs ih =>
      rw [List.foldlM_cons] at h
      obtain ⟨t₁, hset, hrest⟩ := Outcome.bind_eq_ok.mp h
      obtain ⟨look, hlook, hset⟩ := Outcome.bind_eq_ok.mp hset
      obtain rfl := Except.ok.inj hset
      rw [ih hrest, lastOf?_cons]
      cases lastOf? keyOf key xs with
      | some y => rfl
      | none =>
          rw [Option.none_or]
          dsimp only
          rw [lookup_set]
          by_cases hx : keyOf x = key
          · rw [if_pos hx, if_pos hx.symm]
            dsimp only
            rw [hlook]
            rfl
          · rw [if_neg hx, if_neg (Ne.symm hx)]

theorem lookup_ofNamed {name : α → String} {looks : List α} :
    (ofNamed name looks).lookup key =
      lastOf? (fun l => normalizeName (.string (name l))) key looks := by
  have hfold : looks.foldlM (fun t l =>
      return LookTable.set t (normalizeName (.string (name l))) (← (.ok l : Except Fault α))) [] =
        .ok (ofNamed name looks) := List.foldlM_pure
  rw [lookup_foldlM (fun l => normalizeName (.string (name l))) Except.ok hfold]
  cases lastOf? (fun l => normalizeName (.string (name l))) key looks <;> rfl

end LookTable

/-! ## Grades and their further names -/

/-- The name of a built-in grade is its own key. -/
theorem Grade.key_of_mem {g : Grade} (h : g ∈ grades) : g.key = g.name := by
  have hall : (grades.map fun g => (g.key, g.name)).all fun p => p.1 = p.2 := by decide +kernel
  exact of_decide_eq_true (List.all_eq_true.mp hall _ (List.mem_map_of_mem h))

theorem nodup_map_key_grades : (grades.map Grade.key).Nodup := by
  rw [List.map_congr_left fun _ => Grade.key_of_mem]
  decide

theorem Grade.key_ne_empty_of_mem {g : Grade} (h : g ∈ grades) : g.key ≠ "" := by
  have hall : ∀ name ∈ grades.map Grade.name, name ≠ "" := by decide
  rw [key_of_mem h]
  exact hall _ (List.mem_map_of_mem h)

/-- A further name leads to the name of a built-in grade. -/
theorem exists_grade_of_mem_gradeAliases {key target : String}
    (h : (key, target) ∈ gradeAliases) :
    normalizeName (.string target) = target ∧ ∃ g ∈ grades, g.key = target := by
  have hall : ∀ a ∈ gradeAliases, a.2 ∈ grades.map Grade.name := by decide
  obtain ⟨g, hg, hname⟩ := List.mem_map.mp (hall _ h)
  have hkey : g.key = target := (Grade.key_of_mem hg).trans hname
  refine ⟨?_, g, hg, hkey⟩
  rw [Grade.key, hname] at hkey
  exact hkey

theorem lookup_gradeAliases_eq_some_iff {key target : String} :
    gradeAliases.lookup key = some target ↔ (key, target) ∈ gradeAliases := by
  refine ⟨mem_of_lookup, fun h => ?_⟩
  have hall : ∀ a ∈ gradeAliases, gradeAliases.lookup a.1 = some a.2 := by decide
  exact hall _ h

namespace Looks

variable {overrides : Fields} {looks : Looks} {key : String} {g : Grade} {name : Value}

theorem lookup_builtIn_eq_some_iff :
    builtIn.grades.lookup key = some g ↔ g ∈ Montage.grades ∧ g.key = key := by
  rw [builtIn, LookTable.lookup_ofNamed]
  exact lastOf?_eq_some_iff nodup_map_key_grades

/-- **What is found under a key** is what stands there. -/
theorem lookup_eq_some_iff (h : Looks.of overrides = .ok looks) :
    looks.grades.lookup key = some g ↔ Stands overrides key g := by
  obtain ⟨t, hfold, hlooks⟩ := Outcome.bind_eq_ok.mp h
  obtain rfl := Except.ok.inj hlooks
  rw [LookTable.lookup_foldlM overrideKey (fun o : String × Value => Grade.ofValue o.1 o.2) hfold]
  cases hlast : lastOf? overrideKey key overrides with
  | some o =>
      dsimp only
      constructor
      · intro hg
        refine .override hlast ?_
        cases hvalue : Grade.ofValue o.1 o.2 with
        | error f => simp [hvalue, Except.toOption] at hg
        | ok g' =>
            rw [hvalue] at hg
            rw [Option.some.inj hg]
      · rintro (⟨hlast', hdescribes⟩ | ⟨hfree, -, -⟩)
        · obtain rfl := Option.some.inj (hlast.symm.trans hlast')
          rw [hdescribes]
          rfl
        · exact absurd (lastOf?_eq_none_iff.mpr hfree) (by simp [hlast])
  | none =>
      dsimp only
      rw [lookup_builtIn_eq_some_iff]
      constructor
      · exact fun ⟨hmem, hkeyed⟩ => .builtIn (lastOf?_eq_none_iff.mp hlast) hmem hkeyed
      · rintro (⟨hlast', -⟩ | ⟨-, hmem, hkeyed⟩)
        · cases hlast.symm.trans hlast'
        · exact ⟨hmem, hkeyed⟩

/-- Where an override has the key, something stands there. -/
theorem exists_stands_of_lastOf? {o : String × Value} (h : Looks.of overrides = .ok looks)
    (hlast : lastOf? overrideKey key overrides = some o) : ∃ g, Stands overrides key g := by
  obtain ⟨fs, hfs, hdescribes⟩ := isOk_of.mp (Outcome.isOk_iff.mpr ⟨looks, h⟩) o
    (of_lastOf? hlast).1
  obtain ⟨g, hg⟩ := Outcome.isOk_iff.mp (Grade.isOk_ofValue.mpr ⟨fs, hfs, hdescribes⟩)
  exact ⟨g, .override hlast hg⟩

/-- Something stands under the name of a built-in grade. -/
theorem exists_stands_of_mem (h : Looks.of overrides = .ok looks) (hg : g ∈ Montage.grades) :
    ∃ g', Stands overrides g.key g' := by
  cases hlast : lastOf? overrideKey g.key overrides with
  | none => exact ⟨g, .builtIn (lastOf?_eq_none_iff.mp hlast) hg rfl⟩
  | some o => exact exists_stands_of_lastOf? h hlast

/-- Something stands under the empty key just if an override has it. -/
theorem exists_stands_empty_iff (h : Looks.of overrides = .ok looks) :
    (∃ g, Stands overrides "" g) ↔ ∃ o ∈ overrides, overrideKey o = "" := by
  constructor
  · rintro ⟨g, ⟨hlast, -⟩ | ⟨-, hmem, hkeyed⟩⟩
    · exact ⟨_, of_lastOf? hlast⟩
    · exact absurd hkeyed (Grade.key_ne_empty_of_mem hmem)
  · rintro ⟨o, ho, hkey⟩
    cases hlast : lastOf? overrideKey "" overrides with
    | none => exact absurd hkey (lastOf?_eq_none_iff.mp hlast o ho)
    | some o' => exact exists_stands_of_lastOf? h hlast

/-- A further name is a name of some grade. -/
theorem exists_names_of_mem_gradeAliases {target : String} (h : Looks.of overrides = .ok looks)
    (hmem : (key, target) ∈ gradeAliases) : ∃ g, Names overrides key g := by
  by_cases hfree : ∃ g, Stands overrides key g
  · exact hfree.imp fun _ => .itself
  · obtain ⟨htarget, built, hbuilt, hkey⟩ := exists_grade_of_mem_gradeAliases hmem
    obtain ⟨g, hg⟩ := exists_stands_of_mem h hbuilt
    rw [hkey, ← htarget] at hg
    exact ⟨g, .further (not_exists.mp hfree) hmem hg⟩

/-! ## Names of grades -/

/-- **A name that is known** finds the grade that its key is a name of. -/
theorem grade?_eq_some (h : Looks.of overrides = .ok looks)
    (hg : Names overrides (normalizeName name) g) : looks.grade? name = some g := by
  rw [grade?, LookTable.find?, Option.or_eq_some_iff]
  cases hg with
  | itself hstands => exact .inl ((lookup_eq_some_iff h).mpr hstands)
  | further hfree hmem hstands =>
      refine .inr ⟨?_, ?_⟩
      · exact Option.eq_none_iff_forall_ne_some.mpr fun g hg =>
          hfree g ((lookup_eq_some_iff h).mp hg)
      · rw [lookup_gradeAliases_eq_some_iff.mpr hmem, Option.getD_some,
          ← (exists_grade_of_mem_gradeAliases hmem).1]
        exact (lookup_eq_some_iff h).mpr hstands

/-- **A name that is not known** finds what stands under the empty key. -/
theorem grade?_eq_lookup_empty (h : Looks.of overrides = .ok looks)
    (hnot : ∀ g, ¬Names overrides (normalizeName name) g) :
    looks.grade? name = looks.grades.lookup "" := by
  have hnone : looks.grades.lookup (normalizeName name) = none :=
    Option.eq_none_iff_forall_ne_some.mpr fun g hg =>
      hnot g (.itself ((lookup_eq_some_iff h).mp hg))
  have hfurther : gradeAliases.lookup (normalizeName name) = none := by
    refine Option.eq_none_iff_forall_ne_some.mpr fun target htarget => ?_
    obtain ⟨g, hg⟩ :=
      exists_names_of_mem_gradeAliases h (lookup_gradeAliases_eq_some_iff.mp htarget)
    exact hnot g hg
  rw [grade?, LookTable.find?, hnone, hfurther, Option.none_or, Option.getD_none]

theorem look_grade : (looks.grade name).look = (looks.grade? name).getD neutralGrade := by
  rw [grade]
  cases looks.grade? name <;> rfl

theorem isKnown_grade : (looks.grade name).isKnown = (looks.grade? name).isSome := by
  rw [grade]
  cases looks.grade? name <;> rfl

/-- **Which names are looked up by the rules**: all of them, unless an override has the empty key;
then those that are known. -/
theorem follows_iff (h : Looks.of overrides = .ok looks) :
    looks.Follows overrides name ↔
      ((∃ o ∈ overrides, overrideKey o = "") →
        ∃ g, Names overrides (normalizeName name) g) := by
  by_cases hknown : ∃ g, Names overrides (normalizeName name) g
  · refine iff_of_true ?_ fun _ => hknown
    have hfinds : ∀ g, Names overrides (normalizeName name) g → looks.grade? name = some g :=
      fun _ => grade?_eq_some h
    obtain ⟨g, hg⟩ := hknown
    refine ⟨fun g' hg' => ?_, fun hnot => absurd hg (hnot g), ?_⟩
    · rw [look_grade, hfinds g' hg', Option.getD_some]
    · rw [isKnown_grade, hfinds g hg]
      exact iff_of_true rfl ⟨g, hg⟩
  · have hnot := not_exists.mp hknown
    have hempty := grade?_eq_lookup_empty h hnot
    rw [← exists_stands_empty_iff h]
    constructor
    · intro hfollows ⟨g, hg⟩
      rw [← hfollows.isKnown_iff, isKnown_grade, hempty, (lookup_eq_some_iff h).mpr hg]
      rfl
    · intro hfree
      have hnone : looks.grade? name = none := by
        refine hempty.trans (Option.eq_none_iff_forall_ne_some.mpr fun g hg => hknown (hfree ?_))
        exact ⟨g, (lookup_eq_some_iff h).mp hg⟩
      refine ⟨fun g hg => absurd hg (hnot g), fun _ => ?_, ?_⟩
      · rw [look_grade, hnone, Option.getD_none]
      · rw [isKnown_grade, hnone]
        exact iff_of_false Bool.false_ne_true hknown

/-- **The grades of an engine** are looked up by the rules under every name that is known, and under
every other name as well where no override has the empty key. -/
theorem exists_follows_iff (overrides : Fields)
    (h : ∀ o ∈ overrides, ∃ fs : Fields, o.2 = .object fs ∧ fs.DescribesGrade) :
    ∃ looks, Looks.of overrides = .ok looks ∧ ∀ name, looks.Follows overrides name ↔
      ((∃ o ∈ overrides, overrideKey o = "") →
        ∃ g, Names overrides (normalizeName name) g) := by
  obtain ⟨looks, hlooks⟩ := Outcome.isOk_iff.mp (isOk_of.mpr h)
  exact ⟨looks, hlooks, fun _ => follows_iff hlooks⟩

/-- An override in place of the built-in grade of its key, under another spelling. -/
theorem exists_follows_warmer :
    (∀ o ∈ [("Warm_", Value.object [("contrast", .int 10)])],
      ∃ fs : Fields, o.2 = .object fs ∧ fs.DescribesGrade) ∧
    ∃ looks, Looks.of [("Warm_", .object [("contrast", .int 10)])] = .ok looks ∧
      looks.Follows [("Warm_", .object [("contrast", .int 10)])] (.string "nope") := by
  have hdescribes : ∀ o ∈ [("Warm_", Value.object [("contrast", .int 10)])],
      ∃ fs : Fields, o.2 = .object fs ∧ fs.DescribesGrade := by
    intro o ho
    rw [List.mem_singleton.mp ho]
    have hreads : (Grade.ofValue "Warm_" (.object [("contrast", .int 10)])).isOk = true := by
      decide +kernel
    exact ⟨_, rfl, Grade.isOk_ofValue_object.mp hreads⟩
  obtain ⟨looks, hlooks, hfollows⟩ := exists_follows_iff _ hdescribes
  refine ⟨hdescribes, looks, hlooks, (hfollows _).mpr ?_⟩
  rintro ⟨o, ho, hkey⟩
  rw [List.mem_singleton.mp ho] at hkey
  exact absurd hkey (by decide +kernel)

/-- **An override under the empty name** is found under a name that is not known. -/
theorem not_follows_nameless :
    ∃ looks, Looks.of [("", .object [("brightness", .int 10)])] = .ok looks ∧
      ¬looks.Follows [("", .object [("brightness", .int 10)])] (.string "nope") := by
  obtain ⟨looks, hlooks⟩ : ∃ looks, Looks.of [("", .object [("brightness", .int 10)])] =
      .ok looks := Outcome.isOk_iff.mp (by decide +kernel)
  refine ⟨looks, hlooks, fun hfollows => ?_⟩
  have hkey : normalizeName (.string "nope") = "nope" := by decide +kernel
  obtain ⟨g, hg⟩ := (follows_iff hlooks).mp hfollows ⟨_, List.mem_singleton_self _, rfl⟩
  rw [hkey] at hg
  have hfree : ∀ g, ¬Stands [("", .object [("brightness", .int 10)])] "nope" g := by
    rintro g (⟨hlast, -⟩ | ⟨-, hmem, hkeyed⟩)
    · obtain ⟨hmem, hkeyed⟩ := of_lastOf? hlast
      rw [List.mem_singleton.mp hmem] at hkeyed
      exact absurd hkeyed (by decide +kernel)
    · have hall : ∀ name ∈ Montage.grades.map Grade.name, name ≠ "nope" := by decide
      rw [Grade.key_of_mem hmem] at hkeyed
      exact hall _ (List.mem_map_of_mem hmem) hkeyed
  rcases hg with hstands | ⟨-, hmem, -⟩
  · exact hfree g hstands
  · have hall : ∀ a ∈ gradeAliases, a.1 ≠ "nope" := by decide
    exact hall _ hmem rfl

end Looks

end Montage
