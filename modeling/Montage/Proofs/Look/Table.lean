import Montage.Look.Table

/-!
# Looks that are found

Whatever stands under a name in a table was put there. So a look that is found is one of those that
the table was made of, and what holds of all of these, and of the neutral look, holds of it.

## Main statements

* `effectNamed_mem`, `filterNamed_mem`, `builtIn_grade_mem`: where looks that are found come from.
* `Found.notices_of`: the notice that goes with a look in place of another.
-/
namespace Montage

variable {α : Type}

theorem mem_of_lookup {entries : List (String × α)} {key : String} {x : α}
    (h : entries.lookup key = some x) : (key, x) ∈ entries := by
  obtain ⟨before, after, rfl, -⟩ := List.lookup_eq_some_iff.mp h
  exact List.mem_append_right before List.mem_cons_self

namespace LookTable

variable {t : LookTable α} {key : String} {look : α} {aliases : List (String × String)}
  {name : Value}

theorem snd_of_mem_set {entry : String × α} (h : entry ∈ t.set key look) :
    entry.2 = look ∨ ∃ e ∈ t, e.2 = entry.2 := by
  induction t with
  | nil => exact .inl (congrArg Prod.snd (List.mem_singleton.mp h))
  | cons first t ih =>
      rw [set] at h
      split at h
      · rcases List.mem_cons.mp h with rfl | h
        · exact .inl rfl
        · exact .inr ⟨entry, List.mem_cons_of_mem first h, rfl⟩
      · rcases List.mem_cons.mp h with rfl | h
        · exact .inr ⟨_, List.mem_cons_self, rfl⟩
        · refine (ih h).imp_right fun ⟨e, he, heq⟩ => ⟨e, List.mem_cons_of_mem first he, heq⟩

theorem snd_of_mem_foldl {name : α → String} {looks : List α} {entry : String × α}
    (h : entry ∈ looks.foldl (fun t l => set t (normalizeName (.string (name l))) l) t) :
    entry.2 ∈ looks ∨ ∃ e ∈ t, e.2 = entry.2 := by
  induction looks generalizing t with
  | nil => exact .inr ⟨entry, h, rfl⟩
  | cons l looks ih =>
      rcases ih h with h | ⟨e, he, heq⟩
      · exact .inl (List.mem_cons_of_mem l h)
      · rcases snd_of_mem_set he with rfl | ⟨e', he', heq'⟩
        · exact .inl (heq ▸ List.mem_cons_self)
        · exact .inr ⟨e', he', heq'.trans heq⟩

/-- A table has no looks but those that it is made of. -/
theorem snd_mem_of_mem_ofNamed {name : α → String} {looks : List α} {entry : String × α}
    (h : entry ∈ ofNamed name looks) : entry.2 ∈ looks := by
  rcases snd_of_mem_foldl h with h | ⟨e, he, -⟩
  · exact h
  · cases he

theorem exists_mem_of_find? (h : t.find? aliases name = some look) : ∃ k, (k, look) ∈ t := by
  rcases Option.or_eq_some_iff.mp h with h | ⟨-, h⟩
  · exact ⟨_, mem_of_lookup h⟩
  · exact ⟨_, mem_of_lookup h⟩

end LookTable

namespace Found

theorem look_of_mem {looks : List α} {look? : Option α} {neutral : α} {notice : String}
    (hneutral : neutral ∈ looks) (h : ∀ look, look? = some look → look ∈ looks) :
    (Found.of look? neutral notice).look ∈ looks := by
  cases look? with
  | none => exact hneutral
  | some look => exact h look rfl

/-- There is no notice but the one about a look in place of another. -/
theorem notices_of {look? : Option α} {neutral : α} {notice : String} :
    ∀ n ∈ (Found.of look? neutral notice).notices, n = notice := by
  cases look? with
  | none => exact fun n hn => List.mem_singleton.mp hn
  | some look => exact nofun

end Found

theorem mem_effects_of_effect? {name : Value} {e : Effect} (h : effect? name = some e) :
    e ∈ effects := by
  obtain ⟨k, hk⟩ := LookTable.exists_mem_of_find? h
  exact LookTable.snd_mem_of_mem_ofNamed hk

theorem mem_filters_of_filter? {name : Value} {e : Effect} (h : filter? name = some e) :
    e ∈ filters := by
  obtain ⟨k, hk⟩ := LookTable.exists_mem_of_find? h
  exact LookTable.snd_mem_of_mem_ofNamed hk

theorem effectNamed_mem (name : Value) : (effectNamed name).look ∈ neutralEffect :: effects :=
  Found.look_of_mem List.mem_cons_self fun _ h =>
    List.mem_cons_of_mem _ (mem_effects_of_effect? h)

theorem filterNamed_mem (name : Value) : (filterNamed name).look ∈ neutralEffect :: filters :=
  Found.look_of_mem List.mem_cons_self fun _ h =>
    List.mem_cons_of_mem _ (mem_filters_of_filter? h)

theorem builtIn_grade_mem (name : Value) : (Looks.builtIn.grade name).look ∈ grades := by
  refine Found.look_of_mem (by simp [grades]) fun _ h => ?_
  obtain ⟨k, hk⟩ := LookTable.exists_mem_of_find? h
  exact LookTable.snd_mem_of_mem_ofNamed hk

end Montage
