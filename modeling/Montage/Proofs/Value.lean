import Montage.Value

/-!
# Fields as maps

Fields are kept in order, but only the first field of a name counts. A value that is put under a key
is found there, and nothing else changes. A value that is not present may as well not be there.

## Main definitions

* `Fields.erase`: the fields without those of a name.
* `Fields.Completes`: defaults with values put over them, and further fields behind.

## Main statements

* `Fields.get?_set`: what is found after a value is put under a key.
* `Fields.first?_cons`: what is first found under several keys.
* `Fields.pick?_set_of_not_mem`: other keys are not affected.
* `Fields.pick?_erase`: a key under which nothing is present can be left out.
* `Fields.Completes.merge_eq`: what completes its defaults stays what it is over them.
-/
namespace Montage.Fields

variable {fs : Fields} {key key' : String} {v : Value}

theorem get?_cons {w : Value} :
    get? ((key', w) :: fs) key = if key = key' then some w else fs.get? key := by
  rw [get?, List.lookup_cons]
  by_cases h : key = key'
  · simp [h]
  · simp [h, beq_eq_false_iff_ne.mpr h, get?]

theorem get?_of_get (h : fs.get key = v) (hv : v.isPresent = true) : fs.get? key = some v := by
  subst h
  rw [get] at hv ⊢
  cases hget : fs.get? key with
  | none =>
      rw [hget] at hv
      cases hv
  | some w => rfl

theorem get?_set : (fs.set key v).get? key' = if key' = key then some v else fs.get? key' := by
  induction fs with
  | nil => rw [set, get?_cons]
  | cons f fs ih =>
      obtain ⟨k, w⟩ := f
      rw [set]
      by_cases hk : k = key
      · subst hk
        rw [if_pos rfl, get?_cons, get?_cons]
        by_cases hkey : key' = k <;> simp [hkey]
      · rw [if_neg hk, get?_cons, get?_cons, ih]
        by_cases hkey : key' = k
        · subst hkey
          simp [hk]
        · simp [hkey]

@[simp] theorem get?_set_self : (fs.set key v).get? key = some v := by
  rw [get?_set, if_pos rfl]

theorem get?_set_of_ne (h : key' ≠ key) : (fs.set key v).get? key' = fs.get? key' := by
  rw [get?_set, if_neg h]

theorem get_set_of_ne (h : key' ≠ key) : (fs.set key v).get key' = fs.get key' := by
  rw [get, get, get?_set_of_ne h]

/-- What is first found under several keys is what is under the first of them, if that is
present. -/
theorem pick?_cons {keys : List String} :
    fs.pick? (key :: keys) =
      if (fs.get key).isPresent then some (key, fs.get key) else fs.pick? keys := by
  rw [pick?, List.findSome?_cons, get]
  cases fs.get? key with
  | none => rfl
  | some v => cases hv : v.isPresent <;> simp [hv, pick?]

theorem first?_cons {keys : List String} :
    fs.first? (key :: keys) =
      if (fs.get key).isPresent then some (fs.get key) else fs.first? keys := by
  rw [first?, pick?_cons]
  cases (fs.get key).isPresent <;> rfl

@[simp] theorem first?_nil : fs.first? [] = none := rfl

/-- What is picked is the value of its key. -/
theorem get?_of_pick? {keys : List String} (h : fs.pick? keys = some (key, v)) :
    fs.get? key = some v := by
  obtain ⟨k, -, hk⟩ := List.exists_of_findSome?_eq_some h
  split at hk
  · rename_i w hw
    split at hk
    · cases hk
      exact hw
    · cases hk
  · cases hk

theorem mem_of_get? (h : fs.get? key = some v) : (key, v) ∈ fs := by
  induction fs with
  | nil => cases h
  | cons f fs ih =>
      obtain ⟨k, w⟩ := f
      rw [get?_cons] at h
      by_cases hk : key = k
      · rw [if_pos hk] at h
        obtain rfl := Option.some.inj h
        exact hk ▸ List.mem_cons_self
      · rw [if_neg hk] at h
        exact List.mem_cons_of_mem _ (ih h)

theorem get?_eq_none (h : ∀ f ∈ fs, f.1 ≠ key) : fs.get? key = none := by
  rw [get?, List.lookup_eq_none_iff]
  intro f hf
  simpa using (h f hf).symm

/-- Fields of other names can be passed over. -/
theorem get?_append_of_ne {gs : Fields} (h : ∀ f ∈ fs, f.1 ≠ key) :
    get? (fs ++ gs) key = gs.get? key := by
  rw [get?, List.lookup_append, ← get?, get?_eq_none h, Option.none_or, get?]

/-- Keys under which nothing is put find what they found before. -/
theorem pick?_set_of_not_mem {keys : List String} (h : key ∉ keys) :
    (fs.set key v).pick? keys = fs.pick? keys := by
  induction keys with
  | nil => rfl
  | cons k keys ih =>
      have hk : k ≠ key := fun hk => h (hk ▸ List.mem_cons_self)
      rw [pick?, List.findSome?_cons, get?_set_of_ne hk]
      simp only [pick?, List.findSome?_cons] at ih ⊢
      rw [ih fun hmem => h (List.mem_cons_of_mem k hmem)]

theorem first?_set_of_not_mem {keys : List String} (h : key ∉ keys) :
    (fs.set key v).first? keys = fs.first? keys := by
  rw [first?, first?, pick?_set_of_not_mem h]

theorem first?_cons_of_present {keys : List String} (h : fs.get? key = some v)
    (hv : v.isPresent = true) : fs.first? (key :: keys) = some v := by
  simp [first?, pick?, h, hv]

theorem first?_cons_of_none {keys : List String} (h : fs.get? key = none) :
    fs.first? (key :: keys) = fs.first? keys := by
  simp [first?, pick?, h]

/-- The fields without those of a name. -/
def erase (fs : Fields) (key : String) : Fields := fs.filter fun f => f.1 ≠ key

theorem erase_cons {w : Value} :
    erase ((key', w) :: fs) key =
      if key' = key then erase fs key else (key', w) :: erase fs key := by
  by_cases h : key' = key <;> simp [erase, h]

theorem get?_erase : get? (erase fs key) key' = if key' = key then none else fs.get? key' := by
  induction fs with
  | nil => simp [erase, get?]
  | cons f fs ih =>
      obtain ⟨k, w⟩ := f
      rw [erase_cons]
      by_cases hk : k = key
      · rw [if_pos hk, ih, get?_cons]
        by_cases hkey : key' = key
        · rw [if_pos hkey, if_pos hkey]
        · rw [if_neg hkey, if_neg hkey, if_neg fun h => hkey (h.trans hk)]
      · rw [if_neg hk, get?_cons, get?_cons, ih]
        by_cases hkey : key' = key
        · rw [if_pos hkey, if_pos hkey, if_neg fun h => hk (h.symm.trans hkey)]
        · rw [if_neg hkey, if_neg hkey]

theorem get?_erase_of_ne (h : key' ≠ key) : (erase fs key).get? key' = fs.get? key' := by
  rw [get?_erase, if_neg h]

theorem get_erase_of_ne (h : key' ≠ key) : (erase fs key).get key' = fs.get key' := by
  rw [get, get, get?_erase_of_ne h]

@[simp] theorem get_erase_self : (erase fs key).get key = .null := by
  rw [get, get?_erase, if_pos rfl]
  rfl

/-- A key under which nothing is present can be left out. -/
theorem pick?_erase {keys : List String} (h : (fs.get key).isPresent = false) :
    (erase fs key).pick? keys = fs.pick? keys := by
  induction keys with
  | nil => rfl
  | cons k keys ih =>
      rw [pick?_cons, pick?_cons, ih]
      by_cases hk : k = key
      · subst hk
        rw [get_erase_self, h]
        rfl
      · rw [get_erase_of_ne hk]

theorem first?_erase {keys : List String} (h : (fs.get key).isPresent = false) :
    (erase fs key).first? keys = fs.first? keys := by
  rw [first?, first?, pick?_erase h]

/-! ## Fields over defaults -/

/-- The fields are some defaults with values put over them, and further fields behind. -/
structure Completes (defaults fs : Fields) : Prop where
  nodup : (fs.map Prod.fst).Nodup
  leading : defaults.map Prod.fst <+: fs.map Prod.fst

section

variable {defaults gs : Fields}

theorem set_cons (f : String × Value) : set (f :: fs) key v =
    if f.1 = key then (f.1, v) :: fs else f :: fs.set key v := rfl

theorem map_fst_set : (fs.set key v).map Prod.fst =
    if key ∈ fs.map Prod.fst then fs.map Prod.fst else fs.map Prod.fst ++ [key] := by
  induction fs with
  | nil => rfl
  | cons f fs ih =>
      rw [set_cons]
      by_cases hf : f.1 = key
      · simp [hf]
      · rw [if_neg hf, List.map_cons, ih, List.map_cons]
        by_cases hkey : key ∈ fs.map Prod.fst
        · rw [if_pos hkey, if_pos (List.mem_cons_of_mem _ hkey)]
        · rw [if_neg hkey, if_neg fun h => (List.mem_cons.mp h).elim (Ne.symm hf) hkey,
            List.cons_append]

theorem set_eq_self (h : fs.get? key = some v) : fs.set key v = fs := by
  induction fs with
  | nil => cases h
  | cons f fs ih =>
      obtain ⟨k, w⟩ := f
      rw [get?_cons] at h
      rw [set_cons]
      by_cases hk : k = key
      · rw [if_pos hk.symm] at h
        rw [if_pos hk, Option.some.inj h]
      · rw [if_neg (Ne.symm hk)] at h
        rw [if_neg hk, ih h]

/-- A field whose name is not among those put in stays in front. -/
theorem merge_cons_of_notMem (h : key ∉ gs.map Prod.fst) :
    merge ((key, v) :: fs) gs = (key, v) :: fs.merge gs := by
  induction gs generalizing fs with
  | nil => rfl
  | cons g gs ih =>
      obtain ⟨hg, hgs⟩ : key ≠ g.1 ∧ key ∉ gs.map Prod.fst := by simpa using h
      rw [merge, List.foldl_cons, set_cons, if_neg hg]
      exact ih hgs

namespace Completes

theorem refl (h : (fs.map Prod.fst).Nodup) : Completes fs fs := ⟨h, List.prefix_rfl⟩

theorem set (h : Completes defaults fs) (key : String) (v : Value) :
    Completes defaults (fs.set key v) := by
  by_cases hkey : key ∈ fs.map Prod.fst
  · have hnames : (fs.set key v).map Prod.fst = fs.map Prod.fst := by
      rw [map_fst_set, if_pos hkey]
    exact ⟨hnames ▸ h.nodup, hnames ▸ h.leading⟩
  · have hnames : (fs.set key v).map Prod.fst = fs.map Prod.fst ++ [key] := by
      rw [map_fst_set, if_neg hkey]
    refine ⟨?_, ?_⟩
    · rw [hnames]
      refine List.nodup_append.mpr ⟨h.nodup, List.pairwise_singleton _ key, ?_⟩
      rintro name hname _ hlast rfl
      exact hkey (List.mem_singleton.mp hlast ▸ hname)
    · rw [hnames]
      exact h.leading.trans (List.prefix_append _ _)

theorem merge (h : Completes defaults fs) (gs : Fields) : Completes defaults (fs.merge gs) := by
  induction gs generalizing fs with
  | nil => exact h
  | cons g gs ih => exact ih (h.set g.1 g.2)

/-- **What completes its defaults** stays what it is when it is put over them. -/
theorem merge_eq (h : Completes defaults fs) : defaults.merge fs = fs := by
  induction fs generalizing defaults with
  | nil =>
      have hnil : defaults = [] := by simpa using h.leading
      rw [hnil]
      rfl
  | cons f fs ih =>
      obtain ⟨hf, hfs⟩ := List.nodup_cons.mp h.nodup
      -- The first field takes the place of the first default, or is put where there is none.
      obtain ⟨rest, hset, hrest⟩ : ∃ rest : Fields, defaults.set f.1 f.2 = f :: rest ∧
          Completes rest fs := by
        cases defaults with
        | nil => exact ⟨[], rfl, hfs, List.nil_prefix⟩
        | cons d defaults =>
            obtain ⟨hd, hdefaults⟩ := List.cons_prefix_cons.mp h.leading
            exact ⟨defaults, by rw [set_cons, if_pos hd, hd], hfs, hdefaults⟩
      calc defaults.merge (f :: fs) = (defaults.set f.1 f.2).merge fs := rfl
        _ = Fields.merge (f :: rest) fs := by rw [hset]
        _ = f :: rest.merge fs := merge_cons_of_notMem hf
        _ = f :: fs := by rw [ih hrest]

end Completes

end

end Montage.Fields
