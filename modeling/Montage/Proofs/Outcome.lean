import Mathlib.Data.List.Forall2
import Montage.Fault

/-!
# Outcomes of computations

A computation that can fail succeeds just if each of its steps does. These facts open the checks and
the readers of fields, which are all written as such computations.

## Main statements

* `isOk_bind`, `isOk_map`, `isOk_mapM`, `isOk_foldlM`: when a computation succeeds.
* `bind_eq_ok`, `mapM_eq_ok_iff`, `mapM_eq_error_iff`, `mem_of_mapM`, `exists_mapM_flatten_nil`: what
  a result says about the steps.
-/
namespace Montage.Outcome

open Except

variable {ε α α' β : Type}

theorem isOk_iff {x : Except ε α} : x.isOk = true ↔ ∃ a, x = .ok a := by
  cases x <;> simp [isOk, Except.toBool]

@[simp] theorem isOk_ok {a : α} : (ok a : Except ε α).isOk = true := rfl

@[simp] theorem isOk_error {e : ε} : (error e : Except ε α).isOk = false := rfl

@[simp] theorem isOk_map {x : Except ε α} {f : α → β} : (x.map f).isOk = x.isOk := by
  cases x <;> rfl

theorem isOk_bind {x : Except ε α} {f : α → Except ε β} :
    (x >>= f).isOk = true ↔ ∃ a, x = .ok a ∧ (f a).isOk = true := by
  cases x <;> simp [bind, Except.bind]

/-- The last step decides alone if what is done with its result cannot fail. -/
theorem isOk_bind_of_forall {x : Except ε α} {f : α → Except ε β} (h : ∀ a, (f a).isOk = true) :
    (x >>= f).isOk = x.isOk := by
  cases x with
  | error e => rfl
  | ok a => exact h a

/-- Two steps, neither of which depends on the result of the other. -/
theorem isOk_bind_bind {x : Except ε α} {y : Except ε α'} {f : α → α' → Except ε β}
    (h : ∀ a a', (f a a').isOk = true) :
    (x >>= fun a => y >>= f a).isOk = (x.isOk && y.isOk) := by
  cases x with
  | error e => rfl
  | ok a => exact isOk_bind_of_forall (h a)

/-- A step and a further one that succeeds in the same case whatever the result of the first. -/
theorem isOk_bind_iff {x : Except ε α} {f : α → Except ε β} {P : Prop}
    (h : ∀ a, (f a).isOk = true ↔ P) : (x >>= f).isOk = true ↔ x.isOk = true ∧ P := by
  cases x with
  | error e => simp [bind, Except.bind]
  | ok a => simpa [bind, Except.bind] using h a

theorem bind_eq_ok {x : Except ε α} {f : α → Except ε β} {b : β} :
    (x >>= f) = .ok b ↔ ∃ a, x = .ok a ∧ f a = .ok b := by
  cases x <;> simp [bind, Except.bind]

theorem bind_eq_error {x : Except ε α} {f : α → Except ε β} {e : ε} :
    (x >>= f) = .error e ↔ x = .error e ∨ ∃ a, x = .ok a ∧ f a = .error e := by
  cases x <;> simp [bind, Except.bind]

theorem map_eq_error {x : Except ε α} {f : α → β} {e : ε} :
    x.map f = .error e ↔ x = .error e := by
  cases x <;> simp [Except.map]

theorem map_eq_ok {x : Except ε α} {f : α → β} {b : β} :
    x.map f = .ok b ↔ ∃ a, x = .ok a ∧ f a = b := by
  cases x <;> simp [Except.map]

theorem mapError_ok {ε' : Type} (f : ε → ε') (a : α) :
    (Except.ok a : Except ε α).mapError f = .ok a := rfl

theorem mapError_error {ε' : Type} (f : ε → ε') (e : ε) :
    (Except.error e : Except ε α).mapError f = .error (f e) := rfl

theorem mapError_eq_ok {ε' : Type} {x : Except ε α} {f : ε → ε'} {a : α} :
    x.mapError f = .ok a ↔ x = .ok a := by
  cases x <;> simp [mapError_ok, mapError_error]

theorem mapError_eq_error {ε' : Type} {x : Except ε α} {f : ε → ε'} {e' : ε'} :
    x.mapError f = .error e' ↔ ∃ e, x = .error e ∧ f e = e' := by
  cases x <;> simp [mapError_ok, mapError_error]

/-- A list is gone through successfully if every element is. -/
theorem isOk_mapM {f : α → Except ε β} {xs : List α} :
    (xs.mapM f).isOk = true ↔ ∀ x ∈ xs, (f x).isOk = true := by
  induction xs with
  | nil => simp [pure, Except.pure]
  | cons x xs ih =>
      rw [List.mapM_cons, isOk_bind, List.forall_mem_cons, ← ih, isOk_iff]
      constructor
      · rintro ⟨y, hy, hrest⟩
        obtain ⟨ys, hys, -⟩ := isOk_bind.mp hrest
        exact ⟨⟨y, hy⟩, isOk_iff.mpr ⟨ys, hys⟩⟩
      · rintro ⟨⟨y, hy⟩, hrest⟩
        obtain ⟨ys, hys⟩ := isOk_iff.mp hrest
        exact ⟨y, hy, isOk_bind.mpr ⟨ys, hys, rfl⟩⟩

/-- Steps that succeed for what each element yields, whatever was done before, are all taken just if
every element yields something. -/
theorem isOk_foldlM {f : β → α → Except ε β} {g : α → Except ε α'} {xs : List α} {b : β}
    (h : ∀ b x, (f b x).isOk = (g x).isOk) :
    (xs.foldlM f b).isOk = true ↔ ∀ x ∈ xs, (g x).isOk = true := by
  induction xs generalizing b with
  | nil => simp [pure, Except.pure]
  | cons x xs ih =>
      rw [List.foldlM_cons, isOk_bind, List.forall_mem_cons, ← h b, isOk_iff]
      simp only [ih, exists_and_right]

/-- What is collected from a list comes from its elements, and something from each of them. -/
theorem mem_of_mapM {f : α → Except ε β} {xs : List α} {ys : List β} (h : xs.mapM f = .ok ys) :
    (∀ y ∈ ys, ∃ x ∈ xs, f x = .ok y) ∧ ∀ x ∈ xs, ∃ y ∈ ys, f x = .ok y := by
  induction xs generalizing ys with
  | nil =>
      obtain rfl : [] = ys := Except.ok.inj h
      exact ⟨nofun, nofun⟩
  | cons x xs ih =>
      rw [List.mapM_cons] at h
      obtain ⟨y, hy, hrest⟩ := bind_eq_ok.mp h
      obtain ⟨zs, hzs, hcons⟩ := bind_eq_ok.mp hrest
      obtain rfl : y :: zs = ys := Except.ok.inj hcons
      obtain ⟨hback, hforth⟩ := ih hzs
      refine ⟨List.forall_mem_cons.mpr ⟨⟨x, List.mem_cons_self, hy⟩, fun z hz => ?_⟩,
        List.forall_mem_cons.mpr ⟨⟨y, List.mem_cons_self, hy⟩, fun w hw => ?_⟩⟩
      · obtain ⟨w, hw, hwz⟩ := hback z hz
        exact ⟨w, List.mem_cons_of_mem x hw, hwz⟩
      · obtain ⟨z, hz, hwz⟩ := hforth w hw
        exact ⟨z, List.mem_cons_of_mem y hz, hwz⟩

/-- All of what is collected from a list has a property just if what comes from each element has. -/
theorem exists_mapM_forall {f : α → Except ε β} {xs : List α} {P : β → Prop} :
    (∃ ys, xs.mapM f = .ok ys ∧ ∀ y ∈ ys, P y) ↔ ∀ x ∈ xs, ∃ y, f x = .ok y ∧ P y := by
  constructor
  · rintro ⟨ys, hys, hall⟩ x hx
    obtain ⟨y, hy, hxy⟩ := (mem_of_mapM hys).2 x hx
    exact ⟨y, hxy, hall y hy⟩
  · intro h
    obtain ⟨ys, hys⟩ := isOk_iff.mp (isOk_mapM.mpr fun x hx =>
      isOk_iff.mpr ⟨(h x hx).choose, (h x hx).choose_spec.1⟩)
    refine ⟨ys, hys, fun y hy => ?_⟩
    obtain ⟨x, hx, hxy⟩ := (mem_of_mapM hys).1 y hy
    obtain ⟨z, hz, hPz⟩ := h x hx
    exact Except.ok.inj (hxy.symm.trans hz) ▸ hPz

/-- What is collected from a list is what its elements yield, one by one. -/
theorem mapM_eq_ok_iff {f : α → Except ε β} {xs : List α} {ys : List β} :
    xs.mapM f = .ok ys ↔ List.Forall₂ (fun x y => f x = .ok y) xs ys := by
  induction xs generalizing ys with
  | nil => cases ys <;> simp [pure, Except.pure]
  | cons x xs ih =>
      rw [List.mapM_cons, bind_eq_ok]
      constructor
      · rintro ⟨y, hy, hrest⟩
        obtain ⟨zs, hzs, hcons⟩ := bind_eq_ok.mp hrest
        obtain rfl : y :: zs = ys := Except.ok.inj hcons
        exact .cons hy (ih.mp hzs)
      · rintro (_ | ⟨hy, hrest⟩)
        exact ⟨_, hy, bind_eq_ok.mpr ⟨_, ih.mpr hrest, rfl⟩⟩

/-- Collecting from a list fails at the first element that yields nothing. -/
theorem mapM_eq_error_iff {f : α → Except ε β} {xs : List α} {e : ε} :
    xs.mapM f = .error e ↔ ∃ before x after, xs = before ++ x :: after ∧
      (∀ y ∈ before, ∃ z, f y = .ok z) ∧ f x = .error e := by
  induction xs with
  | nil => simp [pure, Except.pure]
  | cons x xs ih =>
      rw [List.mapM_cons, bind_eq_error]
      constructor
      · rintro (hx | ⟨y, hy, hrest⟩)
        · exact ⟨[], x, xs, rfl, nofun, hx⟩
        · obtain hrest | ⟨_, -, hpure⟩ := bind_eq_error.mp hrest
          · obtain ⟨before, z, after, rfl, hbefore, hz⟩ := ih.mp hrest
            exact ⟨x :: before, z, after, rfl, List.forall_mem_cons.mpr ⟨⟨y, hy⟩, hbefore⟩, hz⟩
          · cases hpure
      · rintro ⟨before, z, after, hxs, hbefore, hz⟩
        cases before with
        | nil =>
            obtain ⟨rfl, rfl⟩ := List.cons.inj hxs
            exact .inl hz
        | cons y before =>
            obtain ⟨rfl, rfl⟩ := List.cons.inj hxs
            obtain ⟨⟨w, hw⟩, hbefore⟩ := List.forall_mem_cons.mp hbefore
            refine .inr ⟨w, hw, bind_eq_error.mpr (.inl ?_)⟩
            exact ih.mpr ⟨before, z, after, rfl, hbefore, hz⟩

theorem ne_nil_of_mapM {f : α → Except ε β} {xs : List α} {ys : List β} (h : xs.mapM f = .ok ys)
    (hne : xs ≠ []) : ys ≠ [] := by
  obtain ⟨x, hx⟩ := List.exists_mem_of_ne_nil xs hne
  obtain ⟨y, hy, -⟩ := (mem_of_mapM h).2 x hx
  exact List.ne_nil_of_mem hy

/-- What is collected from a list depends only on what its elements yield. -/
theorem mapM_congr {f g : α → Except ε β} {xs : List α} (h : ∀ x ∈ xs, f x = g x) :
    xs.mapM f = xs.mapM g := by
  induction xs with
  | nil => rfl
  | cons x xs ih =>
      obtain ⟨hx, hrest⟩ := List.forall_mem_cons.mp h
      rw [List.mapM_cons, List.mapM_cons, hx, ih hrest]

/-- To change every result is to change all results of a list. -/
theorem mapM_map {f : α → Except ε β} {g : β → α'} {xs : List α} :
    (xs.mapM fun x => (f x).map g) = (xs.mapM f).map (List.map g) := by
  induction xs with
  | nil => rfl
  | cons x xs ih =>
      rw [List.mapM_cons, List.mapM_cons, ih]
      cases f x with
      | error e => rfl
      | ok y => cases xs.mapM f <;> rfl

/-- Nothing is collected from a list just if nothing is collected from any element. -/
theorem exists_mapM_flatten_nil {f : α → Except ε (List β)} {xs : List α} :
    (∃ yss, xs.mapM f = .ok yss ∧ yss.flatten = []) ↔ ∀ x ∈ xs, f x = .ok [] := by
  induction xs with
  | nil => simp [pure, Except.pure]
  | cons x xs ih =>
      rw [List.forall_mem_cons, ← ih, List.mapM_cons]
      constructor
      · rintro ⟨yss, hyss, hnil⟩
        obtain ⟨ys, hys, hrest⟩ := bind_eq_ok.mp hyss
        obtain ⟨zss, hzss, hcons⟩ := bind_eq_ok.mp hrest
        obtain rfl : ys :: zss = yss := by simpa [pure, Except.pure] using hcons
        obtain ⟨rfl, hzs⟩ := List.append_eq_nil_iff.mp (List.flatten_cons ▸ hnil)
        exact ⟨hys, zss, hzss, hzs⟩
      · rintro ⟨hx, zss, hzss, hnil⟩
        exact ⟨[] :: zss, by simp [hx, hzss, bind, Except.bind, pure, Except.pure],
          by simpa using hnil⟩

end Montage.Outcome
