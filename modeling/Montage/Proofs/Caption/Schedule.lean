import Montage.Caption.Document
import Montage.Proofs.Number.Finite

/-!
# The order of captions

The captions of a document are those that have a text and end after their start, each of them once,
in the order of their starts. Captions that start together stay in the order in which they are
given.

## Main definitions

* `Cue.IsTimed`: the captions whose times are finite.
* `Cue.IsKept`: the captions that have a text and a duration.
* `IsSchedule`: the captions that are kept, in the order in which they are shown.

## Main statements

* `isSchedule_shownCues`: the captions that are shown are the schedule of the given ones.
* `IsSchedule.eq`: there is one schedule only.
-/
namespace Montage

/-- Both times of the caption are finite. -/
structure Cue.IsTimed (c : Cue) : Prop where
  start : c.start.IsFinite
  finish : c.finish.IsFinite

/-- The caption ends after its start, and its text is not blank. -/
def Cue.IsKept (c : Cue) : Prop := c.start < c.finish ∧ c.text.isBlank = false

instance (c : Cue) : Decidable c.IsKept := inferInstanceAs (Decidable (_ ∧ _))

/-- The captions that are kept, each once, by their starts. Those that start together are in the
order in which they are given. -/
structure IsSchedule (cues shown : List Cue) : Prop where
  perm : shown.Perm (cues.filter fun c => c.IsKept)
  sorted : shown.Pairwise fun c d => c.start ≤ d.start
  stable : ∀ x : Binary64, shown.filter (fun c => c.start == x) =
    (cues.filter fun c => c.IsKept).filter fun c => c.start == x

/-! ## Sorting by a key -/

section Key

variable {α κ : Type} [LinearOrder κ] (key : α → κ)

/-- What is sorted by a key is not moved past elements with the same key. -/
theorem filter_mergeSort_key (k : κ) (xs : List α) :
    (xs.mergeSort fun a b => key a ≤ key b).filter (fun a => key a = k) =
      xs.filter fun a => key a = k := by
  -- Elements with one key are in order as they are, so sorting leaves them in this order.
  have hsub : (xs.filter fun a => key a = k).Sublist (xs.mergeSort fun a b => key a ≤ key b) := by
    refine List.sublist_mergeSort ?_ ?_ ?_ List.filter_sublist
    · intro a b c hab hbc
      simp only [decide_eq_true_eq] at hab hbc ⊢
      exact hab.trans hbc
    · intro a b
      simpa using le_total (key a) (key b)
    · refine List.pairwise_of_forall_mem_list fun a ha b hb => ?_
      have hka : key a = k := by simpa using (List.mem_filter.mp ha).2
      have hkb : key b = k := by simpa using (List.mem_filter.mp hb).2
      simp [hka, hkb]
  have hfiltered := hsub.filter fun a => key a = k
  rw [List.filter_filter] at hfiltered
  simp only [Bool.and_self] at hfiltered
  refine (hfiltered.eq_of_length ?_).symm
  exact ((List.mergeSort_perm xs _).filter _).length_eq.symm

variable {key}

/-- Two sorted lists with the same elements for each key, in the same order, are the same. -/
theorem eq_of_filter_key_eq {xs ys : List α} (hxs : xs.Pairwise fun a b => key a ≤ key b)
    (hys : ys.Pairwise fun a b => key a ≤ key b)
    (h : ∀ k, xs.filter (fun a => key a = k) = ys.filter fun a => key a = k) : xs = ys := by
  have hmem : ∀ a, a ∈ xs ↔ a ∈ ys := fun a => by
    simpa [List.mem_filter] using congrArg (a ∈ ·) (h (key a))
  induction xs generalizing ys with
  | nil => exact (List.eq_nil_iff_forall_not_mem.mpr fun a ha => nomatch (hmem a).mpr ha).symm
  | cons a xs ih =>
      cases ys with
      | nil => exact nomatch (hmem a).mp (.head _)
      | cons b ys =>
          rw [List.pairwise_cons] at hxs hys
          -- Both lists start with an element of the least key.
          have hba : key b ≤ key a := by
            rcases List.mem_cons.mp ((hmem a).mp (.head _)) with rfl | ha
            · exact le_rfl
            · exact hys.1 a ha
          have hab : key a ≤ key b := by
            rcases List.mem_cons.mp ((hmem b).mpr (.head _)) with rfl | hb
            · exact le_rfl
            · exact hxs.1 b hb
          have hkey : key b = key a := le_antisymm hba hab
          obtain rfl : a = b := by
            have hhead := h (key a)
            simp only [List.filter_cons, hkey, decide_true, if_true] at hhead
            exact (List.cons.inj hhead).1
          have hrest : ∀ k, xs.filter (fun a => key a = k) = ys.filter fun a => key a = k := by
            intro k
            have hk := h k
            rw [List.filter_cons, List.filter_cons] at hk
            split at hk
            · exact (List.cons.inj hk).2
            · exact hk
          refine congrArg (a :: ·) (ih hxs.2 hys.2 hrest fun c => ?_)
          simpa [List.mem_filter] using congrArg (c ∈ ·) (hrest (key c))

end Key

/-! ## The captions that are shown -/

theorem Binary64.IsFinite.ne_nan {x : Binary64} (h : x.IsFinite) : x ≠ .nan := by
  rintro rfl
  cases h

variable {cues shown other : List Cue}

theorem length_shownCues (cues : List Cue) :
    (shownCues cues).length = cues.countP Cue.isShown := by
  rw [shownCues, ← List.countP_eq_length_filter]
  exact (List.mergeSort_perm cues _).countP_eq _

theorem Cue.IsTimed.isShown_eq {c : Cue} (h : c.IsTimed) : c.isShown = decide c.IsKept := by
  have horder : c.finish ≤ c.start ↔ ¬c.start < c.finish := by
    rw [Binary64.le_iff h.finish.ne_nan h.start.ne_nan,
      Binary64.lt_iff h.start.ne_nan h.finish.ne_nan, not_lt]
  rw [isShown, Bool.eq_iff_iff, decide_eq_true_iff]
  simp [IsKept, horder]

/-- Captions at finite times are sorted by the places of their starts. -/
theorem sortedCues_eq (h : ∀ c ∈ cues, c.IsTimed) :
    sortedCues cues = cues.mergeSort fun c d => c.start.place ≤ d.start.place := by
  have hsorted := List.map_mergeSort (f := id) (l := cues)
    (r := fun c d : Cue => !(d.start < c.start))
    (s := fun c d : Cue => c.start.place ≤ d.start.place) fun c hc d hd => by
      simp [Binary64.lt_iff (h d hd).start.ne_nan (h c hc).start.ne_nan, ← not_lt]
  simpa [sortedCues] using hsorted

theorem shownCues_eq (h : ∀ c ∈ cues, c.IsTimed) :
    shownCues cues =
      (cues.mergeSort fun c d => c.start.place ≤ d.start.place).filter fun c => c.IsKept := by
  rw [shownCues, sortedCues_eq h]
  exact List.filter_congr fun c hc => (h c (List.mem_mergeSort.mp hc)).isShown_eq

/-- The captions that are shown are those that are kept. -/
theorem mem_shownCues_iff (h : ∀ c ∈ cues, c.IsTimed) {c : Cue} :
    c ∈ shownCues cues ↔ c ∈ cues ∧ c.IsKept := by
  simp [shownCues_eq h, List.mem_mergeSort]

/-- A start is found by its place among captions at finite times. -/
theorem filter_start_eq (h : ∀ c ∈ cues, c.IsTimed) {x : Binary64} (hx : x ≠ .nan) :
    cues.filter (fun c => c.start == x) = cues.filter fun c => c.start.place = x.place :=
  List.filter_congr fun c hc => by
    rw [Bool.eq_iff_iff, decide_eq_true_iff, Binary64.beq_iff (h c hc).start.ne_nan hx]

theorem IsSchedule.isTimed (h : IsSchedule cues shown) (htimed : ∀ c ∈ cues, c.IsTimed) :
    ∀ c ∈ shown, c.IsTimed :=
  fun c hc => htimed c (List.mem_filter.mp (h.perm.mem_iff.mp hc)).1

/-- **The captions that are shown** are the schedule of the given ones. -/
theorem isSchedule_shownCues (h : ∀ c ∈ cues, c.IsTimed) : IsSchedule cues (shownCues cues) where
  perm := by
    rw [shownCues_eq h]
    exact (List.mergeSort_perm _ _).filter _
  sorted := by
    rw [shownCues_eq h]
    refine List.Pairwise.filter _ (List.Pairwise.imp_of_mem ?_ (List.pairwise_mergeSort ?_ ?_ cues))
    · intro c d hc hd hle
      rw [Binary64.le_iff (h c (List.mem_mergeSort.mp hc)).start.ne_nan
        (h d (List.mem_mergeSort.mp hd)).start.ne_nan]
      exact of_decide_eq_true hle
    · intro c d e hcd hde
      simp only [decide_eq_true_eq] at hcd hde ⊢
      exact hcd.trans hde
    · intro c d
      simpa using le_total c.start.place d.start.place
  stable := by
    intro x
    by_cases hx : x = .nan
    · have hnone : ∀ y : Binary64, (y == x) = false := fun y => by
        subst hx
        cases y <;> rfl
      simp [hnone]
    · have hsorted : ∀ c ∈ cues.mergeSort fun c d => c.start.place ≤ d.start.place, c.IsTimed :=
        fun c hc => h c (List.mem_mergeSort.mp hc)
      rw [shownCues_eq h, List.filter_comm, filter_start_eq hsorted hx,
        filter_mergeSort_key (fun c : Cue => c.start.place), ← filter_start_eq h hx,
        List.filter_comm]

/-- **A schedule** is determined by the captions. -/
theorem IsSchedule.eq (h : ∀ c ∈ cues, c.IsTimed) (hshown : IsSchedule cues shown)
    (hother : IsSchedule cues other) : shown = other := by
  have hplaces : ∀ {cs}, IsSchedule cues cs →
      cs.Pairwise fun c d => c.start.place ≤ d.start.place := fun hcs =>
    hcs.sorted.imp Binary64.place_le_of_le
  refine eq_of_filter_key_eq (hplaces hshown) (hplaces hother) fun k => ?_
  by_cases hk : ∃ x : Binary64, x ≠ .nan ∧ x.place = k
  · obtain ⟨x, hx, rfl⟩ := hk
    rw [← filter_start_eq (hshown.isTimed h) hx, ← filter_start_eq (hother.isTimed h) hx,
      hshown.stable, hother.stable]
  · have hnone : ∀ {cs}, IsSchedule cues cs → cs.filter (fun c => c.start.place = k) = [] := by
      intro cs hcs
      refine List.filter_eq_nil_iff.mpr fun c hc hck => hk ⟨c.start, ?_, of_decide_eq_true hck⟩
      exact (hcs.isTimed h c hc).start.ne_nan
    rw [hnone hshown, hnone hother]

end Montage
