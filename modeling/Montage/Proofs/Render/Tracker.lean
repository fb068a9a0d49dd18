import Montage.Proofs.Number.Order
import Montage.Render.Tracker

/-!
# What a tracker tells

A rendering that goes on has told of its start and of shares that never fell. Another share that is
told keeps it so, and its end is told once, after all the rest.

## Main definitions

* `Binary64.IsShare`: a number between zero and a hundred.
* `Tracker.Running`: the tracker of a rendering that has started and has not ended.
* `Told`: the events of a rendering that has ended.

## Main statements

* `Tracker.Running.update`: what one more share preserves.
* `Tracker.Running.told_complete`, `Tracker.Running.told_fail`: how a rendering ends.
-/
namespace Montage

namespace Binary64

/-- A share out of a hundred. -/
def IsShare (x : Binary64) : Prop := 0 ≤ x ∧ x ≤ 100

variable {x y : Binary64}

theorem le_of_not_lt (hx : x ≠ nan) (hy : y ≠ nan) (h : ¬x < y) : y ≤ x := by
  rw [lt_iff hx hy, not_lt] at h
  exact (le_iff hy hx).mpr h

theorem le_refl_of_ne_nan (hx : x ≠ nan) : x ≤ x := (le_iff hx hx).mpr le_rfl

theorem le_trans_of_le {z : Binary64} (hxy : x ≤ y) (hyz : y ≤ z) : x ≤ z :=
  (le_iff (ne_nan_of_le hxy).1 (ne_nan_of_le hyz).2).mpr
    ((place_le_of_le hxy).trans (place_le_of_le hyz))

theorem le_of_lt_of_ne_nan (h : x < y) : x ≤ y := Bool.or_eq_true_iff.mpr (.inl h)

theorem IsShare.ne_nan (h : x.IsShare) : x ≠ nan := (ne_nan_of_le h.1).2

/-- A number that is at least zero is brought under a hundred. -/
theorem isShare_smaller (h : 0 ≤ x) : ((100 : Binary64).smaller x).IsShare := by
  rw [smaller]
  split_ifs with hlt
  · exact ⟨h, le_of_lt_of_ne_nan hlt⟩
  · exact ⟨by decide, by decide⟩

/-- A share is made of any number, also of what is none. -/
theorem isShare_smaller_larger (x : Binary64) :
    ((100 : Binary64).smaller ((0 : Binary64).larger x)).IsShare := by
  refine isShare_smaller ?_
  rw [larger]
  split_ifs with hlt
  · exact le_of_lt_of_ne_nan hlt
  · decide

end Binary64

/-- Events of a rendering: its start, and shares that never fall. -/
structure Course (first : RenderEvent) (shares : List RenderEvent) : Prop where
  start : first.kind = .start
  progress : ∀ e ∈ shares, e.kind = .progress ∧ e.percent.IsShare
  rising : shares.Pairwise fun e e' => e.percent ≤ e'.percent

/-- The events tell of a rendering from its start to `last`. -/
def Told (events : List RenderEvent) (last : RenderEvent) : Prop :=
  ∃ first shares, events = first :: shares ++ [last] ∧ Course first shares

namespace Tracker

/-- The rendering has started and goes on. The share that is kept was not exceeded. -/
structure Running (t : Tracker) (first : RenderEvent) (shares : List RenderEvent) : Prop where
  unfinished : t.finished = false
  events : t.events = first :: shares
  course : Course first shares
  share : t.percent.IsShare
  highest : ∀ e ∈ shares, e.percent ≤ t.percent

variable {t : Tracker} {first : RenderEvent} {shares : List RenderEvent} {p : Binary64}

theorem isShare_clamp (h : p ≠ .nan) : (clamp p).IsShare := by
  have hlarger : 0 ≤ p.larger 0 := by
    rw [Binary64.larger]
    split_ifs with hlt
    · decide
    · exact Binary64.le_of_not_lt h (by decide) hlt
  rw [clamp, Binary64.smaller]
  split_ifs with hlt
  · exact ⟨by decide, by decide⟩
  · exact ⟨hlarger, Binary64.le_of_not_lt (by decide) (Binary64.ne_nan_of_le hlarger).2 hlt⟩

/-- A rendering that was just started goes on. -/
theorem running_start (operation : String) (listeners : List Listener) (command : String) :
    ((of operation listeners).start command).Running
      ⟨.start, 0, "Render started", "", some command⟩ [] where
  unfinished := rfl
  events := rfl
  course := ⟨rfl, by simp, .nil⟩
  share := show (0 : Binary64).IsShare from ⟨by decide, by decide⟩
  highest := by simp

/-- **One more share.** It is told unless it falls, and the rendering goes on. -/
theorem Running.update (h : t.Running first shares) (hp : p ≠ .nan) (message : String)
    (stage : Option String) :
    ∃ more, (t.update p message stage).Running first (shares ++ more) := by
  have hclamp := isShare_clamp hp
  simp only [Tracker.update, h.unfinished, Bool.false_eq_true, if_false]
  split_ifs with hfall
  · exact ⟨[], {
      unfinished := rfl
      events := by rw [List.append_nil, h.events]
      course := by rw [List.append_nil]; exact h.course
      share := h.share
      highest := by rw [List.append_nil]; exact h.highest }⟩
  · have hrise : t.percent ≤ clamp p := Binary64.le_of_not_lt hclamp.ne_nan h.share.ne_nan hfall
    have hbelow : ∀ e ∈ shares, e.percent ≤ clamp p := fun e he =>
      Binary64.le_trans_of_le (h.highest e he) hrise
    refine ⟨[⟨.progress, clamp p, message, stage.getD t.stage, none⟩], {
      unfinished := rfl
      events := ?_
      course := ⟨h.course.start, ?_, ?_⟩
      share := hclamp
      highest := ?_ }⟩
    · rw [emit]
      simp [h.events]
    · exact List.forall_mem_append.mpr ⟨h.course.progress, by simp [hclamp]⟩
    · rw [List.pairwise_append]
      exact ⟨h.course.rising, List.pairwise_singleton _ _, by simpa using hbelow⟩
    · exact List.forall_mem_append.mpr
        ⟨hbelow, by simpa [emit] using Binary64.le_refl_of_ne_nan hclamp.ne_nan⟩

/-- **A success** is told once, after all shares. -/
theorem Running.told_complete (h : t.Running first shares) (message : String) :
    ∃ last, Told (t.complete message).events last ∧ last.kind = .complete := by
  refine ⟨⟨.complete, 100, message, t.stage, none⟩, ⟨first, shares, ?_, h.course⟩, rfl⟩
  rw [complete, h.unfinished]
  simp [emit, h.events]

/-- **A failure** is told once, after all shares. -/
theorem Running.told_fail (h : t.Running first shares) (message : String) :
    ∃ last, Told (t.fail message).events last ∧ last.kind = .error := by
  refine ⟨⟨.error, t.percent, message, t.stage, none⟩, ⟨first, shares, ?_, h.course⟩, rfl⟩
  rw [fail, h.unfinished]
  simp [emit, h.events]

end Tracker

end Montage
