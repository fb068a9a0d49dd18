import Mathlib.Tactic.Ring
import Montage.Proofs.Number.Order
import Montage.Segment.Plan

/-!
# What a removal keeps

Cutting the span from `start` to `finish` out of a clip keeps every other time of the clip and no
time of the span. A plan has one of three shapes: only the rest of the clip is kept, only its
beginning, or both. Everything about plans is read off these shapes.

## Main definitions

* `Span.Contains`: the times of a span.
* `SegmentPlan.Keeps`: the spans of a plan are what a removal leaves.
* `KeptShape`: the three shapes of a plan.

## Main statements

* `keptShape_of_planRemoval`: every plan has one of the shapes, with the comparisons that lead to
  it.
* `planRemoval_keeps`: when a removal is skipped, and what is kept otherwise.
-/
namespace Montage

/-- The time lies in the span. -/
def Span.Contains (s : Span Number) (t : Number) : Prop := s.start ≤ t ∧ ∀ e ∈ s.finish, t < e

/-- The plan with other times. -/
def SegmentPlan.map {α β : Type} (f : α → β) (p : SegmentPlan α) : SegmentPlan β :=
  ⟨p.spans.map fun s => ⟨f s.start, s.finish.map f⟩, p.source.map f, f p.removed.1, f p.removed.2⟩

/-- What the plan keeps is what the removal of the span from `start` to `finish` leaves of the
source. -/
structure SegmentPlan.Keeps (p : SegmentPlan Number) (start finish : Number)
    (source : Option Number) : Prop where
  nonempty : ∀ s ∈ p.spans, s.Contains s.start
  ordered : p.spans.Pairwise fun s t => ∃ e ∈ s.finish, e ≤ t.start
  covers : ∀ t : Number, t.IsOrdered → 0 ≤ t → (∀ d ∈ source, t < d) →
    ((∃ s ∈ p.spans, s.Contains t) ↔ ¬(start ≤ t ∧ t < finish))

/-- The shapes of a plan that cuts out the span from `start` to `finish`. -/
inductive KeptShape (start finish : Number) (source : Option Number) : List (Span Number) → Prop
  /-- The span lies at the beginning, so the rest is kept. -/
  | rest : start.place = 0 → (∀ d ∈ source, finish.place < d.place) →
      KeptShape start finish source [⟨finish, source⟩]
  /-- The span reaches the end, so the beginning is kept. -/
  | beginning {d : Number} : source = some d → 0 < start.place → start.place < d.place →
      d.place ≤ finish.place → KeptShape start finish source [⟨.real 0, some start⟩]
  /-- The span lies inside. -/
  | both : 0 < start.place → (∀ d ∈ source, finish.place < d.place) →
      KeptShape start finish source [⟨.real 0, some start⟩, ⟨finish, source⟩]

section

variable {start finish : Number} {source : Option Number} {p : SegmentPlan Number}

theorem Span.contains_iff {a t : Number} {e : Option Number} (ha : a.IsOrdered)
    (he : ∀ b ∈ e, b.IsOrdered) (ht : t.IsOrdered) :
    (Span.mk a e).Contains t ↔ a.place ≤ t.place ∧ ∀ b ∈ e, t.place < b.place := by
  rw [Span.Contains, Number.le_iff ha ht]
  exact and_congr_right fun _ => forall₂_congr fun b hb => Number.lt_iff ht (he b hb)

/-! ## The shapes of plans -/

theorem planRemoval_eq_ok_iff : planRemoval start finish source = .ok p ↔
    skipCause? (.real 0) start finish source = none ∧
      p = ⟨SegmentPlan.keptSpans (.real 0) start finish source, source, (start, finish)⟩ := by
  rw [planRemoval, SegmentPlan.remove]
  cases skipCause? (.real 0) start finish source <;> simp [eq_comm]

/-- A removal is carried out if the span is not empty and something of the source is left. -/
theorem skipCause?_eq_none_iff : skipCause? (.real 0) start finish source = none ↔
    ¬start < .real 0 ∧ ¬finish ≤ start ∧
      ∀ d ∈ source, ¬d ≤ start ∧ ¬((start == .real 0) = true ∧ d ≤ finish) := by
  simp only [skipCause?]
  cases source <;> grind

variable (hs : start.IsOrdered) (hf : finish.IsOrdered) (hd : ∀ d ∈ source, d.IsOrdered)
include hs hf hd

/-- A plan is made for a span that is not empty, and it has one of the three shapes. -/
theorem keptShape_of_planRemoval (h : planRemoval start finish source = .ok p) :
    0 ≤ start.place ∧ start.place < finish.place ∧ KeptShape start finish source p.spans := by
  obtain ⟨hcause, rfl⟩ := planRemoval_eq_ok_iff.mp h
  obtain ⟨hnegative, hempty, hsource⟩ := skipCause?_eq_none_iff.mp hcause
  have hzero : (Number.real 0).IsOrdered := by decide
  have hplace : (Number.real 0).place = 0 := rfl
  rw [Number.lt_iff hs hzero, hplace, not_lt] at hnegative
  rw [Number.le_iff hf hs, not_le] at hempty
  refine ⟨hnegative, hempty, ?_⟩
  have hafter : ∀ d ∈ source, start.place < d.place := fun d hmem =>
    not_le.mp fun hle => (hsource d hmem).1 ((Number.le_iff (hd d hmem) hs).mpr hle)
  rw [SegmentPlan.keptSpans]
  by_cases hstart : start.place = 0
  · have hbeq : (start == Number.real 0) = true := by
      rw [Number.beq_iff hs hzero, hstart, hplace]
    rw [if_pos hbeq]
    exact .rest hstart fun d hmem => not_le.mp fun hle =>
      (hsource d hmem).2 ⟨hbeq, (Number.le_iff (hd d hmem) hf).mpr hle⟩
  · have hbeq : ¬(start == Number.real 0) = true := fun heq =>
      hstart ((Number.beq_iff hs hzero).mp heq)
    have hpos : 0 < start.place := lt_of_le_of_ne hnegative (Ne.symm hstart)
    rw [if_neg hbeq]
    cases source with
    | none => exact .both hpos (by simp)
    | some d =>
        have hdord : d.IsOrdered := hd d rfl
        by_cases hle : d ≤ finish
        · simp only [Option.any_some, hle, decide_true, if_true]
          exact .beginning rfl hpos (hafter d rfl) ((Number.le_iff hdord hf).mp hle)
        · have hlt : finish.place < d.place := by rwa [Number.le_iff hdord hf, not_le] at hle
          simp only [Option.any_some, hle, decide_false, Bool.false_eq_true, if_false]
          exact .both hpos (by simpa using hlt)

/-! ## What is kept -/

/-- The spans of a plan are not empty, follow one another, and hold the times outside the span that
is cut out. -/
theorem keeps_of_planRemoval (h : planRemoval start finish source = .ok p) :
    p.Keeps start finish source := by
  obtain ⟨hzero, hempty, hshape⟩ := keptShape_of_planRemoval hs hf hd h
  obtain ⟨spans, _, _⟩ := p
  dsimp only at hshape
  have horigin : (Number.real 0).IsOrdered := by decide
  have hplace : (Number.real 0).place = 0 := rfl
  have hstart : ∀ b ∈ some start, b.IsOrdered := by simpa using hs
  constructor
  · intro s hmem
    cases hshape with
    | rest hfirst hafter =>
        obtain rfl := List.mem_singleton.mp hmem
        exact (Span.contains_iff hf hd hf).mpr ⟨le_rfl, hafter⟩
    | beginning _ hpos =>
        obtain rfl := List.mem_singleton.mp hmem
        exact (Span.contains_iff horigin hstart horigin).mpr ⟨le_rfl, by simpa [hplace] using hpos⟩
    | both hpos hafter =>
        have hspans : s = ⟨.real 0, some start⟩ ∨ s = ⟨finish, source⟩ := by simpa using hmem
        rcases hspans with rfl | rfl
        · exact (Span.contains_iff horigin hstart horigin).mpr
            ⟨le_rfl, by simpa [hplace] using hpos⟩
        · exact (Span.contains_iff hf hd hf).mpr ⟨le_rfl, hafter⟩
  · cases hshape with
    | rest => simp
    | beginning => simp
    | both => simpa using (Number.le_iff hs hf).mpr hempty.le
  · intro t ht hfrom hbefore
    have hfrom' : 0 ≤ t.place := (Number.le_iff (Number.isOrdered_int 0) ht).mp hfrom
    have hbefore' : ∀ d ∈ source, t.place < d.place :=
      fun d hmem => (Number.lt_iff ht (hd d hmem)).mp (hbefore d hmem)
    rw [Number.le_iff hs ht, Number.lt_iff ht hf]
    cases hshape with
    | rest hfirst _ =>
        simp only [List.mem_singleton, exists_eq_left, Span.contains_iff hf hd ht]
        grind
    | beginning hsome _ _ hle =>
        simp only [List.mem_singleton, exists_eq_left, Span.contains_iff horigin hstart ht, hplace]
        grind
    | both _ _ =>
        simp only [List.mem_cons, List.not_mem_nil, or_false, exists_eq_or_imp, exists_eq_left,
          Span.contains_iff horigin hstart ht, Span.contains_iff hf hd ht, hplace]
        grind

end

/-! ## How long the output is -/

section

variable {α : Type} [Sub α] [Add α] [OfNat α 0]

theorem outputDuration?_single (a : α) (e source : Option α) (removed : α × α) :
    (SegmentPlan.mk [⟨a, e⟩] source removed).outputDuration? = e.map fun b => 0 + (b - a) := by
  cases e <;> rfl

theorem outputDuration?_pair (a b c : α) (e source : Option α) (removed : α × α) :
    (SegmentPlan.mk [⟨a, some b⟩, ⟨c, e⟩] source removed).outputDuration? =
      e.map fun d => 0 + (b - a) + (d - c) := by
  cases e <;> rfl

end

/-- The length of what is kept of a known source can be told. -/
theorem exists_outputDuration? {start finish d : Number} {plan : SegmentPlan Number}
    (h : planRemoval start finish (some d) = .ok plan) :
    ∃ length, plan.outputDuration? = some length := by
  rw [(planRemoval_eq_ok_iff.mp h).2, SegmentPlan.keptSpans]
  split_ifs
  · exact ⟨_, outputDuration?_single ..⟩
  · exact ⟨_, outputDuration?_single ..⟩
  · exact ⟨_, outputDuration?_pair ..⟩

section

variable {start finish : Number} {source : Option Number} {spans : List (Span Number)}

/-- How long the output is can be told just if it can be told how long the source is. -/
theorem outputDuration?_eq_none_iff (h : KeptShape start finish source spans)
    (removed : Number × Number) :
    (SegmentPlan.mk spans source removed).outputDuration? = none ↔ source = none := by
  cases h with
  | rest => rw [outputDuration?_single, Option.map_eq_none_iff]
  | beginning hsome => simp [outputDuration?_single, hsome]
  | both => rw [outputDuration?_pair, Option.map_eq_none_iff]

/-- In exact arithmetic the output is shorter than the source by what is cut out of it. -/
theorem outputDuration?_map_value (h : KeptShape start finish source spans) (hs : start.IsFinite)
    (hf : finish.IsFinite) (hd : ∀ d ∈ source, d.IsFinite) (removed : Number × Number) :
    ((SegmentPlan.mk spans source removed).map Number.value).outputDuration? =
      source.map fun d => d.value - (min finish.value d.value - start.value) := by
  have hzero : (Number.real 0).value = 0 := rfl
  cases h with
  | rest hfirst hafter =>
      rw [Number.place_eq_zero_iff hs] at hfirst
      simp only [SegmentPlan.map, List.map_cons, List.map_nil, outputDuration?_single]
      cases source with
      | none => rfl
      | some d =>
          have hlt := (Number.place_lt_iff hf (hd d rfl)).mp (hafter d rfl)
          simp only [Option.map_some, min_eq_left hlt.le, hfirst]
          congr 1
          ring
  | beginning hsome _ _ hle =>
      subst hsome
      have hle' := (Number.place_le_iff (hd _ rfl) hf).mp hle
      simp only [SegmentPlan.map, List.map_cons, List.map_nil, outputDuration?_single,
        Option.map_some, min_eq_right hle', hzero]
      congr 1
      ring
  | both _ hafter =>
      simp only [SegmentPlan.map, List.map_cons, List.map_nil, Option.map_some,
        outputDuration?_pair, hzero]
      cases source with
      | none => rfl
      | some d =>
          have hlt := (Number.place_lt_iff hf (hd d rfl)).mp (hafter d rfl)
          simp only [Option.map_some, min_eq_left hlt.le]
          congr 1
          ring

/-! ## Removals -/

/-- **A removal keeps the rest.** It is skipped just if the span starts before zero, is empty, lies
behind the source or covers all of it. Otherwise the kept spans are not empty, in order and
disjoint, and hold just the times outside the span. The output is as much shorter as was cut out,
which can be told if the length of the source is known. -/
theorem planRemoval_keeps (hs : start.IsOrdered) (hf : finish.IsOrdered)
    (hd : ∀ d ∈ source, d.IsOrdered) :
    ((∃ cause, planRemoval start finish source = .error cause) ↔
      start < 0 ∨ finish ≤ start ∨
        ∃ d ∈ source, d ≤ start ∨ ((start == 0) = true ∧ d ≤ finish)) ∧
    ∀ p, planRemoval start finish source = .ok p →
      p.Keeps start finish source ∧ (p.outputDuration? = none ↔ source = none) ∧
      (start.IsFinite → finish.IsFinite → (∀ d ∈ source, d.IsFinite) →
        (p.map Number.value).outputDuration? =
          source.map fun d => d.value - (min finish.value d.value - start.value)) := by
  constructor
  · have hskip : (∃ cause, planRemoval start finish source = .error cause) ↔
        ¬skipCause? (.real 0) start finish source = none := by
      rw [planRemoval, SegmentPlan.remove]
      cases skipCause? (.real 0) start finish source <;> simp
    rw [hskip, skipCause?_eq_none_iff]
    have hlt : start < .real 0 ↔ start < 0 := Iff.rfl
    have hbeq : (start == .real 0) = true ↔ (start == 0) = true := Iff.rfl
    grind
  · intro p hp
    have hshape := (keptShape_of_planRemoval hs hf hd hp).2.2
    have hplan := (planRemoval_eq_ok_iff.mp hp).2
    refine ⟨keeps_of_planRemoval hs hf hd hp, ?_, ?_⟩
    · rw [hplan] at hshape ⊢
      exact outputDuration?_eq_none_iff hshape _
    · intro hs' hf' hd'
      rw [hplan] at hshape ⊢
      exact outputDuration?_map_value hshape hs' hf' hd' _

/-- From two seconds on, one and a half are cut out of ten. -/
theorem planRemoval_two_to_three_and_a_half :
    let finish : Number := .real (.finite (7 / 2))
    (2 : Number).IsOrdered ∧ finish.IsOrdered ∧ (∀ d ∈ some (10 : Number), d.IsOrdered) ∧
      ∃ p, planRemoval 2 finish (some 10) = .ok p ∧ p.Keeps 2 finish (some 10) ∧
        (p.map Number.value).outputDuration? = some (17 / 2) := by
  intro finish
  have hs : (2 : Number).IsOrdered := by decide
  have hf : finish.IsOrdered := by decide
  have hd : ∀ d ∈ some (10 : Number), d.IsOrdered := by decide
  refine ⟨hs, hf, hd, ?_⟩
  obtain ⟨hskip, hkeeps⟩ := planRemoval_keeps hs hf hd
  cases hplan : planRemoval 2 finish (some 10) with
  | error cause => exact absurd (hskip.mp ⟨cause, hplan⟩) (by decide +kernel)
  | ok p =>
      obtain ⟨hkept, -, hlength⟩ := hkeeps p hplan
      refine ⟨p, rfl, hkept, (hlength (by decide) (by decide) (by decide)).trans ?_⟩
      decide +kernel

end

end Montage
