import Mathlib.Data.List.TakeWhile
import Mathlib.Tactic
import Montage.Proofs.Filter.Escaping
import Montage.Proofs.Number.Spelling
import Montage.Segment.Graph

/-!
# Reading filter graphs back

A graph is read in two steps. The text is cut at its semicolons, and each element has labels in
brackets before its filters and after them. The graph of a plan is read back as it was written,
since no time of a span and no label has a character that separates anything.

## Main definitions

* `readGraph`: the elements that a reader finds in a text.
* `GraphElement.IsPlain`: the elements that can be read back.

## Main statements

* `readGraph_graphText`: the graph of a plan is read back.
-/
namespace Montage

namespace GraphElement

/-- The labels at the beginning of a text, and what follows them. -/
def readLabels : List Char → List String × List Char
  | '[' :: cs =>
    let (labels, rest) := readLabels ((cs.dropWhile (· ≠ ']')).drop 1)
    (String.ofList (cs.takeWhile (· ≠ ']')) :: labels, rest)
  | cs => ([], cs)
termination_by cs => cs.length
decreasing_by
  have hle := (List.dropWhile_suffix (p := fun c => decide (c ≠ ']')) (l := cs)).length_le
  simp only [List.length_drop, List.length_cons]
  omega

/-- The element that a reader finds in a text: labels, then filters up to the next label, then the
labels after them. -/
def read (cs : List Char) : GraphElement :=
  let (inputs, rest) := readLabels cs
  ⟨inputs, String.ofList (rest.takeWhile (· ≠ '[')), (readLabels (rest.dropWhile (· ≠ '['))).1⟩

/-- No label of the element ends early, it has filters and these have no label, and nothing in it
ends the element. -/
structure IsPlain (e : GraphElement) : Prop where
  filter_ne : e.filter ≠ ""
  label_plain : ∀ l ∈ e.inputs ++ e.outputs, ∀ c ∈ l.toList, c ∉ [']', ';']
  filter_plain : ∀ c ∈ e.filter.toList, c ∉ ['[', ';']

end GraphElement

/-- The elements that a reader finds in a graph. -/
def readGraph (s : String) : List GraphElement := (s.toList.splitOn ';').map GraphElement.read

namespace GraphElement

variable {e : GraphElement} {labels : List String} {rest : List Char}

/-! ## One element -/

section

variable {sep : Char} {a b : List Char}

theorem takeWhile_ne (h : sep ∉ a) : (a ++ sep :: b).takeWhile (· ≠ sep) = a := by
  have hne : ∀ c ∈ a, decide (c ≠ sep) = true := by
    intro c hc
    simpa using ne_of_mem_of_not_mem hc h
  rw [List.takeWhile_append_of_pos hne]
  simp

theorem dropWhile_ne (h : sep ∉ a) : (a ++ sep :: b).dropWhile (· ≠ sep) = sep :: b := by
  have hne : ∀ c ∈ a, decide (c ≠ sep) = true := by
    intro c hc
    simpa using ne_of_mem_of_not_mem hc h
  rw [List.dropWhile_append_of_pos hne]
  simp

end

theorem toList_join (ss : List String) :
    ("".intercalate ss).toList = ss.flatMap String.toList := by
  induction ss with
  | nil => rfl
  | cons s ss ih => cases ss <;> simp_all

theorem toList_labelText {l : String} : (labelText l).toList = '[' :: (l.toList ++ [']']) := by
  simp [labelText]

theorem readLabels_of_head? (h : rest.head? ≠ some '[') : readLabels rest = ([], rest) := by
  rw [readLabels]
  rintro cs rfl
  exact h rfl

/-- Labels are read back as they were written. -/
theorem readLabels_append (hlabels : ∀ l ∈ labels, ']' ∉ l.toList)
    (hrest : rest.head? ≠ some '[') :
    readLabels ((labels.map labelText).flatMap String.toList ++ rest) = (labels, rest) := by
  induction labels with
  | nil => exact readLabels_of_head? hrest
  | cons l labels ih =>
      obtain ⟨hl, hlabels⟩ := List.forall_mem_cons.mp hlabels
      have htext : ((l :: labels).map labelText).flatMap String.toList ++ rest =
          '[' :: (l.toList ++ ']' :: ((labels.map labelText).flatMap String.toList ++ rest)) := by
        simp [toList_labelText]
      rw [htext, readLabels, takeWhile_ne hl, dropWhile_ne hl, List.drop_one, List.tail_cons,
        ih hlabels, String.ofList_toList]

/-- A plain element is read back as it was written. -/
theorem IsPlain.read_text (h : e.IsPlain) : read e.text.toList = e := by
  obtain ⟨inputs, filter, outputs⟩ := e
  have hinputs : ∀ l ∈ inputs, ']' ∉ l.toList := fun l hl hmem =>
    h.label_plain l (List.mem_append_left _ hl) _ hmem (by simp)
  have houtputs : ∀ l ∈ outputs, ']' ∉ l.toList := fun l hl hmem =>
    h.label_plain l (List.mem_append_right _ hl) _ hmem (by simp)
  have hfilter : '[' ∉ filter.toList := fun hmem => h.filter_plain _ hmem (by simp)
  have htext : (text ⟨inputs, filter, outputs⟩).toList =
      (inputs.map labelText).flatMap String.toList ++
        (filter.toList ++ (outputs.map labelText).flatMap String.toList) := by
    simp [text, toList_join, -String.toList_intercalate]
  have hhead : (filter.toList ++ (outputs.map labelText).flatMap String.toList).head? ≠
      some '[' := by
    have hne : filter.toList ≠ [] := by simpa using h.filter_ne
    rw [List.head?_append_of_ne_nil _ hne]
    exact fun hhead => hfilter (List.mem_of_mem_head? hhead)
  have hlabels : readLabels ((outputs.map labelText).flatMap String.toList) = (outputs, []) := by
    have hnil : ([] : List Char).head? ≠ some '[' := nofun
    have hread := readLabels_append houtputs hnil
    simpa using hread
  rw [read, htext, readLabels_append hinputs hhead]
  cases outputs with
  | nil =>
      have hplain : ∀ c ∈ filter.toList, decide (c ≠ '[') = true := by
        intro c hc
        simpa using ne_of_mem_of_not_mem hc hfilter
      have hnil : readLabels [] = ([], []) := readLabels_of_head? nofun
      simp only [List.map_nil, List.flatMap_nil, List.append_nil,
        List.takeWhile_eq_self_iff.mpr hplain, List.dropWhile_eq_nil_iff.mpr hplain, hnil,
        String.ofList_toList]
  | cons l outputs =>
      have hcons : ((l :: outputs).map labelText).flatMap String.toList =
          '[' :: (l.toList ++ ']' :: (outputs.map labelText).flatMap String.toList) := by
        simp [toList_labelText]
      rw [hcons] at hlabels ⊢
      dsimp only
      rw [takeWhile_ne hfilter, dropWhile_ne hfilter, hlabels, String.ofList_toList]

theorem IsPlain.notMem_text (h : e.IsPlain) : ';' ∉ e.text.toList := by
  have hlabel : ∀ l ∈ e.inputs ++ e.outputs, ';' ∉ (labelText l).toList := by
    intro l hl hmem
    rw [toList_labelText] at hmem
    simp only [List.mem_cons, List.mem_append, List.not_mem_nil, or_false] at hmem
    rcases hmem with hmem | hmem | hmem
    · cases hmem
    · exact h.label_plain l hl _ hmem (by simp)
    · cases hmem
  have hfilter : ';' ∉ e.filter.toList := fun hmem => h.filter_plain _ hmem (by simp)
  simp only [text, String.toList_append, toList_join, List.mem_append, List.mem_flatMap,
    List.mem_map, not_or, not_exists, not_and]
  refine ⟨⟨?_, hfilter⟩, ?_⟩
  · rintro _ ⟨l, hl, rfl⟩
    exact hlabel l (List.mem_append_left _ hl)
  · rintro _ ⟨l, hl, rfl⟩
    exact hlabel l (List.mem_append_right _ hl)

end GraphElement

/-- Plain elements that are joined by semicolons are read back. -/
theorem readGraph_intercalate {es : List GraphElement} (hne : es ≠ []) (h : ∀ e ∈ es, e.IsPlain) :
    readGraph (";".intercalate (es.map GraphElement.text)) = es := by
  have htext : (";".intercalate (es.map GraphElement.text)).toList =
      [';'].intercalate (es.map fun e => e.text.toList) := by
    simp [String.toList_intercalate, Function.comp_def]
  have hsplit : ([';'].intercalate (es.map fun e => e.text.toList)).splitOn ';' =
      es.map fun e => e.text.toList := by
    refine List.splitOn_intercalate _ ?_ (by simpa using hne)
    intro cs hcs
    obtain ⟨e, he, rfl⟩ := List.mem_map.mp hcs
    exact (h e he).notMem_text
  rw [readGraph, htext, hsplit, List.map_map]
  calc es.map (GraphElement.read ∘ fun e => e.text.toList)
      = es.map id := List.map_congr_left fun e he => (h e he).read_text
    _ = es := List.map_id es

/-! ## Plans -/

/-- The text has none of the characters that separate the parts of a graph. -/
def IsUnlinked (s : String) : Prop := ∀ c ∈ s.toList, c ∉ ['[', ']', ';']

instance (s : String) : Decidable (IsUnlinked s) := List.decidableBAll _ s.toList

@[simp] theorem isUnlinked_append {s t : String} :
    IsUnlinked (s ++ t) ↔ IsUnlinked s ∧ IsUnlinked t := by
  simp only [IsUnlinked, String.toList_append, List.mem_append, or_imp, forall_and]

theorem IsNumeral.isUnlinked {s : String} (h : IsNumeral s) : IsUnlinked s := by
  intro c hc hmem
  have hnumeral := h c hc
  fin_cases hmem <;> simp [numeralChar] at hnumeral

theorem isUnlinked_numbered {label : String} {n : Nat} (h : IsUnlinked label) :
    IsUnlinked (numbered label n) :=
  isUnlinked_append.mpr ⟨h, (isNumeral_digitText n).isUnlinked⟩

/-- How the stages that trim to a span are written. -/
theorem chainText_trimming {s : Span Number} {trim setpts : String} :
    chainText (s.trimming trim setpts) = trim ++ ("=start=" ++ realText s.start.toReal ++
      ((s.finish.map fun e => ":end=" ++ realText e.toReal).getD "" ++
        ("," ++ setpts ++ "=PTS-STARTPTS"))) := by
  have hsetpts : (OptionValue.string "PTS-STARTPTS").text = "PTS-STARTPTS" := by decide
  have hreal : ∀ x : Binary64, (OptionValue.real x).text = realText x := fun _ => rfl
  rw [← String.toList_inj]
  obtain ⟨start, finish⟩ := s
  cases finish <;>
    simp [Span.trimming, chainText, Stage.text, Stage.parts, Stage.of, Stage.ofArgs, hsetpts, hreal]

theorem isUnlinked_trimming {s : Span Number} {trim setpts : String} (htrim : IsUnlinked trim)
    (hsetpts : IsUnlinked setpts) : IsUnlinked (chainText (s.trimming trim setpts)) := by
  have hreal : ∀ x : Binary64, IsUnlinked (realText x) := fun x => (isNumeral_realText x).isUnlinked
  have hlimit : IsUnlinked ((s.finish.map fun e => ":end=" ++ realText e.toReal).getD "") := by
    cases s.finish with
    | none => decide
    | some e => exact isUnlinked_append.mpr ⟨by decide, hreal _⟩
  simp only [chainText_trimming, isUnlinked_append]
  exact ⟨htrim, ⟨by decide, hreal _⟩, hlimit, ⟨by decide, hsetpts⟩, by decide⟩

theorem GraphElement.isPlain_of {e : GraphElement}
    (hlabels : ∀ l ∈ e.inputs ++ e.outputs, IsUnlinked l) (hne : e.filter ≠ "")
    (hfilter : IsUnlinked e.filter) : e.IsPlain := by
  refine ⟨hne, fun l hl c hc hmem => hlabels l hl c hc ?_, fun c hc hmem => hfilter c hc ?_⟩
  · exact List.mem_cons_of_mem _ hmem
  · fin_cases hmem <;> simp

/-- An element that trims to a span. -/
theorem isPlain_trim {s : Span Number} {source trim setpts goal : String}
    (hsource : IsUnlinked source) (htrim : IsUnlinked trim) (hsetpts : IsUnlinked setpts)
    (hgoal : IsUnlinked goal) (hne : trim ≠ "") :
    GraphElement.IsPlain ⟨[source], chainText (s.trimming trim setpts), [goal]⟩ := by
  refine GraphElement.isPlain_of ?_ ?_ (isUnlinked_trimming htrim hsetpts)
  · simpa using ⟨hsource, hgoal⟩
  · simp [chainText_trimming, hne]

theorem isPlain_splitElement {source filter label : String} {count : Nat}
    (hsource : IsUnlinked source) (hfilter : IsUnlinked filter) (hlabel : IsUnlinked label) :
    (splitElement source filter label count).IsPlain := by
  refine GraphElement.isPlain_of ?_ (by simp [splitElement]) ?_
  · simpa [splitElement] using ⟨hsource, fun i _ => isUnlinked_numbered hlabel⟩
  · simp only [splitElement, isUnlinked_append]
    exact ⟨⟨hfilter, by decide⟩, (isNumeral_digitText count).isUnlinked⟩

namespace SegmentPlan

variable {p : SegmentPlan Number} {audio : Bool}

/-- The elements for the spans, each with its number. -/
theorem spansElements_eq {i : Nat} {ss : List (Span Number)} :
    spansElements audio i ss =
      (ss.zipIdx i).flatMap fun s => spanElements audio s.2 s.1 := by
  induction ss generalizing i with
  | nil => rfl
  | cons s ss ih => rw [spansElements, ih, List.zipIdx_cons, List.flatMap_cons]

theorem isPlain_spanElements {i : Nat} {s : Span Number} :
    ∀ e ∈ spanElements audio i s, e.IsPlain := by
  have hnumbered : ∀ {label}, IsUnlinked label → IsUnlinked (numbered label i) :=
    isUnlinked_numbered
  refine List.forall_mem_cons.mpr ⟨?_, ?_⟩
  · exact isPlain_trim (hnumbered (by decide)) (by decide) (by decide) (hnumbered (by decide))
      (by decide)
  · split_ifs
    · refine List.forall_mem_singleton.mpr ?_
      exact isPlain_trim (hnumbered (by decide)) (by decide) (by decide) (hnumbered (by decide))
        (by decide)
    · exact nofun

theorem isPlain_joinElement {count : Nat} : (joinElement audio count).IsPlain := by
  refine GraphElement.isPlain_of ?_ (by simp [joinElement]) ?_
  · simp only [joinElement, List.mem_append, List.mem_flatMap]
    rintro l (⟨i, -, hl⟩ | hl)
    · have hlabel : l ∈ [numbered "v" i, numbered "a" i] := by
        cases audio <;> simp_all [joinInputs]
      rcases List.mem_pair.mp hlabel with rfl | rfl <;> exact isUnlinked_numbered (by decide)
    · have hlabel : l ∈ ["outv", "outa"] := by
        cases audio <;> simp_all
      rcases List.mem_pair.mp hlabel with rfl | rfl <;> decide
  · simp only [joinElement, isUnlinked_append]
    exact ⟨⟨⟨by decide, (isNumeral_digitText count).isUnlinked⟩, by decide⟩,
      by cases audio <;> decide⟩

/-- Every element of a graph is plain. -/
theorem isPlain_elements : ∀ e ∈ p.elements audio, e.IsPlain := by
  obtain ⟨spans, source, removed⟩ := p
  match spans with
  | [] => exact nofun
  | [s] =>
      refine List.forall_mem_cons.mpr ⟨?_, ?_⟩
      · exact isPlain_trim (by decide) (by decide) (by decide) (by decide) (by decide)
      · split_ifs
        · refine List.forall_mem_singleton.mpr ?_
          exact isPlain_trim (by decide) (by decide) (by decide) (by decide) (by decide)
        · exact nofun
  | first :: second :: rest =>
      simp only [elements, List.forall_mem_cons, List.forall_mem_append]
      refine ⟨isPlain_splitElement (by decide) (by decide) (by decide), ⟨?_, ?_⟩, ?_⟩
      · split_ifs
        · exact List.forall_mem_singleton.mpr
            (isPlain_splitElement (by decide) (by decide) (by decide))
        · exact nofun
      · rw [spansElements_eq]
        intro e he
        obtain ⟨s, -, he⟩ := List.mem_flatMap.mp he
        exact isPlain_spanElements e he
      · exact ⟨isPlain_joinElement, nofun⟩

/-- **The graph of a plan is read back** as it was written. -/
theorem readGraph_graphText (h : p.spans ≠ []) :
    readGraph (p.graphText audio) = p.elements audio := by
  refine readGraph_intercalate ?_ isPlain_elements
  obtain ⟨spans, source, removed⟩ := p
  match spans with
  | [s] => exact List.cons_ne_nil _ _
  | first :: second :: rest => exact List.cons_ne_nil _ _

end SegmentPlan

end Montage
