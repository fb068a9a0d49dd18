import Mathlib.Tactic
import Montage.Proofs.Outcome
import Montage.Proofs.Segment.Reading
import Montage.Render.Command

/-!
# Linked filter graphs

A graph is linked if every label inside it is produced once and consumed once, the sources are read
once, and what is left over is what the renderer is told to write. The labels of a plan are words
with the numbers of spans, so they are all different, and every loop that writes labels can be
compared with the list of all of them.

## Main definitions

* `producedLabels`, `consumedLabels`: the labels after and before the filters of a graph.
* `IsLinked`: the graphs in which every label has one producer and one consumer.
* `JoinsSpans`: the graphs that trim each span and join the results in order.
* `readOptions`: the options of a command with their values.

## Main statements

* `isLinked_elements`, `joinsSpans_elements`: the graph of a plan.
* `isLinked_graph`: the graph as it is read from its text, and the command that it is part of.
-/
namespace Montage

/-- The labels that the elements produce. -/
def producedLabels (es : List GraphElement) : List String := es.flatMap GraphElement.outputs

/-- The labels that the elements consume. -/
def consumedLabels (es : List GraphElement) : List String := es.flatMap GraphElement.inputs

/-- The graph reads the picture once and the sound once, or not at all, and produces just what is
selected as a result. Any other label is produced once and consumed once. -/
structure IsLinked (es : List GraphElement) (audio : Bool) : Prop where
  internal : ∀ l ∈ producedLabels es ++ consumedLabels es, l ∉ ["0:v", "0:a"] →
    GraphElement.labelText l ∉ outputMaps audio →
      (producedLabels es).count l = 1 ∧ (consumedLabels es).count l = 1
  picture : (consumedLabels es).count "0:v" = 1
  sound : (consumedLabels es).count "0:a" = if audio then 1 else 0
  results : ∀ l, l ∈ producedLabels es ∧ l ∉ consumedLabels es ↔
    GraphElement.labelText l ∈ outputMaps audio

/-- The label carries a copy of the source that went through the stages. -/
def Carries (es : List GraphElement) (source copying : String) (stages : List Stage)
    (label : String) : Prop :=
  ∃ copies copy, ⟨[source], copying, copies⟩ ∈ es ∧ copy ∈ copies ∧
    ⟨[copy], chainText stages, [label]⟩ ∈ es

/-- The labels carry the picture of the span and, after it, its sound. -/
def CarriesSpan (es : List GraphElement) (audio : Bool) (count : Nat) (labels : List String)
    (s : Span Number) : Prop :=
  ∃ v, Carries es "0:v" ("split=" ++ digitText count) s.videoStages v ∧
    if audio then
      ∃ a, Carries es "0:a" ("asplit=" ++ digitText count) s.audioStages a ∧ labels = [v, a]
    else labels = [v]

/-- The graph joins the spans in order. -/
def JoinsSpans (es : List GraphElement) (audio : Bool) (spans : List (Span Number)) : Prop :=
  ∃ join ∈ es, join.filter = "concat=n=" ++ digitText spans.length ++ ":v=1:a=" ++
      (if audio then "1" else "0") ∧
    ∃ labels, join.inputs = labels.flatten ∧
      List.Forall₂ (CarriesSpan es audio spans.length) labels spans

/-! ## Labels with numbers -/

/-- A word without digits. -/
def IsWord (s : String) : Prop := ∀ c ∈ s.toList, c.isDigit = false

instance (s : String) : Decidable (IsWord s) := List.decidableBAll _ s.toList

theorem toList_numbered {w : String} {n : Nat} :
    (numbered w n).toList = w.toList ++ Nat.toDigits 10 n := by
  simp [numbered, digitText]

/-- The word and the number of a label can be told apart. -/
theorem numbered_inj {w w' : String} {n n' : Nat} (hw : IsWord w) (hw' : IsWord w')
    (h : numbered w n = numbered w' n') : w = w' ∧ n = n' := by
  have hword : ∀ {w n}, IsWord w → (numbered w n).toList.takeWhile (!·.isDigit) = w.toList := by
    intro w n hw
    have hletters : ∀ c ∈ w.toList, (!c.isDigit) = true := by
      intro c hc
      simp [hw c hc]
    have hdigits : (Nat.toDigits 10 n).takeWhile (!·.isDigit) = [] := by
      refine List.takeWhile_eq_nil_iff.mpr fun hlength => ?_
      simpa using Nat.isDigit_of_mem_toDigits (by decide) (by decide) (List.getElem_mem hlength)
    rw [toList_numbered, List.takeWhile_append_of_pos hletters, hdigits, List.append_nil]
  have hheq : w = w' := by
    rw [← String.toList_inj, ← hword hw, h, hword hw']
  subst hheq
  have hdigits : Nat.toDigits 10 n = Nat.toDigits 10 n' := by
    have hlist := congrArg String.toList h
    rw [toList_numbered, toList_numbered] at hlist
    exact List.append_cancel_left hlist
  refine ⟨rfl, ?_⟩
  rw [← Nat.ofDigitChars_ten_toDigits (n := n), hdigits, Nat.ofDigitChars_ten_toDigits]

/-- A label with a number ends in a digit. -/
theorem exists_isDigit_getLast? {w : String} {n : Nat} :
    ∃ c ∈ (numbered w n).toList.getLast?, c.isDigit = true := by
  have hne : Nat.toDigits 10 n ≠ [] := Nat.toDigits_ne_nil
  refine ⟨(Nat.toDigits 10 n).getLast hne, ?_, ?_⟩
  · rw [toList_numbered, List.getLast?_append_of_ne_nil _ hne, List.getLast?_eq_some_getLast hne]
    rfl
  · exact Nat.isDigit_of_mem_toDigits (by decide) (by decide) (List.getLast_mem hne)

theorem numbered_ne {w s : String} {n : Nat} (hs : s.toList.getLast?.any Char.isDigit = false) :
    numbered w n ≠ s := by
  rintro rfl
  obtain ⟨c, hc, hdigit⟩ := exists_isDigit_getLast? (w := w) (n := n)
  rw [Option.mem_def] at hc
  rw [hc] at hs
  simp [hdigit] at hs

/-! ## All labels of a plan -/

/-- The words of the labels between the sources and the results. -/
def padWords (audio : Bool) : List String := "vin" :: "v" :: if audio then ["ain", "a"] else []

/-- The labels between the sources and the results of a plan with so many spans. -/
def padLabels (audio : Bool) (count : Nat) : List String :=
  (padWords audio).flatMap fun w => (List.range count).map (numbered w)

/-- The sources of a plan. -/
def sourceLabels (audio : Bool) : List String := "0:v" :: if audio then ["0:a"] else []

/-- The results of a plan. -/
def resultLabels (audio : Bool) : List String := "outv" :: if audio then ["outa"] else []

variable {audio : Bool}

theorem labelText_mem_outputMaps {l : String} :
    GraphElement.labelText l ∈ outputMaps audio ↔ l ∈ resultLabels audio := by
  have hinj : ∀ l', GraphElement.labelText l = GraphElement.labelText l' ↔ l = l' := by
    intro l'
    rw [← String.toList_inj, GraphElement.toList_labelText, GraphElement.toList_labelText,
      List.cons_inj_right, List.append_cancel_right_eq, String.toList_inj]
  have hmap : GraphElement.labelText l ≠ "-map" := by
    intro h
    have hhead := congrArg (·.toList.head?) h
    simp [GraphElement.toList_labelText] at hhead
  have hv : ("[outv]" : String) = GraphElement.labelText "outv" := by decide
  have ha : ("[outa]" : String) = GraphElement.labelText "outa" := by decide
  cases audio <;> simp [outputMaps, resultLabels, hmap, hv, ha, hinj]

theorem isWord_of_mem_padWords : ∀ w ∈ padWords audio, IsWord w := by
  cases audio <;> decide

theorem notMem_padLabels {l : String} {count : Nat}
    (hl : l.toList.getLast?.any Char.isDigit = false) : l ∉ padLabels audio count := by
  intro hmem
  obtain ⟨w, -, hmem⟩ := List.mem_flatMap.mp hmem
  obtain ⟨i, -, hi⟩ := List.mem_map.mp hmem
  exact numbered_ne hl hi

theorem nodup_padLabels {count : Nat} : (padLabels audio count).Nodup := by
  have hwords : (padWords audio).Nodup := by
    cases audio <;> decide
  have hproduct : padLabels audio count =
      (padWords audio ×ˢ List.range count).map fun p => numbered p.1 p.2 := by
    simp [padLabels, SProd.sprod, List.product, List.map_flatMap, Function.comp_def]
  rw [hproduct]
  refine List.Nodup.map_on ?_ (hwords.product List.nodup_range)
  rintro ⟨w, i⟩ hp ⟨w', i'⟩ hp' heq
  have hw : IsWord w := isWord_of_mem_padWords w (List.mem_product.mp hp).1
  have hw' : IsWord w' := isWord_of_mem_padWords w' (List.mem_product.mp hp').1
  obtain ⟨rfl, rfl⟩ := numbered_inj hw hw' heq
  rfl

/-! ## Graphs whose labels are known -/

section

variable {es : List GraphElement}

/-- A graph is linked if its labels are the sources, the results and others, all different, of which
the others are produced and consumed. -/
theorem isLinked_of_perm (pads : List String)
    (hproduced : (producedLabels es).Perm (pads ++ resultLabels audio))
    (hconsumed : (consumedLabels es).Perm (sourceLabels audio ++ pads)) (hpads : pads.Nodup)
    (hends : ∀ l ∈ ["0:v", "0:a", "outv", "outa"], l ∉ pads) : IsLinked es audio := by
  have hsources : ∀ l ∈ sourceLabels audio, l ∈ ["0:v", "0:a"] := by
    cases audio <;> decide
  have hresults : ∀ l ∈ resultLabels audio, l ∉ sourceLabels audio ∧ l ∉ pads := by
    intro l hl
    refine ⟨by revert l; cases audio <;> decide, hends l ?_⟩
    revert l
    cases audio <;> decide
  refine ⟨fun l hl hsource hresult => ?_, ?_, ?_, fun l => ?_⟩
  · rw [labelText_mem_outputMaps] at hresult
    have hsource : l ∉ sourceLabels audio := fun hmem => hsource (hsources l hmem)
    have hpad : l ∈ pads := by
      rw [List.mem_append, hproduced.mem_iff, hconsumed.mem_iff, List.mem_append,
        List.mem_append] at hl
      tauto
    have hone : pads.count l = 1 := List.count_eq_one_of_mem hpads hpad
    rw [hproduced.count_eq, hconsumed.count_eq, List.count_append, List.count_append, hone,
      List.count_eq_zero.mpr hsource, List.count_eq_zero.mpr hresult]
    exact ⟨rfl, rfl⟩
  · rw [hconsumed.count_eq, List.count_append, List.count_eq_zero.mpr (hends _ (by simp))]
    cases audio <;> rfl
  · rw [hconsumed.count_eq, List.count_append, List.count_eq_zero.mpr (hends _ (by simp))]
    cases audio <;> rfl
  · rw [labelText_mem_outputMaps, hproduced.mem_iff, hconsumed.mem_iff, List.mem_append,
      List.mem_append]
    constructor
    · rintro ⟨hpad | hresult, hnone⟩
      · exact absurd (.inr hpad) hnone
      · exact hresult
    · intro hresult
      obtain ⟨hsource, hpad⟩ := hresults l hresult
      exact ⟨.inr hresult, fun h => h.elim hsource hpad⟩

end

/-! ## The graph of a plan -/

namespace SegmentPlan

variable {p : SegmentPlan Number}

theorem producedLabels_spansElements {ss : List (Span Number)} :
    producedLabels (spansElements audio 0 ss) =
      (List.range ss.length).flatMap (joinInputs audio) := by
  have hspan : ∀ i s, (spanElements audio i s).flatMap GraphElement.outputs =
      joinInputs audio i := by
    intro i s
    cases audio <;> rfl
  rw [producedLabels, spansElements_eq, List.flatMap_assoc, List.range_eq_range',
    ← List.zipIdx_map_snd, List.flatMap_map]
  simp only [hspan]

/-- The copies that the spans are made from. -/
def copyLabels (audio : Bool) (i : Nat) : List String :=
  numbered "vin" i :: if audio then [numbered "ain" i] else []

theorem consumedLabels_spansElements {ss : List (Span Number)} :
    consumedLabels (spansElements audio 0 ss) =
      (List.range ss.length).flatMap (copyLabels audio) := by
  have hspan : ∀ i s, (spanElements audio i s).flatMap GraphElement.inputs =
      copyLabels audio i := by
    intro i s
    cases audio <;> rfl
  rw [consumedLabels, spansElements_eq, List.flatMap_assoc, List.range_eq_range',
    ← List.zipIdx_map_snd, List.flatMap_map]
  simp only [hspan]

/-- The labels of the spans, taken span by span, are those of pictures and those of sounds. -/
theorem perm_flatMap (w w' : String) (count : Nat) :
    ((List.range count).flatMap fun i => numbered w i :: if audio then [numbered w' i] else []).Perm
      ((List.range count).map (numbered w) ++
        if audio then (List.range count).map (numbered w') else []) := by
  refine (List.map_append_flatMap_perm _ _ _).symm.trans ?_
  cases audio
  · have hnil : ((List.range count).flatMap fun _ => ([] : List String)) = [] :=
      List.flatMap_eq_nil_iff.mpr fun _ _ => rfl
    simp [hnil]
  · simp [List.map_eq_flatMap]

/-- What the graph of several spans produces: the copies, the trimmed spans, and the results. -/
theorem producedLabels_elements (h : 2 ≤ p.spans.length) :
    producedLabels (p.elements audio) = (List.range p.spans.length).map (numbered "vin") ++
      (if audio then (List.range p.spans.length).map (numbered "ain") else []) ++
      (List.range p.spans.length).flatMap (joinInputs audio) ++ resultLabels audio := by
  obtain ⟨spans, source, removed⟩ := p
  match spans, h with
  | first :: second :: rest, _ =>
      rw [← producedLabels_spansElements]
      cases audio <;>
        simp [elements, producedLabels, splitElement, joinElement, resultLabels]

/-- What it consumes: the sources, the copies, and the trimmed spans. -/
theorem consumedLabels_elements (h : 2 ≤ p.spans.length) :
    consumedLabels (p.elements audio) = sourceLabels audio ++
      (List.range p.spans.length).flatMap (copyLabels audio) ++
      (List.range p.spans.length).flatMap (joinInputs audio) := by
  obtain ⟨spans, source, removed⟩ := p
  match spans, h with
  | first :: second :: rest, _ =>
      rw [← consumedLabels_spansElements]
      cases audio <;>
        simp [elements, consumedLabels, splitElement, joinElement, sourceLabels]

/-- **The graph of a plan is linked.** -/
theorem isLinked_elements (h : p.spans ≠ []) : IsLinked (p.elements audio) audio := by
  by_cases hlength : 2 ≤ p.spans.length
  · have hcopies : ((List.range p.spans.length).flatMap (copyLabels audio)).Perm
        ((List.range p.spans.length).map (numbered "vin") ++
          if audio then (List.range p.spans.length).map (numbered "ain") else []) :=
      perm_flatMap "vin" "ain" p.spans.length
    have hjoined : ((List.range p.spans.length).flatMap (joinInputs audio)).Perm
        ((List.range p.spans.length).map (numbered "v") ++
          if audio then (List.range p.spans.length).map (numbered "a") else []) :=
      perm_flatMap "v" "a" p.spans.length
    refine isLinked_of_perm (padLabels audio p.spans.length) ?_ ?_ nodup_padLabels ?_
    · rw [producedLabels_elements hlength, List.perm_iff_count]
      intro l
      have hl := hjoined.count_eq l
      cases audio <;> simp [padLabels, padWords] at hl ⊢ <;> omega
    · rw [consumedLabels_elements hlength, List.perm_iff_count]
      intro l
      have hl := hjoined.count_eq l
      have hl' := hcopies.count_eq l
      cases audio <;> simp [padLabels, padWords] at hl hl' ⊢ <;> omega
    · have hends : ∀ l ∈ ["0:v", "0:a", "outv", "outa"],
          l.toList.getLast?.any Char.isDigit = false := by decide
      exact fun l hl => notMem_padLabels (hends l hl)
  · obtain ⟨spans, source, removed⟩ := p
    match spans, h, hlength with
    | [s], _, _ =>
        refine isLinked_of_perm [] ?_ ?_ List.nodup_nil (fun _ _ => List.not_mem_nil)
        · cases audio <;> exact .refl _
        · cases audio <;> exact .refl _
    | _ :: _ :: _, _, hlength => exact absurd (Nat.le_add_left 2 _) hlength

/-- The graph of several spans. -/
theorem elements_eq (h : 2 ≤ p.spans.length) :
    p.elements audio = splitElement "0:v" "split" "vin" p.spans.length ::
      ((if audio then [splitElement "0:a" "asplit" "ain" p.spans.length] else []) ++
        spansElements audio 0 p.spans ++ [joinElement audio p.spans.length]) := by
  obtain ⟨spans, source, removed⟩ := p
  match spans, h with
  | first :: second :: rest, _ => rfl

theorem mem_elements_of_mem_spanElements (h : 2 ≤ p.spans.length) {i : Nat}
    (hi : i < p.spans.length) {e : GraphElement} (he : e ∈ spanElements audio i p.spans[i]) :
    e ∈ p.elements audio := by
  have hspan : e ∈ spansElements audio 0 p.spans := by
    rw [spansElements_eq]
    exact List.mem_flatMap.mpr ⟨(p.spans[i], i), List.mk_mem_zipIdx_iff_getElem?.mpr
      (List.getElem?_eq_getElem hi), he⟩
  rw [elements_eq h]
  exact List.mem_cons_of_mem _ (List.mem_append_left _ (List.mem_append_right _ hspan))

/-- **The graph of several spans joins them in order**, each of them trimmed. -/
theorem joinsSpans_elements (h : 2 ≤ p.spans.length) :
    JoinsSpans (p.elements audio) audio p.spans := by
  have hcopy : ∀ {w i}, i < p.spans.length →
      numbered w i ∈ (List.range p.spans.length).map (numbered w) :=
    fun hi => List.mem_map_of_mem (List.mem_range.mpr hi)
  refine ⟨joinElement audio p.spans.length, ?_, rfl,
    (List.range p.spans.length).map (joinInputs audio), rfl, ?_⟩
  · simp [elements_eq h]
  · refine List.forall₂_iff_get.mpr ⟨by simp, fun i hi hi' => ?_⟩
    simp only [List.get_eq_getElem, List.getElem_map, List.getElem_range]
    have hmem : ∀ e ∈ spanElements audio i p.spans[i], e ∈ p.elements audio :=
      fun e => mem_elements_of_mem_spanElements h hi'
    refine ⟨numbered "v" i, ⟨_, _, ?_, hcopy hi', hmem _ List.mem_cons_self⟩, ?_⟩
    · rw [elements_eq h]
      exact List.mem_cons_self
    · cases audio with
      | false => rfl
      | true =>
          refine ⟨numbered "a" i, ⟨_, numbered "ain" i, ?_, hcopy hi', hmem _ ?_⟩, rfl⟩
          · simp [elements_eq h, splitElement]
          · simp [spanElements]

end SegmentPlan

/-! ## The command -/

/-- The options of a command with their values. The flags have no value, and a word at the end that
has none names the output. -/
def readOptions : List Value → List (String × Value)
  | .string word :: rest =>
    if word ∈ ["-y", "-hide_banner"] then readOptions rest
    else match rest with
      | v :: rest => (word, v) :: readOptions rest
      | [] => []
  | _ => []

/-- The command has one graph, and every result that it selects is produced by the graph and
consumed nowhere in it. -/
def SelectsResults (command : Command) : Prop :=
  ∃ graph, (∀ v, ("-filter_complex", v) ∈ readOptions command.tail ↔ v = .string graph) ∧
    ∀ v, ("-map", v) ∈ readOptions command.tail →
      ∃ l ∈ producedLabels (readGraph graph), l ∉ consumedLabels (readGraph graph) ∧
        v = .string (GraphElement.labelText l)

/-- The options that select the results. -/
def mapOptions (audio : Bool) : List (String × Value) :=
  (resultLabels audio).map fun l => ("-map", .string (GraphElement.labelText l))

section

variable {s : Settings} {input output : String} {p : SegmentPlan Number} {resource : Resource}
  {hasAudio : Bool} {command : Command}

/-- The options of the command that applies a plan: its graph and the selected results stand among
options of other names. -/
theorem readOptions_renderCommand
    (h : renderCommand s input output (.plan p) resource hasAudio = .ok command) :
    ∃ graph before after, p.graph (hasAudio && resource ≠ .image) = .ok graph ∧
      readOptions command.tail = before ++ ("-filter_complex", .string graph) ::
        (mapOptions (hasAudio && resource ≠ .image) ++ after) ∧
      ∀ o ∈ before ++ after, o.1 ∉ ["-filter_complex", "-map"] := by
  obtain ⟨options, hoptions, h⟩ := Outcome.bind_eq_ok.mp h
  obtain ⟨graph, hgraph, hoptions⟩ := Outcome.bind_eq_ok.mp hoptions
  rw [← Except.ok.inj hoptions] at h
  rw [← Except.ok.inj h]
  by_cases himage : resource = .image
  · subst himage
    refine ⟨graph, [("-loop", .string "1"),
      ("-t", .string (s.renderValue "image_duration" (.int 1)).text), ("-i", .string input)],
      [("-frames:v", .string "1")], by simpa using hgraph, ?_, by simp⟩
    simp [readOptions, outputMaps, mapOptions, resultLabels, GraphElement.labelText]
  · refine ⟨graph, [("-i", .string input)],
      [("-c:v", s.renderValue "video_codec" (.string "libx264")),
        ("-preset", .string (s.renderValue "preset" (.string "medium")).text),
        ("-crf", .string (s.renderValue "crf" (.int 23)).text)] ++
      if hasAudio then [("-c:a", s.renderValue "audio_codec" (.string "aac"))] else [],
      by simpa using hgraph, ?_, ?_⟩
    · cases hasAudio <;>
        simp [readOptions, outputMaps, mapOptions, resultLabels, GraphElement.labelText, himage,
          Settings.encoding]
    · cases hasAudio <;> simp

/-- The graph of a plan is written if all its times can be. -/
theorem SegmentPlan.graph_eq_ok_iff {audio : Bool} {text : String} (hspans : p.spans ≠ []) :
    p.graph audio = .ok text ↔
      (∀ span ∈ p.spans, span.isWritable = true) ∧ text = p.graphText audio := by
  have hempty : p.spans.isEmpty = false := by simpa using hspans
  rw [graph, hempty]
  by_cases hall : p.spans.all Span.isWritable = true
  · have hspan : ∀ span ∈ p.spans, span.isWritable = true := List.all_eq_true.mp hall
    simp only [hall, Bool.false_eq_true, if_false, if_true, Except.ok.injEq]
    exact ⟨fun h => ⟨hspan, h.symm⟩, fun h => h.2.symm⟩
  · have hnot : ¬∀ span ∈ p.spans, span.isWritable = true := by rwa [← List.all_eq_true]
    simp only [hall, Bool.false_eq_true, if_false]
    exact ⟨nofun, fun h => absurd h.1 hnot⟩

theorem selectsResults_renderCommand (hspans : p.spans ≠ [])
    (h : renderCommand s input output (.plan p) resource hasAudio = .ok command) :
    SelectsResults command := by
  obtain ⟨graph, before, after, hgraph, hoptions, hothers⟩ := readOptions_renderCommand h
  generalize (hasAudio && resource ≠ .image) = audio at hgraph hoptions
  have hother : ∀ key ∈ ["-filter_complex", "-map"], ∀ v, (key, v) ∉ before ∧ (key, v) ∉ after := by
    intro key hkey v
    rw [← not_or, ← List.mem_append]
    exact fun hmem => hothers _ hmem hkey
  rw [SelectsResults, hoptions]
  refine ⟨graph, fun v => ?_, fun v hv => ?_⟩
  · have hnone := hother "-filter_complex" (by simp) v
    simp [hnone, mapOptions]
  · have hnone := hother "-map" (by simp) v
    have hmap : ("-map", v) ∈ mapOptions audio := by simpa [hnone] using hv
    obtain ⟨l, hl, hoption⟩ := List.mem_map.mp hmap
    have hlinked : IsLinked (p.elements audio) audio := SegmentPlan.isLinked_elements hspans
    obtain ⟨hproduced, hconsumed⟩ := (hlinked.results l).mpr (labelText_mem_outputMaps.mpr hl)
    obtain ⟨-, rfl⟩ := (SegmentPlan.graph_eq_ok_iff hspans).mp hgraph
    rw [SegmentPlan.readGraph_graphText hspans]
    exact ⟨l, hproduced, hconsumed, (Prod.mk.inj hoption).2.symm⟩

end

end Montage
