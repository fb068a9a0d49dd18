import Montage.Proofs.Caption.Times

/-!
# Captions that last

A caption is kept if it ends after its start. Both times are then written in hundredths of a second,
so that a caption which is shorter than one of them may be written with an end that is its start.
The lines of a document end later than they start just if no kept caption does so.

## Main definitions

* `IsLasting`: the lines that end later than they start.

## Main statements

* `Cue.IsTimed.isLasting_line_iff`: when the line of a caption is lasting.
* `forall_isLasting_iff`: when all lines of a document that show captions are lasting.
-/
namespace Montage

/-- The line of a caption ends at a later time than it starts. -/
def IsLasting (line : List Char) : Prop :=
  ∃ start finish, (eventFields line)[1]? = some start ∧ (eventFields line)[2]? = some finish ∧
    Timestamp.IsLater start finish

variable {defaults : Fields} {cues : List Cue} {style : CaptionStyle} {c : Cue}
  {width height document line : String} {events : List String}

/-- **The line of a kept caption** is lasting just if its start and its end are not written alike. -/
theorem Cue.IsTimed.isLasting_line_iff (h : c.IsTimed) (hkept : c.IsKept)
    (hline : c.line = .ok line) : IsLasting line.toList ↔
      timestamp (.real c.start) ≠ timestamp (.real c.finish) := by
  obtain ⟨start, finish, hstart, hfinish, hfields⟩ := isEvent_of_line hline
  obtain ⟨v, hv⟩ := Option.isSome_iff_exists.mp h.start
  obtain ⟨w, hw⟩ := Option.isSome_iff_exists.mp h.finish
  have hlt : v < w := by
    have hvalue := (Number.lt_iff_value (m := .real c.start) (n := .real c.finish) h.start
      h.finish).mp hkept.1
    simpa [Number.value, Number.exact, hv, hw] using hvalue
  have hlasting : IsLasting line.toList ↔ Timestamp.IsLater start.toList finish.toList := by
    simp [IsLasting, hfields]
  rw [hlasting, isLater_timestamp_iff hv hw hlt.le hstart hfinish, hstart, hfinish]
  simp

/-- The lines of captions last just if no caption that is kept has a start and an end that are
written alike. -/
theorem forall_isLasting_lines_iff (htimed : ∀ c ∈ cues, c.IsTimed)
    (hevents : (shownCues cues).mapM Cue.line = .ok events) :
    (∀ line ∈ events, IsLasting line.toList) ↔
      ∀ c ∈ cues, c.IsKept → timestamp (.real c.start) ≠ timestamp (.real c.finish) := by
  obtain ⟨hline, hcue⟩ := Outcome.mem_of_mapM hevents
  constructor
  · intro h c hc hkept
    obtain ⟨line, hmem, hok⟩ := hcue c ((mem_shownCues_iff htimed).mpr ⟨hc, hkept⟩)
    exact ((htimed c hc).isLasting_line_iff hkept hok).mp (h line hmem)
  · intro h line hmem
    obtain ⟨c, hshown, hok⟩ := hline line hmem
    obtain ⟨hc, hkept⟩ := (mem_shownCues_iff htimed).mp hshown
    exact ((htimed c hc).isLasting_line_iff hkept hok).mpr (h c hc hkept)

/-- The lines of a document that show captions last just if those of its header and those of the
captions do. -/
theorem forall_isLasting_eventsOf_iff (hevents : (shownCues cues).mapM Cue.line = .ok events)
    (htext : document.toList =
      joinLines ((documentHeader width height style ++ events).map String.toList)) :
    (∀ line ∈ eventsOf document, IsLasting line) ↔
      (∀ line ∈ (documentHeader width height style).flatMap eventsOf, IsLasting line) ∧
        ∀ line ∈ events, IsLasting line.toList := by
  have hlines : ∀ line ∈ events, ∃ c : Cue, c.line = .ok line := fun line hline =>
    ((Outcome.mem_of_mapM hevents).1 line hline).imp fun _ h => h.2
  rw [eventsOf_document hlines htext, List.forall_mem_append, List.forall_mem_map]

/-- **All lines that show captions last** just if those of the header do, and no caption that is
kept has a start and an end that are written alike. -/
theorem forall_isLasting_iff (htimed : ∀ c ∈ cues, c.IsTimed)
    (hsize : pictureSize defaults = .ok (width, height))
    (hdocument : subtitleDocument defaults cues style = .ok document) :
    (∀ line ∈ eventsOf document, IsLasting line) ↔
      (∀ line ∈ (documentHeader width height style).flatMap eventsOf, IsLasting line) ∧
        ∀ c ∈ cues, c.IsKept → timestamp (.real c.start) ≠ timestamp (.real c.finish) := by
  obtain ⟨events, hevents, htext⟩ := (subtitleDocument_eq_ok_iff hsize).mp hdocument
  rw [forall_isLasting_eventsOf_iff hevents htext, forall_isLasting_lines_iff htimed hevents]

/-- The size of a picture of which nothing is set. -/
theorem pictureSize_nil : pictureSize [] = .ok ("1920", "1080") := by decide +kernel

/-- **Captions of which one is not kept** have lines that last. -/
theorem forall_isLasting_sampleCues :
    (∀ c ∈ sampleCues, c.IsTimed) ∧ pictureSize [] = .ok ("1920", "1080") ∧ ∃ document,
      subtitleDocument [] sampleCues .plain = .ok document ∧
        ∀ line ∈ eventsOf document, IsLasting line := by
  have htimed : ∀ c ∈ sampleCues, c.IsTimed := by
    have hfinite : ∀ c ∈ sampleCues, c.start.IsFinite ∧ c.finish.IsFinite := by decide +kernel
    exact fun c hc => ⟨(hfinite c hc).1, (hfinite c hc).2⟩
  have htimes : ∀ c ∈ sampleCues, c.HasTimes := by decide +kernel
  obtain ⟨document, hdocument⟩ := exists_subtitleDocument .plain pictureSize_nil fun c hc =>
    htimes c ((mem_shownCues_iff htimed).mp hc).1
  have hsides : '\n' ∉ "1920".toList ∧ '\n' ∉ "1080".toList := by decide
  have hheader := flatMap_eventsOf_documentHeader <|
    (forall_notMem_documentHeader_iff rfl CaptionStyle.isOneLine_plain).mpr hsides
  refine ⟨htimed, pictureSize_nil, document, hdocument,
    (forall_isLasting_iff htimed pictureSize_nil hdocument).mpr ⟨?_, by decide +kernel⟩⟩
  rw [hheader]
  exact nofun

/-- A caption that is over after four thousandths of a second. -/
def briefCue : Cue := ⟨"Hi", 0, .nearest (4 / 1000)⟩

/-- **A caption that is kept** can have a line that ends as it starts. -/
theorem not_forall_isLasting_briefCue :
    (∀ c ∈ [briefCue], c.IsTimed ∧ 0 ≤ c.start ∧ 0 ≤ c.finish) ∧ ∃ document,
      subtitleDocument [] [briefCue] .plain = .ok document ∧
        ¬∀ line ∈ eventsOf document, IsLasting line := by
  have hfinite : briefCue.start.IsFinite ∧ briefCue.finish.IsFinite := by decide +kernel
  have htimed : ∀ c ∈ [briefCue], c.IsTimed := by simpa using ⟨hfinite.1, hfinite.2⟩
  have hnonneg : 0 ≤ briefCue.start ∧ 0 ≤ briefCue.finish := by decide +kernel
  have hplaced : ∀ c ∈ shownCues [briefCue], c.HasTimes := by decide +kernel
  obtain ⟨document, hdocument⟩ := exists_subtitleDocument .plain pictureSize_nil hplaced
  refine ⟨fun c hc => ⟨htimed c hc, by simp_all⟩, document, hdocument, fun hlasting => ?_⟩
  obtain ⟨events, hevents, htext⟩ := (subtitleDocument_eq_ok_iff pictureSize_nil).mp hdocument
  have hlines := ((forall_isLasting_eventsOf_iff hevents htext).mp hlasting).2
  have hdiffer := (forall_isLasting_lines_iff htimed hevents).mp hlines
  exact hdiffer briefCue (.head _) (by decide +kernel) (by decide +kernel)

end Montage
