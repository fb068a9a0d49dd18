import Montage.Proofs.Caption.Fitting
import Montage.Proofs.Caption.Schedule
import Montage.Proofs.Number.Spelling
import Montage.Proofs.Text.Lines

/-!
# The captions in a document

A document that is built has its header first and then one line for each caption of the schedule,
with the times of the caption and its text. A time is written down if its hundredths of a second
are finite; so there are captions at finite times that have no document.

## Main definitions

* `pictureSize`: the width and the height that a document gives.
* `CaptionStyle.IsOneLine`: the styles that stay on their line.
* `Cue.IsEvent`: a line that shows a caption.
* `IsListing`: the documents that list captions.

## Main statements

* `subtitleDocument_eq_ok_iff`: what a document is put together of.
* `exists_isListing_iff`: when there is a document that lists the captions.
-/
namespace Montage

/-- The width and the height of the picture, as a document gives them. -/
def pictureSize (defaults : Fields) : Except Fault (String × String) :=
  resolutionOf ((defaults.get? "play_res").getD (.list [.int 1920, .int 1080]))

/-- No text of the style ends a line. -/
structure CaptionStyle.IsOneLine (s : CaptionStyle) : Prop where
  font : Montage.IsOneLine s.font.text
  primary : Montage.IsOneLine s.primary
  outlineColor : Montage.IsOneLine s.outlineColor
  backColor : Montage.IsOneLine s.backColor

/-- The first characters of a line that shows a caption. -/
def eventMark : List Char := "Dialogue: ".toList

/-- The lines of a document that show captions. -/
def eventsOf (document : String) : List (List Char) :=
  (linesOf document.toList).filter (eventMark.isPrefixOf ·)

/-- The ten fields of a line that shows a caption. The last one may have commas of its own. -/
def eventFields (line : List Char) : List (List Char) :=
  (line.splitOn ',').take 9 ++ [[','].intercalate ((line.splitOn ',').drop 9)]

/-- The line shows the caption: from its start to its end, with its text escaped. -/
def Cue.IsEvent (c : Cue) (line : List Char) : Prop :=
  ∃ start finish, timestamp (.real c.start) = .ok start ∧
    timestamp (.real c.finish) = .ok finish ∧
    eventFields line = ["Dialogue: 0", start, finish, "Default", "", "0", "0", "0", "",
      captionText c.text].map String.toList

/-- After the header, the document has one line for each caption of the schedule, and nothing
else. -/
structure IsListing (cues : List Cue) (header : List String) (document : String) : Prop where
  lines : linesOf document.toList = header.map String.toList ++ eventsOf document ++ [[]]
  events : ∃ shown, IsSchedule cues shown ∧ List.Forall₂ Cue.IsEvent shown (eventsOf document)

variable {defaults : Fields} {cues : List Cue} {style : CaptionStyle} {c : Cue}
  {width height document line t : String} {events : List String}

/-! ## The header -/

theorem IsNumeral.isOneLine (h : IsNumeral t) : IsOneLine t := by
  intro c hc
  have hne : c ≠ '\n' ∧ c ≠ '\r' := by
    constructor <;> rintro rfl <;> exact absurd (h _ hc) (by decide)
  simp [endsLine, hne]

/-- **The line of a style** is one line if no text of the style ends a line. -/
theorem CaptionStyle.IsOneLine.isOneLine_line (h : style.IsOneLine) :
    Montage.IsOneLine style.line := by
  have hnumber : ∀ n : Nat, Montage.IsOneLine (digitText n) :=
    fun n => (isNumeral_digitText n).isOneLine
  have hbold : Montage.IsOneLine style.boldText := by
    rw [boldText]
    split <;> decide
  refine isOneLine_append.mpr ⟨by decide, isOneLine_intercalate (by decide) ?_⟩
  have hsize : Montage.IsOneLine (intText style.size) := (isNumeral_intText _).isOneLine
  simp only [List.forall_mem_cons, hnumber, hbold, hsize, h.font, h.primary, h.outlineColor,
    h.backColor, true_and]
  decide

/-- No line of the header is cut but those with the width and the height of the picture. -/
theorem forall_notMem_documentHeader_iff {d : Char} (hd : endsLine d = true)
    (hstyle : style.IsOneLine) :
    (∀ line ∈ documentHeader width height style, d ∉ line.toList) ↔
      d ∉ width.toList ∧ d ∉ height.toList := by
  have hplain : ∀ {s}, IsOneLine s → d ∉ s.toList := fun hs hmem => by simp [hs d hmem] at hd
  simp only [documentHeader, List.forall_mem_cons, String.toList_append, List.mem_append, not_or]
  constructor
  · rintro ⟨-, -, hwidth, hheight, -⟩
    exact ⟨hwidth.2, hheight.2⟩
  · rintro ⟨hwidth, hheight⟩
    exact ⟨hplain (by decide), hplain (by decide), ⟨hplain (by decide), hwidth⟩,
      ⟨hplain (by decide), hheight⟩, hplain (by decide), hplain (by decide), hplain (by decide),
      hplain (by decide), ⟨⟨hplain (by decide), hplain (by decide)⟩, hplain (by decide)⟩,
      hplain hstyle.isOneLine_line, hplain (by decide), hplain (by decide), hplain (by decide),
      List.forall_mem_nil _⟩

/-- No line of the header is a line that shows a caption. -/
theorem not_isPrefix_of_mem_documentHeader
    (h : line ∈ documentHeader width height style) : ¬eventMark <+: line.toList := by
  have happend : ∀ {s t : String}, s ≠ "" → s.toList.head? ≠ some 'D' →
      (s ++ t).toList.head? ≠ some 'D' := by
    intro s t hne hs
    rwa [String.toList_append, List.head?_append_of_ne_nil _ (by simpa using hne)]
  have hhead : ∀ line ∈ documentHeader width height style, line.toList.head? ≠ some 'D' := by
    simp only [documentHeader, List.forall_mem_cons]
    exact ⟨by decide, by decide, happend (by decide) (by decide), happend (by decide) (by decide),
      by decide, by decide, by decide, by decide,
      happend (by decide) (happend (by decide) (by decide)), happend (by decide) (by decide),
      by decide, by decide, by decide, List.forall_mem_nil _⟩
  rintro ⟨rest, hrest⟩
  exact hhead line h (hrest ▸ rfl)

/-! ## The lines of captions -/

theorem isNumeral_twoDigits (n : Nat) : IsNumeral (Timestamp.twoDigits n) :=
  isNumeral_padLeft (isNumeral_digitText n) 2

/-- A time is written in digits, colons and a point. -/
theorem forall_mem_timestamp {x : Number} (h : timestamp x = .ok t) :
    ∀ c ∈ t.toList, numeralChar c = true ∨ c = ':' := by
  obtain ⟨n, -, hn⟩ := Outcome.bind_eq_ok.mp h
  obtain rfl := Except.ok.inj hn
  intro c hc
  simp only [Timestamp.text, String.toList_append, List.mem_append] at hc
  rcases hc with (((((hc | hc) | hc) | hc) | hc) | hc) | hc
  · exact .inl (isNumeral_digitText _ c hc)
  · exact .inr (by simpa using hc)
  · exact .inl (isNumeral_twoDigits _ c hc)
  · exact .inr (by simpa using hc)
  · exact .inl (isNumeral_twoDigits _ c hc)
  · exact .inl (by simp_all [numeralChar])
  · exact .inl (isNumeral_twoDigits _ c hc)

/-- An escaped text has no line feeds. -/
theorem notMem_escapeCaption (cs : List Char) : '\n' ∉ escapeCaption cs := by
  rw [escapeCaption, List.mem_flatMap]
  rintro ⟨c, -, hc⟩
  rw [captionChar] at hc
  split_ifs at hc with h1 h2 h3 h4 <;> simp_all [eq_comm]

/-- What a line begins with before the text of the caption. -/
def eventHead (start finish : String) : List String :=
  ["Dialogue: 0", start, finish, "Default", "", "0", "0", "0", ""]

theorem Cue.line_eq_ok_iff : c.line = .ok line ↔ ∃ start finish,
    timestamp (.real c.start) = .ok start ∧ timestamp (.real c.finish) = .ok finish ∧
      line.toList = ((eventHead start finish).map String.toList).flatMap (· ++ [',']) ++
        escapeCaption c.text.toList := by
  rw [Cue.line]
  simp only [Outcome.bind_eq_ok]
  constructor
  · rintro ⟨start, hstart, finish, hfinish, hline⟩
    obtain rfl := Except.ok.inj hline
    exact ⟨start, finish, hstart, hfinish, by simp [eventHead, captionText]⟩
  · rintro ⟨start, finish, hstart, hfinish, hline⟩
    refine ⟨start, hstart, finish, hfinish, congrArg Except.ok (String.toList_inj.mp ?_)⟩
    rw [hline]
    simp [eventHead, captionText]

/-- The fields before the text have no commas and end no lines. -/
theorem forall_mem_eventHead {start finish : String} {x y : Number}
    (hstart : timestamp x = .ok start) (hfinish : timestamp y = .ok finish) :
    ∀ field ∈ eventHead start finish, ∀ d ∈ field.toList, d ≠ ',' ∧ endsLine d = false := by
  have htime : ∀ {t : String} {z : Number}, timestamp z = .ok t →
      ∀ d ∈ t.toList, d ≠ ',' ∧ endsLine d = false := by
    intro t z ht d hd
    rcases forall_mem_timestamp ht d hd with hnumeral | rfl
    · have hone : IsOneLine (String.singleton d) :=
        IsNumeral.isOneLine (by simpa [IsNumeral] using hnumeral)
      refine ⟨?_, hone d (by simp)⟩
      rintro rfl
      exact absurd hnumeral (by decide)
    · decide
  have hplain : ∀ s : String, s.toList.all (fun d => d != ',' && !endsLine d) = true →
      ∀ d ∈ s.toList, d ≠ ',' ∧ endsLine d = false := fun s hs => by
    simpa using hs
  have hzero := hplain "0" (by decide)
  have hempty := hplain "" (by decide)
  simp only [eventHead, List.forall_mem_cons]
  exact ⟨hplain _ (by decide), htime hstart, htime hfinish, hplain _ (by decide), hempty, hzero,
    hzero, hzero, hempty, List.forall_mem_nil _⟩

/-- **The line of a caption** shows it. -/
theorem Cue.isEvent_of_line (h : c.line = .ok line) : c.IsEvent line.toList := by
  obtain ⟨start, finish, hstart, hfinish, hline⟩ := line_eq_ok_iff.mp h
  refine ⟨start, finish, hstart, hfinish, ?_⟩
  have hplain : ∀ field ∈ (eventHead start finish).map String.toList,
      ∀ d ∈ field, (d == ',') = false := by
    simpa using fun field hfield d hd => (forall_mem_eventHead hstart hfinish field hfield d hd).1
  have hcut : line.toList.splitOn ',' = (eventHead start finish).map String.toList ++
      (escapeCaption c.text.toList).splitOn ',' := by
    rw [hline, List.splitOn, splitOnP_flatMap_append (by decide), flatMap_splitOnP_eq_self hplain]
    rfl
  have hlength : ((eventHead start finish).map String.toList).length = 9 := rfl
  rw [eventFields, hcut, List.take_left' hlength, List.drop_left' hlength,
    List.intercalate_splitOn]
  simp [eventHead, captionText]

/-- The line of a caption ends nowhere but in its text. -/
theorem Cue.exists_line_eq (h : c.line = .ok line) : ∃ head, (∀ d ∈ head, endsLine d = false) ∧
    eventMark <+: head ∧ line.toList = head ++ escapeCaption c.text.toList := by
  obtain ⟨start, finish, hstart, hfinish, hline⟩ := line_eq_ok_iff.mp h
  refine ⟨_, fun d hd => ?_, ?_, hline⟩
  · obtain ⟨cs, hcs, hd⟩ := List.mem_flatMap.mp hd
    obtain ⟨field, hfield, rfl⟩ := List.mem_map.mp hcs
    rcases List.mem_append.mp hd with hd | hd
    · exact (forall_mem_eventHead hstart hfinish field hfield d hd).2
    · obtain rfl := List.mem_singleton.mp hd
      decide
  · have hmark : "Dialogue: 0".toList = eventMark ++ ['0'] := by decide
    rw [eventHead, List.map_cons, List.flatMap_cons, hmark, List.append_assoc, List.append_assoc]
    exact List.prefix_append _ _

theorem Cue.notMem_line (h : c.line = .ok line) : '\n' ∉ line.toList := by
  obtain ⟨head, hhead, -, hline⟩ := exists_line_eq h
  rw [hline, List.mem_append, not_or]
  exact ⟨fun hmem => absurd (hhead _ hmem) (by decide), notMem_escapeCaption _⟩

theorem Cue.isPrefix_line (h : c.line = .ok line) : eventMark <+: line.toList := by
  obtain ⟨head, -, hmark, hline⟩ := exists_line_eq h
  exact hline ▸ hmark.trans (List.prefix_append _ _)

/-! ## The document -/

/-- **A document** is put together of its header and of the lines of the captions that are shown. -/
theorem subtitleDocument_eq_ok_iff (hsize : pictureSize defaults = .ok (width, height)) :
    subtitleDocument defaults cues style = .ok document ↔
      ∃ events, (shownCues cues).mapM Cue.line = .ok events ∧ document.toList =
        joinLines ((documentHeader width height style ++ events).map String.toList) := by
  have hjoin : ∀ events, ("\n".intercalate (documentHeader width height style ++ events) ++
      "\n").toList = _ := fun events => toList_intercalate_append (by simp [documentHeader])
  have hbuild : subtitleDocument defaults cues style = ((shownCues cues).mapM Cue.line).map
      fun events => "\n".intercalate (documentHeader width height style ++ events) ++ "\n" := by
    change pictureSize defaults >>= _ = _
    rw [hsize]
    cases (shownCues cues).mapM Cue.line <;> rfl
  rw [hbuild, Outcome.map_eq_ok]
  exact exists_congr fun events => and_congr_right' (by rw [← hjoin, String.toList_inj, eq_comm])

/-- Captions whose times can be written have a document. -/
theorem exists_subtitleDocument (style : CaptionStyle)
    (hsize : pictureSize defaults = .ok (width, height))
    (htimes : ∀ c ∈ shownCues cues, c.HasTimes) :
    ∃ document, subtitleDocument defaults cues style = .ok document := by
  obtain ⟨events, hevents⟩ := Outcome.isOk_iff.mp <| Outcome.isOk_mapM.mpr fun c hc =>
    Cue.isOk_line_iff.mpr (htimes c hc)
  exact ⟨_, (subtitleDocument_eq_ok_iff hsize).mpr ⟨events, hevents, String.toList_ofList⟩⟩

/-- The header and the lines of the captions are found again between the line feeds. -/
theorem linesOf_document
    (hheader : ∀ line ∈ documentHeader width height style, '\n' ∉ line.toList)
    (hevents : ∀ line ∈ events, ∃ c : Cue, c.line = .ok line)
    (htext : document.toList =
      joinLines ((documentHeader width height style ++ events).map String.toList)) :
    linesOf document.toList = (documentHeader width height style).map String.toList ++
      events.map String.toList ++ [[]] := by
  rw [htext, linesOf_joinLines, List.map_append]
  simp only [List.forall_mem_map, List.forall_mem_append]
  refine ⟨hheader, fun line hline => ?_⟩
  obtain ⟨c, hc⟩ := hevents line hline
  exact Cue.notMem_line hc

/-- The marked lines of a document are those of its header, and the lines of the captions. -/
theorem eventsOf_document (hevents : ∀ line ∈ events, ∃ c : Cue, c.line = .ok line)
    (htext : document.toList =
      joinLines ((documentHeader width height style ++ events).map String.toList)) :
    eventsOf document =
      (documentHeader width height style).flatMap eventsOf ++ events.map String.toList := by
  have hwhole : (events.map String.toList).flatMap (List.splitOnP (· == '\n')) =
      events.map String.toList := by
    refine flatMap_splitOnP_eq_self (List.forall_mem_map.mpr fun line hline d hd => ?_)
    obtain ⟨c, hc⟩ := hevents line hline
    exact beq_false_of_ne fun hfeed => Cue.notMem_line hc (hfeed ▸ hd)
  have hmarked : (events.map String.toList).filter (eventMark.isPrefixOf ·) =
      events.map String.toList := by
    rw [List.filter_eq_self, List.forall_mem_map]
    intro line hline
    obtain ⟨c, hc⟩ := hevents line hline
    exact List.isPrefixOf_iff_prefix.mpr (Cue.isPrefix_line hc)
  have hrest : [[]].filter (eventMark.isPrefixOf ·) = [] := by decide
  rw [eventsOf, htext, linesOf, List.splitOn, splitOnP_joinLines (by decide), List.map_append,
    List.flatMap_append, hwhole, List.filter_append, List.filter_append, hmarked, hrest,
    List.append_nil, List.filter_flatMap, List.flatMap_map]
  rfl

/-- A header that stays on its lines has no marked ones. -/
theorem flatMap_eventsOf_documentHeader
    (hheader : ∀ line ∈ documentHeader width height style, '\n' ∉ line.toList) :
    (documentHeader width height style).flatMap eventsOf = [] := by
  refine List.flatMap_eq_nil_iff.mpr fun line hline => ?_
  rw [eventsOf, linesOf, List.splitOn_eq_singleton (hheader line hline)]
  simpa using not_isPrefix_of_mem_documentHeader hline

/-- A document whose header stays on its lines lists the captions. -/
theorem isListing_of_subtitleDocument (hstyle : style.IsOneLine) (htimed : ∀ c ∈ cues, c.IsTimed)
    (hsize : pictureSize defaults = .ok (width, height))
    (hsides : '\n' ∉ width.toList ∧ '\n' ∉ height.toList)
    (hdocument : subtitleDocument defaults cues style = .ok document) :
    IsListing cues (documentHeader width height style) document := by
  obtain ⟨events, hevents, htext⟩ := (subtitleDocument_eq_ok_iff hsize).mp hdocument
  have hforall := Outcome.mapM_eq_ok_iff.mp hevents
  have hshown : ∀ line ∈ events, ∃ c : Cue, c.line = .ok line := by
    intro line hline
    obtain ⟨c, -, hc⟩ := (Outcome.mem_of_mapM hevents).1 line hline
    exact ⟨c, hc⟩
  have hheader := (forall_notMem_documentHeader_iff rfl hstyle).mpr hsides
  have hlines := linesOf_document hheader hshown htext
  have heventsOf : eventsOf document = events.map String.toList := by
    rw [eventsOf_document hshown htext, flatMap_eventsOf_documentHeader hheader, List.nil_append]
  refine ⟨heventsOf ▸ hlines, shownCues cues, isSchedule_shownCues htimed, heventsOf ▸ ?_⟩
  rw [List.forall₂_map_right_iff]
  exact hforall.imp fun _ _ => Cue.isEvent_of_line

/-- **Captions at finite times** have a document that lists them just if the width and the height of
the picture have no line feeds, and the hundredths of a second of each caption that is kept are
finite as well. -/
theorem exists_isListing_iff (hstyle : style.IsOneLine) (htimed : ∀ c ∈ cues, c.IsTimed) :
    (∃ width height document, pictureSize defaults = .ok (width, height) ∧
      subtitleDocument defaults cues style = .ok document ∧
      IsListing cues (documentHeader width height style) document) ↔
    (∃ width height, pictureSize defaults = .ok (width, height) ∧
      '\n' ∉ width.toList ∧ '\n' ∉ height.toList) ∧ ∀ c ∈ cues, c.IsKept → c.HasTimes := by
  constructor
  · rintro ⟨width, height, document, hsize, hdocument, hlisting⟩
    -- What is found between line feeds has none, so the header has none.
    have hheader : ∀ line ∈ documentHeader width height style, '\n' ∉ line.toList := by
      intro line hline
      have hcut : line.toList ∈ linesOf document.toList := by
        rw [hlisting.lines]
        simp [List.mem_map_of_mem hline]
      exact notMem_of_mem_linesOf hcut
    have hfits := (isOk_subtitleDocument_iff style).mp (Outcome.isOk_iff.mpr ⟨document, hdocument⟩)
    exact ⟨⟨width, height, hsize, (forall_notMem_documentHeader_iff rfl hstyle).mp hheader⟩,
      fun c hc hkept => hfits.times c ((mem_shownCues_iff htimed).mpr ⟨hc, hkept⟩)⟩
  · rintro ⟨⟨width, height, hsize, hsides⟩, htimes⟩
    obtain ⟨document, hdocument⟩ := exists_subtitleDocument style hsize fun c hc => by
      obtain ⟨hmem, hkept⟩ := (mem_shownCues_iff htimed).mp hc
      exact htimes c hmem hkept
    exact ⟨width, height, document, hsize, hdocument,
      isListing_of_subtitleDocument hstyle htimed hsize hsides hdocument⟩

/-- The style of captions where nothing is said of it. -/
def CaptionStyle.plain : CaptionStyle :=
  ⟨.string "Arial", 24, "&H00FFFFFF", "&H00000000", "&H80000000", false, 2, 1, 1, 2, 40⟩

theorem CaptionStyle.isOneLine_plain : CaptionStyle.plain.IsOneLine :=
  ⟨by decide, by decide, by decide, by decide⟩

/-- Two captions that start together after a third one, and one that is not kept. -/
def sampleCues : List Cue :=
  [⟨"two", .nearest 1, .nearest 2⟩, ⟨"one", 0, .nearest (3 / 2)⟩, ⟨" ", .nearest 1, .nearest 5⟩,
    ⟨"too", .nearest 1, .nearest 3⟩]

/-- **Captions of which one is not kept** have a document that lists the others. -/
theorem exists_isListing_sampleCues :
    CaptionStyle.plain.IsOneLine ∧ (∀ c ∈ sampleCues, c.IsTimed) ∧
      ∃ width height document, pictureSize [] = .ok (width, height) ∧
        subtitleDocument [] sampleCues .plain = .ok document ∧
        IsListing sampleCues (documentHeader width height .plain) document := by
  have htimed : ∀ c ∈ sampleCues, c.IsTimed := by
    have hfinite : ∀ c ∈ sampleCues, c.start.IsFinite ∧ c.finish.IsFinite := by decide +kernel
    exact fun c hc => ⟨(hfinite c hc).1, (hfinite c hc).2⟩
  have htimes : ∀ c ∈ sampleCues, c.IsKept → c.HasTimes := by decide +kernel
  have hsize : pictureSize [] = .ok ("1920", "1080") := by decide +kernel
  exact ⟨CaptionStyle.isOneLine_plain, htimed,
    (exists_isListing_iff CaptionStyle.isOneLine_plain htimed).mpr
      ⟨⟨"1920", "1080", hsize, by decide, by decide⟩, htimes⟩⟩

/-- A caption that ends later than its hundredths of a second can be counted. -/
def endlessCue : Cue := ⟨"Hi", 0, .nearest (10 ^ 307)⟩

/-- **A caption at finite times** can be without a document. -/
theorem not_exists_isListing_endlessCue :
    CaptionStyle.plain.IsOneLine ∧ (∀ c ∈ [endlessCue], c.IsTimed) ∧
      ¬∃ width height document, pictureSize [] = .ok (width, height) ∧
        subtitleDocument [] [endlessCue] .plain = .ok document ∧
        IsListing [endlessCue] (documentHeader width height .plain) document := by
  have hfinite : endlessCue.start.IsFinite ∧ endlessCue.finish.IsFinite := by decide +kernel
  have htimed : ∀ c ∈ [endlessCue], c.IsTimed := by simpa using ⟨hfinite.1, hfinite.2⟩
  refine ⟨CaptionStyle.isOneLine_plain, htimed, ?_⟩
  rintro ⟨width, height, document, -, hdocument, -⟩
  have hfits := (isOk_subtitleDocument_iff _).mp (Outcome.isOk_iff.mpr ⟨document, hdocument⟩)
  have hshown : endlessCue ∈ shownCues [endlessCue] := by decide +kernel
  have hlate : ¬endlessCue.HasTimes := by decide +kernel
  exact hlate (hfits.times _ hshown)

end Montage
