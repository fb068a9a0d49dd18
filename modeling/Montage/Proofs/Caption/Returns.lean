import Montage.Proofs.Caption.Listing

/-!
# Line ends in captions

Readers of subtitles end a line at a line feed and at a carriage return, alone or with a line feed
after it. The line feeds of a text are escaped, and so are the carriage returns before them, but a
carriage return alone stays as it is. What comes after it is a line of its own for the readers, and
may be one that shows another caption. Only at the end of a text is a carriage return harmless: the
line feed that ends the line of the caption follows it.

## Main definitions

* `HasStrayReturn`: the texts with a carriage return that cuts them.
* `StaysOnLines`: the documents in which readers find one line for each caption.

## Main statements

* `mem_dropLast_escapeCaption_iff`: which texts are cut.
* `exists_staysOnLines_iff`: when there is a document in which no caption is cut.
-/
namespace Montage

/-- The text has a carriage return before a character that is no line feed. -/
def HasStrayReturn (cs : List Char) : Prop := ∃ d, d ≠ '\n' ∧ ['\r', d] <:+: cs

/-- Readers of the document find the header and then, for each caption that is shown, one line that
is marked as such, and nothing else. -/
def StaysOnLines (cues : List Cue) (header : List String) (document : String) : Prop :=
  ∃ events, subtitleLines document.toList = header.map String.toList ++ events ++ [[]] ∧
    events.length = cues.countP Cue.isShown ∧ ∀ event ∈ events, eventMark <+: event

variable {defaults : Fields} {cues : List Cue} {style : CaptionStyle} {c : Cue}
  {width height document line : String} {events : List String} {cs : List Char}

/-! ## Carriage returns that are escaped and that are not -/

theorem mem_captionChar_iff {d : Char} : '\r' ∈ captionChar d ↔ d = '\r' := by
  rw [captionChar]
  split_ifs <;> simp_all [eq_comm]

theorem captionChar_ne_nil (d : Char) : captionChar d ≠ [] := by
  rw [captionChar]
  split_ifs <;> exact List.cons_ne_nil _ _

theorem not_hasStrayReturn_nil : ¬HasStrayReturn [] := by
  rintro ⟨d, -, hd⟩
  simp at hd

/-- A carriage return is stray at the start of a text or behind it. -/
theorem hasStrayReturn_cons_iff {d : Char} : HasStrayReturn (d :: cs) ↔
    (d = '\r' ∧ ∃ e rest, e ≠ '\n' ∧ cs = e :: rest) ∨ HasStrayReturn cs := by
  constructor
  · rintro ⟨e, he, hinfix⟩
    rcases List.infix_cons_iff.mp hinfix with hstart | hbehind
    · obtain ⟨rfl, rest, rfl⟩ := List.cons_prefix_cons.mp hstart
      exact .inl ⟨rfl, e, rest, he, rfl⟩
    · exact .inr ⟨e, he, hbehind⟩
  · rintro (⟨rfl, e, rest, he, rfl⟩ | ⟨e, he, hbehind⟩)
    · exact ⟨e, he, List.infix_cons_iff.mpr (.inl ⟨rest, rfl⟩)⟩
    · exact ⟨e, he, List.infix_cons_iff.mpr (.inr hbehind)⟩

theorem escapeCaption_crlf (cs : List Char) :
    escapeCaption ('\r' :: '\n' :: cs) = '\\' :: 'N' :: escapeCaption cs := rfl

theorem escapeCaption_cons {d : Char} (h : ∀ rest, d = '\r' → cs = '\n' :: rest → False) :
    escapeCaption (d :: cs) = captionChar d ++ escapeCaption cs := by
  rw [escapeCaption, Escape.joinLineEnds, List.flatMap_cons, escapeCaption]
  exact h

theorem escapeCaption_ne_nil (d : Char) (cs : List Char) : escapeCaption (d :: cs) ≠ [] := by
  have hjoined : Escape.joinLineEnds (d :: cs) ≠ [] := by
    rw [Escape.joinLineEnds.eq_def]
    split <;> simp_all
  obtain ⟨e, rest, hrest⟩ := List.exists_cons_of_ne_nil hjoined
  rw [escapeCaption, hrest, List.flatMap_cons]
  exact List.append_ne_nil_of_left_ne_nil (captionChar_ne_nil e) _

/-- **A text is cut** at the carriage returns that no line feed follows, but not at its last
character. -/
theorem mem_dropLast_escapeCaption_iff :
    '\r' ∈ (escapeCaption cs).dropLast ↔ HasStrayReturn cs := by
  -- The cases are those of joining line ends: both characters at once, or one.
  induction cs using Escape.joinLineEnds.induct with
  | case1 cs ih =>
      have hstray : HasStrayReturn ('\r' :: '\n' :: cs) ↔ HasStrayReturn cs := by
        simp [hasStrayReturn_cons_iff]
      rw [hstray, ← ih, escapeCaption_crlf]
      cases escapeCaption cs <;> simp
  | case2 c cs h ih =>
      rw [escapeCaption_cons h, hasStrayReturn_cons_iff, ← ih]
      cases cs with
      | nil =>
          have hlast : '\r' ∉ (captionChar c).dropLast := by
            rw [captionChar]
            split_ifs <;> simp
          simpa [escapeCaption, Escape.joinLineEnds] using hlast
      | cons e rest =>
          rw [List.dropLast_append_of_ne_nil (escapeCaption_ne_nil e rest), List.mem_append,
            mem_captionChar_iff]
          refine or_congr_left ⟨fun hc => ⟨hc, e, rest, ?_, rfl⟩, fun hc => hc.1⟩
          rintro rfl
          exact h rest hc rfl
  | case3 =>
      refine iff_of_false ?_ not_hasStrayReturn_nil
      simp [escapeCaption, Escape.joinLineEnds]

instance (cs : List Char) : Decidable (HasStrayReturn cs) :=
  decidable_of_iff _ mem_dropLast_escapeCaption_iff

/-! ## What readers find -/

/-- Readers find the line of a caption whole just if no carriage return is stray in its text. -/
theorem Cue.length_piecesOf_line_iff (h : c.line = .ok line) :
    (piecesOf line.toList).length = 1 ↔ ¬HasStrayReturn c.text.toList := by
  obtain ⟨head, hhead, -, hline⟩ := exists_line_eq h
  have hreturn : '\r' ∉ head := fun hmem => absurd (hhead _ hmem) (by decide)
  rw [length_piecesOf_eq_one_iff (notMem_line h), ← mem_dropLast_escapeCaption_iff,
    ← mem_dropReturn_iff, ← mem_dropReturn_iff, hline, dropReturn_append hreturn, List.mem_append,
    or_iff_right hreturn]

/-- The mark of a line stays at its start. -/
theorem Cue.isPrefix_dropReturn (h : c.line = .ok line) : eventMark <+: dropReturn line.toList := by
  obtain ⟨head, hhead, hmark, hline⟩ := exists_line_eq h
  have hreturn : '\r' ∉ head := fun hmem => absurd (hhead _ hmem) (by decide)
  rw [hline, dropReturn_append hreturn]
  exact hmark.trans (List.prefix_append _ _)

theorem forall_isOneLine_documentHeader_iff (hstyle : style.IsOneLine) :
    (∀ line ∈ documentHeader width height style, IsOneLine line) ↔
      IsOneLine width ∧ IsOneLine height := by
  simp only [isOneLine_iff]
  constructor
  · intro h
    have hparts := fun d hd => (forall_notMem_documentHeader_iff hd hstyle).mp
      fun line hline => h line hline d hd
    exact ⟨fun d hd => (hparts d hd).1, fun d hd => (hparts d hd).2⟩
  · rintro ⟨hwidth, hheight⟩ line hline d hd
    exact (forall_notMem_documentHeader_iff hd hstyle).mpr ⟨hwidth d hd, hheight d hd⟩ line hline

/-- Readers find the header, and then what is in the lines of the captions. -/
theorem subtitleLines_document
    (hheader : ∀ line ∈ documentHeader width height style, IsOneLine line)
    (hevents : (shownCues cues).mapM Cue.line = .ok events)
    (htext : document.toList =
      joinLines ((documentHeader width height style ++ events).map String.toList)) :
    subtitleLines document.toList = (documentHeader width height style).map String.toList ++
      (events.map String.toList).flatMap piecesOf ++ [[]] := by
  have hfeeds : ∀ line ∈ (documentHeader width height style ++ events).map String.toList,
      '\n' ∉ line := by
    simp only [List.forall_mem_map, List.forall_mem_append]
    refine ⟨fun line hline => isOneLine_iff.mp (hheader line hline) _ rfl, fun line hline => ?_⟩
    obtain ⟨c, -, hc⟩ := (Outcome.mem_of_mapM hevents).1 line hline
    exact Cue.notMem_line hc
  have hwhole : ((documentHeader width height style).map String.toList).flatMap piecesOf =
      (documentHeader width height style).map String.toList := by
    rw [List.flatMap_map, List.flatMap_congr fun line hline => (hheader line hline).piecesOf_eq,
      ← List.map_eq_flatMap]
  rw [htext, subtitleLines_joinLines hfeeds, List.map_append, List.flatMap_append, hwhole]

theorem StaysOnLines.isOneLine
    (h : StaysOnLines cues (documentHeader width height style) document) :
    ∀ line ∈ documentHeader width height style, IsOneLine line := by
  obtain ⟨pieces, hlines, -, -⟩ := h
  intro line hline
  have hcut : line.toList ∈ subtitleLines document.toList := by
    rw [hlines]
    simp [List.mem_map_of_mem hline]
  exact eq_false_of_mem_splitOnP hcut

/-- **A document stays on its lines** just if no carriage return is stray in the captions. Readers
find at least one line for each caption, so they find as many as there are captions only if they
find one for each. -/
theorem staysOnLines_iff (hsize : pictureSize defaults = .ok (width, height))
    (hheader : ∀ line ∈ documentHeader width height style, IsOneLine line)
    (hdocument : subtitleDocument defaults cues style = .ok document) :
    StaysOnLines cues (documentHeader width height style) document ↔
      ∀ c ∈ shownCues cues, ¬HasStrayReturn c.text.toList := by
  obtain ⟨events, hevents, htext⟩ := (subtitleDocument_eq_ok_iff hsize).mp hdocument
  have hlines := subtitleLines_document hheader hevents htext
  have hlength : events.length = cues.countP Cue.isShown := by
    rw [← length_shownCues, (Outcome.mapM_eq_ok_iff.mp hevents).length_eq]
  constructor
  · rintro ⟨pieces, hpieces, hcount, -⟩ c hc
    have hsame : (events.map String.toList).flatMap piecesOf = pieces :=
      List.append_cancel_left (List.append_cancel_right (hlines.symm.trans hpieces))
    have hone : ∀ line ∈ events.map String.toList, (piecesOf line).length = 1 := by
      refine length_eq_one_of_length_flatMap (fun line => length_splitOnP_pos _ _) ?_
      rw [hsame, hcount, List.length_map, hlength]
    obtain ⟨line, hline, hc⟩ := (Outcome.mem_of_mapM hevents).2 c hc
    exact (Cue.length_piecesOf_line_iff hc).mp (hone _ (List.mem_map_of_mem hline))
  · intro hstray
    have hpieces : ∀ line ∈ events, piecesOf line.toList = [dropReturn line.toList] := by
      intro line hline
      obtain ⟨c, hc, hline⟩ := (Outcome.mem_of_mapM hevents).1 line hline
      exact piecesOf_eq_singleton ((Cue.length_piecesOf_line_iff hline).mpr (hstray c hc))
    rw [List.flatMap_map, List.flatMap_congr hpieces, ← List.map_eq_flatMap] at hlines
    refine ⟨_, hlines, by rw [List.length_map, hlength], ?_⟩
    rw [List.forall_mem_map]
    intro line hline
    obtain ⟨c, -, hc⟩ := (Outcome.mem_of_mapM hevents).1 line hline
    exact Cue.isPrefix_dropReturn hc

/-- **No text brings in lines of its own** just if the width and the height of the picture stay on
their lines, and each caption that is shown has times that can be written and no stray carriage
return. Exactly then readers find the header and one marked line for each caption. -/
theorem exists_staysOnLines_iff (hstyle : style.IsOneLine) :
    (∃ width height document, pictureSize defaults = .ok (width, height) ∧
      subtitleDocument defaults cues style = .ok document ∧
      StaysOnLines cues (documentHeader width height style) document) ↔
    (∃ width height, pictureSize defaults = .ok (width, height) ∧
      IsOneLine width ∧ IsOneLine height) ∧
      ∀ c ∈ cues, c.isShown = true → c.HasTimes ∧ ¬HasStrayReturn c.text.toList := by
  have hmem : ∀ c, c ∈ shownCues cues ↔ c ∈ cues ∧ c.isShown = true := fun c => by
    rw [shownCues, List.mem_filter, sortedCues, List.mem_mergeSort]
  constructor
  · rintro ⟨width, height, document, hsize, hdocument, hstays⟩
    have hfits := (isOk_subtitleDocument_iff style).mp (Outcome.isOk_iff.mpr ⟨document, hdocument⟩)
    have hstray := (staysOnLines_iff hsize hstays.isOneLine hdocument).mp hstays
    refine ⟨⟨width, height, hsize,
      (forall_isOneLine_documentHeader_iff hstyle).mp hstays.isOneLine⟩, fun c hc hshown => ?_⟩
    have hc := (hmem c).mpr ⟨hc, hshown⟩
    exact ⟨hfits.times c hc, hstray c hc⟩
  · rintro ⟨⟨width, height, hsize, hsides⟩, hcues⟩
    have hshown : ∀ c ∈ shownCues cues, c.HasTimes ∧ ¬HasStrayReturn c.text.toList :=
      fun c hc => hcues c ((hmem c).mp hc).1 ((hmem c).mp hc).2
    obtain ⟨document, hdocument⟩ := exists_subtitleDocument style hsize fun c hc => (hshown c hc).1
    have hheader := (forall_isOneLine_documentHeader_iff hstyle).mpr hsides
    exact ⟨width, height, document, hsize, hdocument,
      (staysOnLines_iff hsize hheader hdocument).mpr fun c hc => (hshown c hc).2⟩

/-- Captions whose texts have line ends of every kind that does no harm. -/
def brokenCues : List Cue :=
  [⟨"first\nsecond", 0, .nearest 1⟩, ⟨"first\r\nsecond", .nearest 1, .nearest 2⟩,
    ⟨"last\r", .nearest 2, .nearest 3⟩, ⟨"first\rsecond", .nearest 4, .nearest 4⟩]

/-- **Line ends that are escaped**, or that end the text, bring in nothing. -/
theorem exists_staysOnLines_brokenCues :
    CaptionStyle.plain.IsOneLine ∧
      ∃ width height document, pictureSize [] = .ok (width, height) ∧
        subtitleDocument [] brokenCues .plain = .ok document ∧
        StaysOnLines brokenCues (documentHeader width height .plain) document := by
  have hcues : ∀ c ∈ brokenCues, c.isShown = true →
      c.HasTimes ∧ ¬HasStrayReturn c.text.toList := by decide +kernel
  have hsize : pictureSize [] = .ok ("1920", "1080") := by decide +kernel
  exact ⟨CaptionStyle.isOneLine_plain, (exists_staysOnLines_iff CaptionStyle.isOneLine_plain).mpr
    ⟨⟨"1920", "1080", hsize, by decide, by decide⟩, hcues⟩⟩

/-- A caption with the line of another one in its text, behind a carriage return. -/
def doubleCue : Cue :=
  ⟨"Hi\rDialogue: 0,0:00:00.00,0:00:09.00,Default,,0,0,0,,Ha", 0, .nearest 1⟩

/-- The cleaning of requests leaves the carriage return. -/
theorem sanitize_doubleCue : sanitize doubleCue.text = doubleCue.text := by decide +kernel

/-- **A carriage return alone** brings in a line that shows another caption. -/
theorem not_exists_staysOnLines_doubleCue :
    CaptionStyle.plain.IsOneLine ∧
      ¬∃ width height document, pictureSize [] = .ok (width, height) ∧
        subtitleDocument [] [doubleCue] .plain = .ok document ∧
        StaysOnLines [doubleCue] (documentHeader width height .plain) document := by
  refine ⟨CaptionStyle.isOneLine_plain, ?_⟩
  rintro ⟨width, height, document, hsize, hdocument, hstays⟩
  have hshown : doubleCue ∈ shownCues [doubleCue] := by decide +kernel
  have hstray : HasStrayReturn doubleCue.text.toList := by decide +kernel
  exact (staysOnLines_iff hsize hstays.isOneLine hdocument).mp hstays _ hshown hstray

end Montage
