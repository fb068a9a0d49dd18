import Montage.Proofs.Containment
import Montage.Proofs.Edit.Checked
import Montage.Proofs.Filter.Compiling

/-!
# Captions that can be written

The check lets captions through whose times are infinite or no numbers, and their style and their
file depend on settings and on stored files. Compiling such captions can be a fault; which ones fit
is said here.

## Main definitions

* `CaptionParams.FilterFits`: the captions whose compilation is no fault.
* `DocumentFits`: the captions that a document can hold.
* `Storage.CanKeep`: a file can be kept in a directory that is made for it.

## Main statements

* `CaptionParams.IsChecked.isOk_resolve_iff`: when captions have a style.
* `isOk_subtitleDocument_iff`: when they have a document.
* `contained_compileCaptions_iff`: checked captions are compiled or refused just if they fit.
-/
namespace Montage

open Montage.Action

variable {σ : Session}

/-! ## What has to fit -/

/-- A file can be kept in a directory that is made where it does not exist: there is something under
its name, or a place for it. -/
def Storage.CanKeep (f : Storage) (dir file : Path) : Prop :=
  ∃ g, f.makeDirs dir = .ok g ∧ ((g.lookup file).isSome = true ∨ g.TakesFile file)

/-- The time in hundredths of a second, counted from zero. -/
def hundredthsOf (seconds : Binary64) : Binary64 :=
  (if Number.real seconds < .real 0 then 0 else seconds) * 100

/-- The times of the caption can be written. -/
def Cue.HasTimes (c : Cue) : Prop :=
  (hundredthsOf c.start).IsFinite ∧ (hundredthsOf c.finish).IsFinite

instance (c : Cue) : Decidable c.HasTimes := inferInstanceAs (Decidable (_ ∧ _))

/-- The document of captions can be written: the picture has a width and a height, and the captions
that are shown have times. -/
structure DocumentFits (defaults : Fields) (cues : List Cue) : Prop where
  picture : ∃ width height,
    ((defaults.get? "play_res").getD (.list [.int 1920, .int 1080])).items = .ok [width, height]
  times : ∀ c ∈ shownCues cues, c.HasTimes

/-- The captions have a colour and a size, and they are in a file that can be looked for, or there
are none, or they can be written to a file of their own. -/
structure CaptionParams.FilterFits (s : Settings) (files : Storage) (p : CaptionParams) :
    Prop where
  color : ∃ t, p.color.orElse (s.caption.get "color") = .string t
  size : p.size = .null → (captionSize (s.caption.get "size")).isOk = true
  given : ∀ t, p.file = .string t → t ≠ "" → files.locate (.ofString t) ≠ .tooLong
  document : p.file.isTruthy = false → p.cues ≠ [] → DocumentFits s.caption p.cues
  kept : p.file.isTruthy = false → p.cues ≠ [] → ∀ style warnings document,
    CaptionStyle.resolve s.caption p = .ok (style, warnings) →
      subtitleDocument s.caption p.cues style = .ok document →
        files.CanKeep s.tempPath (s.captionFile document)

/-! ## The style -/

theorem choiceKey_eq_of_allDigits {s : String}
    (h : Text.allDigits (choiceKey s).toList = true) : choiceKey s = s.strip.lowerCase := by
  rw [choiceKey]
  refine String.toList_inj.mp ?_
  rw [String.toList_ofList]
  refine (List.map_congr_left fun c hc => ?_).trans (List.map_id _)
  simp only [choiceKey, String.toList_ofList, Text.allDigits, Bool.and_eq_true,
    List.all_eq_true, List.forall_mem_map] at h
  have hdigit := h.2 c hc
  split_ifs at hdigit ⊢ with hmark
  · exact absurd hdigit (by decide +kernel)
  · rfl

/-- A size of captions is a number with an integer part, or a text whose digits write an integer. -/
theorem isOk_captionSize {v : Value} (hcount : ∀ n, v.count? = some n → n.toInt.isOk = true)
    (hdigits : v.count? = none → Text.allDigits v.choiceKey.toList = true →
      (Numeral.integer v.choiceKey).isOk = true) :
    (captionSize v).isOk = true := by
  unfold captionSize
  split
  · next n hn =>
    rw [Outcome.isOk_map]
    exact hcount n hn
  · next hnone =>
    extract_lets key
    split
    · next h =>
      rw [Outcome.isOk_map]
      exact hdigits hnone h
    · split <;> rfl

/-- A size in its range is taken for a size of captions. -/
theorem Value.IsTextSize.isOk_captionSize {v : Value} (h : v.IsTextSize) :
    (captionSize v).isOk = true := by
  refine Montage.isOk_captionSize h.isOk_toInt ?_
  intro hcount hdigits
  have hkey : v.choiceKey = v.text.strip.lowerCase := by
    rw [Value.choiceKey] at hdigits ⊢
    split_ifs at hdigits ⊢
    · exact choiceKey_eq_of_allDigits hdigits
    · cases hdigits
  rw [hkey] at hdigits ⊢
  exact h.isOk_integer hcount hdigits

theorem isOk_captionColor?_iff (v : Value) (transparency : Int) :
    (captionColor? v transparency).isOk = true ↔ ∃ t, v = .string t := by
  cases v with
  | string t =>
      refine iff_of_true ?_ ⟨t, rfl⟩
      rw [captionColor?]
      split <;> rfl
  | _ => exact iff_of_false Bool.false_ne_true fun ⟨t, ht⟩ => nomatch ht

/-- The style of captions needs a colour that is a text, and a size. -/
theorem CaptionParams.IsChecked.isOk_resolve_iff {p : CaptionParams} (h : p.IsChecked)
    {defaults : Fields} : (CaptionStyle.resolve defaults p).isOk = true ↔
      (∃ t, p.color.orElse (defaults.get "color") = .string t) ∧
        (p.size = .null → (captionSize (defaults.get "size")).isOk = true) := by
  rw [CaptionStyle.resolve]
  extract_lets place name font rest
  -- What follows the colour is the same whether the colour is known or not.
  have hrest : ∀ c, (rest c).isOk = true ↔
      (p.size = .null → (captionSize (defaults.get "size")).isOk = true) := by
    rintro ⟨primary, colorWarnings⟩
    refine Iff.trans (Bool.eq_iff_iff.mp (Outcome.isOk_bind_of_forall ?_)) ?_
    · rintro ⟨size, sizeWarnings⟩
      dsimp only
      by_cases htruthy : p.background.isTruthy = true
      · obtain ⟨t, ht, -⟩ := h.background.exists_string htruthy
        obtain ⟨c, hc⟩ := Outcome.isOk_iff.mp
          ((isOk_captionColor?_iff p.background 0x40).mpr ⟨t, ht⟩)
        rw [if_pos htruthy, hc]
        cases c <;> rfl
      · rw [if_neg htruthy]
        rfl
    · cases hsize : p.size with
      | null => simp
      | _ => simpa using hsize ▸ h.size.isOk_captionSize
  clear_value rest
  rw [Outcome.isOk_bind, ← isOk_captionColor?_iff _ 0, Outcome.isOk_iff]
  constructor
  · rintro ⟨c, hc, h⟩
    refine ⟨⟨c, hc⟩, ?_⟩
    cases c with
    | none => exact (hrest _).mp h
    | some c => exact (hrest _).mp h
  · rintro ⟨⟨c, hc⟩, h⟩
    refine ⟨c, hc, ?_⟩
    cases c with
    | none => exact (hrest _).mpr h
    | some c => exact (hrest _).mpr h

/-! ## The document -/

/-- A time is written by the integer next to its hundredths of a second. -/
theorem timestamp_real (x : Binary64) : timestamp (.real x) =
    (hundredthsOf x).round.map fun n => (Timestamp.ofCentiseconds n.toNat).text := by
  have hundred : (Number.int 100).toReal = (100 : Binary64) :=
    Binary64.nearest_intCast (k := 100) (by decide)
  have hproduct : (if Number.real x < .real 0 then Number.real 0 else .real x) * 100 =
      .real (hundredthsOf x) := by
    rw [hundredthsOf, ← hundred]
    split_ifs <;> rfl
  simp only [timestamp, hproduct, Number.round]
  cases (hundredthsOf x).round <;> rfl

theorem Cue.isOk_line_iff {c : Cue} : c.line.isOk = true ↔ c.HasTimes := by
  have htime : ∀ x : Binary64, (timestamp (.real x)).isOk = true ↔ (hundredthsOf x).IsFinite := by
    intro x
    rw [timestamp_real, Outcome.isOk_map]
    exact Binary64.isOk_round_iff
  rw [line, Outcome.isOk_bind_bind fun _ _ => rfl, Bool.and_eq_true, htime, htime]
  rfl

theorem isOk_subtitleDocument_iff {defaults : Fields} {cues : List Cue} (style : CaptionStyle) :
    (subtitleDocument defaults cues style).isOk = true ↔ DocumentFits defaults cues := by
  have hpicture : ∀ v : Value, (resolutionOf v).isOk = true ↔
      ∃ width height, v.items = .ok [width, height] := by
    intro v
    rw [resolutionOf]
    split
    · next w h hvs => exact iff_of_true rfl ⟨w, h, hvs⟩
    · next vs hne hvs =>
      refine iff_of_false Bool.false_ne_true ?_
      rintro ⟨w, h, hpair⟩
      exact hne w h (Except.ok.inj (hvs.symm.trans hpair))
    · next hvs =>
      refine iff_of_false Bool.false_ne_true ?_
      rintro ⟨w, h, hpair⟩
      cases hvs.symm.trans hpair
  have hlines : ((shownCues cues).mapM Cue.line).isOk = true ↔ ∀ c ∈ shownCues cues, c.HasTimes :=
    Outcome.isOk_mapM.trans (forall₂_congr fun c _ => c.isOk_line_iff)
  rw [subtitleDocument]
  dsimp only
  rw [Outcome.isOk_bind_bind fun _ _ => rfl, Bool.and_eq_true, hpicture, hlines]
  exact ⟨fun h => ⟨h.1, h.2⟩, fun h => ⟨h.picture, h.times⟩⟩

/-! ## The file -/

/-- A file is kept if there is something under its name, or a place for it. -/
theorem contained_keep_iff {file : Path} {shown text : String} :
    (exists? file >>= fun found => if found then pure file else
      files >>= fun f => ofFault (f.write file shown text) >>= fun g =>
        setFiles g >>= fun _ => pure file).Contained σ ↔
      ((σ.files.lookup file).isSome = true ∨ σ.files.TakesFile file) := by
  by_cases hlong : σ.files.locate file = .tooLong
  · have hnowhere : (σ.files.lookup file).isSome = false := by
      rw [Storage.lookup, hlong]
      rfl
    refine iff_of_false (fun h => ?_) ?_
    · have hexists := hinges_exists?.contained_iff.mp (contained_bind.mp h).1
      exact Storage.isOk_exists?_iff.mp hexists hlong
    · rintro (hfound | htakes)
      · exact Bool.false_ne_true (hnowhere.symm.trans hfound)
      · cases hlong.symm.trans htakes.leads
  · have hexec : (exists? file).exec σ = (.ok (σ.files.lookup file).isSome, σ) := by
      rw [exec_exists?, Storage.exists?_eq_ok hlong, Outcome.mapError_ok]
    rw [contained_bind_of_ok hexec]
    cases (σ.files.lookup file).isSome with
    | true => exact iff_of_true contained_pure (.inl rfl)
    | false =>
        rw [if_neg Bool.false_ne_true, contained_bind_of_ok exec_files,
          hinges_ofFault.contained_bind_iff (Q := True) fun g _ _ _ => iff_true_intro ?_]
        · simp [Storage.isOk_write_iff]
        · exact (contained_bind_of_ok (exec_setFiles g)).mpr contained_pure

/-- **Captions are written** just if their document fits and their file can be kept. -/
theorem contained_writeCaptions_iff {s : Settings} {cues : List Cue} {style : CaptionStyle} :
    (writeCaptions s cues style).Contained σ ↔ DocumentFits s.caption cues ∧
      ∀ document, subtitleDocument s.caption cues style = .ok document →
        σ.files.CanKeep s.tempPath (s.captionFile document) := by
  rw [← isOk_subtitleDocument_iff style]
  refine hinges_ofFault.contained_bind_iff ?_
  intro document σ₁ hdocument hσ₁
  have hdocument := Outcome.mapError_eq_ok.mp (congrArg Prod.fst hdocument)
  rw [hdocument, ← hσ₁]
  simp only [Except.ok.injEq, forall_eq']
  cases hmake : σ₁.files.makeDirs s.tempPath with
  | error c =>
      have hdir : (tempDir s).exec σ₁ = (.error (.fault c), σ₁) := by
        rw [exec_tempDir, hmake]
      refine iff_of_false (fun h => ?_) ?_
      · exact absurd ((contained_bind.mp h).1 _ (congrArg Prod.fst hdir)) Bool.false_ne_true
      · rintro ⟨g, hg, -⟩
        cases hg.symm.trans hmake
  | ok g =>
      have hdir : (tempDir s).exec σ₁ = (.ok s.tempPath, { σ₁ with files := g }) := by
        rw [exec_tempDir, hmake]
      rw [contained_bind_of_ok hdir]
      refine contained_keep_iff.trans ?_
      simp only [Storage.CanKeep, hmake, Except.ok.injEq, exists_eq_left']
      rfl

theorem hinges_captionStyleOf {s : Settings} {p : CaptionParams} :
    (captionStyleOf s p).Hinges σ ((CaptionStyle.resolve s.caption p).isOk = true) :=
  hinges_ofFault.andThen fun _ _ => hinges_warnAll.after fun _ _ _ _ => hinges_pure

theorem returns_captionStyleOf {s : Settings} {p : CaptionParams} :
    Returns (captionStyleOf s p) fun r => CaptionStyle.resolve s.caption p = .ok r :=
  (returns_ofFault fun _ h => h).bind fun _ h => .after fun _ => .pure h

/-- **Captions** are compiled or refused just if they fit. -/
theorem contained_compileCaptions_iff {s : Settings} {p : CaptionParams} (h : p.IsChecked) :
    (compileCaptions s p).Contained σ ↔ p.FilterFits s σ.files := by
  have hrest : (compileCaptions s p).Contained σ ↔
      (CaptionStyle.resolve s.caption p).isOk = true ∧
        (∀ t, p.file = .string t → t ≠ "" → σ.files.locate (.ofString t) ≠ .tooLong) ∧
        (p.file.isTruthy = false → p.cues ≠ [] → DocumentFits s.caption p.cues ∧
          ∀ style warnings document, CaptionStyle.resolve s.caption p = .ok (style, warnings) →
            subtitleDocument s.caption p.cues style = .ok document →
              σ.files.CanKeep s.tempPath (s.captionFile document)) := by
    refine hinges_captionStyleOf.contained_bind_iff fun (style, warnings) σ₁ hexec hσ₁ => ?_
    have hresolve := returns_captionStyleOf σ _ (congrArg Prod.fst hexec)
    dsimp only
    by_cases htruthy : p.file.isTruthy = true
    · obtain ⟨t, ht, hne⟩ := h.file.exists_string htruthy
      have hpath : Settings.pathOf p.file = .ok (.ofString t) := by rw [ht]; rfl
      rw [if_pos htruthy, hpath, contained_bind_of_ok (exec_ofFault _)]
      refine (hinges_exists?.contained_bind_iff (Q := True) fun found σ₂ _ _ => ?_).trans ?_
      · cases found with
        | true => exact iff_true_intro contained_pure
        | false => exact iff_true_intro contained_refuse
      · rw [Storage.isOk_exists?_iff, hσ₁, ht]
        simp only [and_true, Value.string.injEq, forall_eq']
        refine ⟨fun hlong => ⟨fun _ => hlong, ?_⟩, fun h => h.1 hne⟩
        rw [← ht, htruthy]
        exact nofun
    · have hgiven : ∀ t, p.file = .string t → t ≠ "" →
          σ.files.locate (.ofString t) ≠ .tooLong := by
        rintro t ht hne
        rw [ht] at htruthy
        exact absurd (decide_eq_true hne) htruthy
      rw [if_neg htruthy, iff_true_intro hgiven, true_and, Bool.eq_false_iff.mpr htruthy]
      by_cases hcues : p.cues = []
      · rw [hcues]
        refine iff_of_true ?_ fun _ hne => absurd rfl hne
        exact contained_warn_pure
      · have hfull : ¬p.cues.isEmpty = true := by simpa using hcues
        rw [if_neg hfull, contained_bind, and_iff_left fun _ _ _ => contained_pure,
          contained_writeCaptions_iff, hσ₁]
        refine ⟨fun h _ _ => ⟨h.1, fun style' warnings' document hstyle hdocument => ?_⟩,
          fun h => ⟨(h rfl hcues).1, fun document => (h rfl hcues).2 _ _ document hresolve⟩⟩
        obtain ⟨rfl, rfl⟩ : style = style' ∧ warnings = warnings' := by
          simpa using hresolve.symm.trans hstyle
        exact h.2 document hdocument
  rw [h.isOk_resolve_iff] at hrest
  refine hrest.trans ⟨?_, fun h => ?_⟩
  · rintro ⟨⟨hcolor, hsize⟩, hgiven, hwritten⟩
    exact ⟨hcolor, hsize, hgiven, fun hfile hcues => (hwritten hfile hcues).1,
      fun hfile hcues => (hwritten hfile hcues).2⟩
  · exact ⟨⟨h.color, h.size⟩, h.given, fun hfile hcues =>
      ⟨h.document hfile hcues, h.kept hfile hcues⟩⟩

end Montage
