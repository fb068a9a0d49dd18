import Montage.Proofs.Files.Storage
import Montage.Proofs.Json.ReadBack
import Montage.Proofs.Session
import Montage.Proofs.Value
import Montage.Settings.Stored

/-!
# Settings that are kept

Settings are written as an object, in which every group has all of its defaults and every path is a
text. So nothing is filled in where the object is read again, and the settings in it are written as
the same object. A file of settings is written in ASCII without carriage returns, and is read as it
was written.

## Main definitions

* `Settings.IsComplete`: settings whose groups complete their defaults.

## Main statements

* `Settings.isComplete_of_ofFields`: settings that were read are complete.
* `Settings.ofFields_toFields`: complete settings are read back from what they are written as.
* `Settings.exists_exec_save`, `Settings.exec_load`: a file of settings is written, and read.
* `Settings.exists_save_load_of_keeps`: settings are kept in a file if their numbers are read back.
* `Settings.kept_of_ofValue`: settings that were read are kept by an object and by a file.
-/
namespace Montage

namespace Settings

/-- Every group of the settings completes its defaults, and the paths are such as texts name. -/
structure IsComplete (s : Settings) : Prop where
  render : renderDefaults.Completes s.render
  preview : previewDefaults.Completes s.preview
  text : textDefaults.Completes s.text
  caption : captionDefaults.Completes s.caption
  templateFile : ∀ p ∈ s.templateFile, p.WellFormed
  tempDir : ∀ p ∈ s.tempDir, p.WellFormed
  fontFile : ∀ p ∈ s.fontFile, p.WellFormed

variable {fs d defaults gs : Fields} {key : String} {s : Settings} {path : Option Path} {p : Path}
  {σ : Session}

/-! ## Settings as an object -/

theorem completes_of_group (hdefaults : (defaults.map Prod.fst).Nodup)
    (h : group fs key defaults = .ok gs) : defaults.Completes gs := by
  unfold group at h
  split at h
  · obtain ⟨put, -, h⟩ := Outcome.bind_eq_ok.mp h
    obtain rfl := Except.ok.inj h
    exact (Fields.Completes.refl hdefaults).merge put
  · obtain rfl := Except.ok.inj h
    exact .refl hdefaults

theorem group_of_completes (hget : fs.get? key = some (.object gs))
    (h : defaults.Completes gs) : group fs key defaults = .ok gs := by
  rw [group, hget]
  exact congrArg Except.ok h.merge_eq

theorem wellFormed_of_path? (h : path? fs key = .ok path) : ∀ p ∈ path, p.WellFormed := by
  rw [path?] at h
  split at h
  · obtain ⟨p, hp, rfl⟩ := Outcome.map_eq_ok.mp h
    intro q hq
    obtain rfl := Option.some.inj hq
    unfold pathOf at hp
    split at hp
    · exact Except.ok.inj hp ▸ Path.wellFormed_ofString _
    · cases hp
  · obtain rfl := Except.ok.inj h
    nofun

theorem isTruthy_text (h : p.WellFormed) : (Value.string p.text).isTruthy = true := by
  refine decide_eq_true fun hempty => ?_
  have hp : p = Path.ofString "" := by rw [← hempty, Path.ofString_text h]
  rw [hp] at hempty
  exact absurd hempty (by decide)

theorem path?_of_get (hget : fs.get key = pathValue path) (h : ∀ p ∈ path, p.WellFormed) :
    path? fs key = .ok path := by
  rw [path?, hget]
  cases path with
  | none => rfl
  | some p =>
      have hp : p.WellFormed := h p rfl
      rw [pathValue, if_pos (isTruthy_text hp), pathOf, Path.ofString_text hp]
      rfl

/-- **Settings that were read** are complete. -/
theorem isComplete_of_ofFields (h : ofFields fs = .ok s) : s.IsComplete := by
  obtain ⟨render, hrender, h⟩ := Outcome.bind_eq_ok.mp h
  obtain ⟨preview, hpreview, h⟩ := Outcome.bind_eq_ok.mp h
  obtain ⟨text, htext, h⟩ := Outcome.bind_eq_ok.mp h
  obtain ⟨caption, hcaption, h⟩ := Outcome.bind_eq_ok.mp h
  dsimp only at h
  split at h <;>
    · obtain ⟨grades, -, h⟩ := Outcome.bind_eq_ok.mp h
      obtain ⟨templateFile, htemplate, h⟩ := Outcome.bind_eq_ok.mp h
      obtain ⟨tempDir, htemp, h⟩ := Outcome.bind_eq_ok.mp h
      obtain ⟨fontFile, hfont, h⟩ := Outcome.bind_eq_ok.mp h
      obtain rfl := Except.ok.inj h
      exact ⟨completes_of_group (by decide) hrender, completes_of_group (by decide) hpreview,
        completes_of_group (by decide) htext, completes_of_group (by decide) hcaption,
        wellFormed_of_path? htemplate, wellFormed_of_path? htemp, wellFormed_of_path? hfont⟩

/-- **Complete settings** are read back from what they are written as, with the resolution as a
list, and are written as the same again. -/
theorem ofFields_toFields (hs : s.IsComplete) (hd : s.toFields = .ok d) :
    ∃ s', ofFields d = .ok s' ∧ s'.toFields = .ok d := by
  obtain ⟨items, -, hwritten⟩ := Outcome.bind_eq_ok.mp hd
  have hd' := Except.ok.inj hwritten
  refine ⟨{ s with caption := s.caption.set "play_res" (.list items) }, ?_, ?_⟩
  · have hrender : group d "render_settings" renderDefaults = .ok s.render :=
      group_of_completes (by rw [← hd']; rfl) hs.render
    have hpreview : group d "preview_settings" previewDefaults = .ok s.preview :=
      group_of_completes (by rw [← hd']; rfl) hs.preview
    have htext : group d "text_settings" textDefaults = .ok s.text :=
      group_of_completes (by rw [← hd']; rfl) hs.text
    have hcaption : group d "caption_settings" captionDefaults =
        .ok (s.caption.set "play_res" (.list items)) :=
      group_of_completes (by rw [← hd']; rfl) (hs.caption.set _ _)
    have hgrades : d.get? "color_presets" = some (.object s.grades) := by rw [← hd']; rfl
    have htemplate : path? d "template_file" = .ok s.templateFile :=
      path?_of_get (by rw [← hd']; rfl) hs.templateFile
    have htemp : path? d "temp_dir" = .ok s.tempDir :=
      path?_of_get (by rw [← hd']; rfl) hs.tempDir
    have hfont : path? d "font_file" = .ok s.fontFile :=
      path?_of_get (by rw [← hd']; rfl) hs.fontFile
    have hdebug : (d.get "debug").isTruthy = s.debug := by rw [← hd']; rfl
    rw [ofFields, hrender, hpreview, htext, hcaption, hgrades, htemplate, htemp, hfont, hdebug]
    rfl
  · have hresolution : (s.caption.set "play_res" (.list items)).set "play_res" (.list items) =
        s.caption.set "play_res" (.list items) := Fields.set_eq_self Fields.get?_set_self
    refine Outcome.bind_eq_ok.mpr ⟨items, ?_, ?_⟩
    · rw [Fields.get?_set_self]
      rfl
    · dsimp only
      rw [hresolution]
      exact hwritten

/-! ## Settings in a file -/

section

variable {format : SettingsFormat} (hformat : SettingsFormat.ofSuffix p.suffix = .ok format)

include hformat

/-- **Settings are written** to a place for a file. -/
theorem exists_exec_save (htakes : σ.files.TakesFile p) (hd : s.toFields = .ok d) :
    ∃ σ', (s.save p).exec σ = (.ok (), σ') ∧ σ'.files.Holds p (format.write (.object d)) := by
  obtain ⟨f, hempty, hagain, -⟩ := Storage.exists_write htakes p.text ""
  obtain ⟨g, hwrite, -, hholds⟩ := Storage.exists_write hagain p.text (format.write (.object d))
  refine ⟨{ σ with files := g }, ?_, hholds⟩
  unfold save
  rw [Action.exec_bind_of_ok Action.exec_files, hempty,
    Action.exec_bind_of_ok (Action.exec_ofFault _), Action.exec_bind_of_ok (Action.exec_setFiles f),
    hformat, Action.exec_bind_of_ok (Action.exec_ofFault _), hd,
    Action.exec_bind_of_ok (Action.exec_ofFault _), Action.exec_bind_of_ok Action.exec_files,
    hwrite, Action.exec_bind_of_ok (Action.exec_ofFault _)]
  rfl

/-- **Settings are read** from a file whose text is read as something. -/
theorem exec_load {text : String} {v : Value} (hholds : σ.files.Holds p text)
    (hreturn : '\r' ∉ text.toList) (hread : format.read text = .ok v) (hv : v.isTruthy = true)
    (hof : ofValue v = .ok s) : (load p).exec σ = (.ok s, σ) := by
  obtain ⟨hlocate, hentry⟩ := Storage.holds_iff.mp hholds
  have hplace : σ.files.filePlace p p.text = .ok p.place := by
    refine Storage.filePlace_eq_ok.mpr ⟨hlocate, ?_⟩
    rcases hentry with hentry | hentry <;> simp [hentry]
  have hexists : (Action.exists? p).exec σ = (.ok true, σ) := by
    rw [Action.exec_exists?, Storage.exists?_of_holds hholds]
    rfl
  unfold load
  rw [Action.exec_bind_of_ok hexists, Bool.not_true, if_neg Bool.false_ne_true,
    Action.exec_bind_of_ok Action.exec_files, hplace,
    Action.exec_bind_of_ok (Action.exec_ofFault _), hformat,
    Action.exec_bind_of_ok (Action.exec_ofFault _), Storage.readLines_of_holds hholds hreturn,
    Action.exec_bind_of_ok (Action.exec_ofFault _), hread,
    Action.exec_bind_of_ok (Action.exec_ofFault _), if_pos hv, hof]
  rfl

end

theorem notMem_pages (v : Value) : '\r' ∉ (Json.pages v).toList := fun h =>
  absurd (Json.isPlain_pages v _ h) (by decide)

/-- **Complete settings are kept in a file**, if the text in it is read back. -/
theorem exists_save_load (hs : s.IsComplete) (hd : s.toFields = .ok d) (hjson : p.suffix = ".json")
    (htakes : σ.files.TakesFile p)
    (hread : Json.parse (Json.pages (.object d)) = .ok (.object d)) :
    ∃ σ' s', (s.save p).exec σ = (.ok (), σ') ∧ (load p).exec σ' = (.ok s', σ') ∧
      s'.toFields = .ok d := by
  obtain ⟨s', hs', hd'⟩ := ofFields_toFields hs hd
  have hformat : SettingsFormat.ofSuffix p.suffix = .ok .json := by rw [hjson]; rfl
  have htruthy : (Value.object d).isTruthy = true := by
    obtain ⟨_, -, hwritten⟩ := Outcome.bind_eq_ok.mp hd
    rw [← Except.ok.inj hwritten]
    rfl
  obtain ⟨σ', hsave, hholds⟩ := exists_exec_save hformat htakes hd
  exact ⟨σ', s', hsave, exec_load hformat hholds (notMem_pages _) hread htruthy hs', hd'⟩

/-- **Settings of numbers that are read back** are kept in a file. -/
theorem exists_save_load_of_keeps (hs : s.IsComplete) (hd : s.toFields = .ok d)
    (hjson : p.suffix = ".json") (htakes : σ.files.TakesFile p)
    (hkeeps : Json.Keeps (.object d)) :
    ∃ σ' s', (s.save p).exec σ = (.ok (), σ') ∧ (load p).exec σ' = (.ok s', σ') ∧
      s'.toFields = .ok d :=
  exists_save_load hs hd hjson htakes (Json.parse_pages hkeeps)

/-- **Settings that were read are kept**: what they are written as is read, and written as the same;
and so are they in a file, if the text in it is read back. -/
theorem kept_of_ofValue (hs : ofValue (.object fs) = .ok s) (hd : s.toFields = .ok d) :
    (∃ s', ofValue (.object d) = .ok s' ∧ s'.toFields = .ok d) ∧
      ∀ (p : Path) (σ : Session), p.suffix = ".json" → σ.files.TakesFile p →
        Json.parse (Json.pages (.object d)) = .ok (.object d) →
          ∃ σ' s', (s.save p).exec σ = (.ok (), σ') ∧ (load p).exec σ' = (.ok s', σ') ∧
            s'.toFields = .ok d :=
  have hcomplete : s.IsComplete := isComplete_of_ofFields hs
  ⟨ofFields_toFields hcomplete hd, fun _ _ hjson htakes hread =>
    exists_save_load hcomplete hd hjson htakes hread⟩

/-- Larger text, kept in a file. -/
theorem kept_larger_text :
    ∃ s d, ofValue (.object [("text_settings", .object [("font_size", .int 30)]),
        ("temp_dir", .string "work//")]) = .ok s ∧ s.toFields = .ok d ∧
      (∃ s', ofValue (.object d) = .ok s' ∧ s'.toFields = .ok d) ∧
        ∃ σ' s', (s.save (.ofString "config.json")).exec (.of .empty [] []) = (.ok (), σ') ∧
          (load (.ofString "config.json")).exec σ' = (.ok s', σ') ∧ s'.toFields = .ok d := by
  let s : Settings := { default with
    text := textDefaults.set "font_size" (.int 30), tempDir := some (.ofString "work//") }
  obtain ⟨d, hd⟩ : ∃ d, s.toFields = .ok d := ⟨_, rfl⟩
  have hs : ofValue (.object [("text_settings", .object [("font_size", .int 30)]),
      ("temp_dir", .string "work//")]) = .ok s := rfl
  have htakes : (Session.of .empty [] []).files.TakesFile (.ofString "config.json") :=
    ⟨Storage.locate_name (by decide) (by decide), nofun, rfl⟩
  have hint {n : Int} (hn : n.natAbs < 10 ^ 4) : Json.IsReadBack (.int n) :=
    Json.isReadBack_int (((Nat.length_toDigits_le_iff (by decide) (by decide)).mpr hn).trans
      (by decide))
  have hkeeps : Json.Keeps (.object d) := by
    rw [← Except.ok.inj hd]
    simp [-one_div, s, default, renderDefaults, previewDefaults, textDefaults, captionDefaults,
      Fields.set, pathValue, hint, Json.isReadBack_half]
  obtain ⟨hobject, hfile⟩ := kept_of_ofValue hs hd
  exact ⟨s, d, hs, hd, hobject, hfile _ _ (by decide) htakes (Json.parse_pages hkeeps)⟩

end Settings

end Montage
