import Montage.Filter.Compile
import Montage.Proofs.Edit.StepPath
import Montage.Proofs.Session

/-!
# What compiling changes

An operation is compiled to filters without any change of the stored files, except that captions may
be written to a file of their own in the directory for temporary files. Such a file is then listed
as one to be deleted after the rendering.

## Main definitions

* `Settings.tempPath`, `Settings.captionFile`: the temporary directory, and files of captions in it.
* `Settings.captionPlaces`: the places of all files of captions.
* `Expression.ListsCaptions`: only files of captions are to be deleted.
* `Storage.WithCaptions`: the stored files after captions were written.

## Main statements

* `meets_compileCaptions`: what is written for captions.
* `Studio.meets_compileOperation`: what is changed by compiling an operation.
-/
namespace Montage

/-- The directory for files that are written on the way. -/
def Settings.tempPath (s : Settings) : Path := s.tempDir.getD (.ofString "tmp/vedit")

/-- The file of captions with the given document. -/
def Settings.captionFile (s : Settings) (document : String) : Path :=
  s.tempPath.child (captionFileName document)

/-- A file of captions is read back from its text. -/
theorem Settings.ofString_captionFile {s : Settings} (htemp : s.tempPath.WellFormed)
    (document : String) : Path.ofString (s.captionFile document).text = s.captionFile document :=
  Path.ofString_child htemp document

/-- The places of all files of captions. -/
def Settings.captionPlaces (s : Settings) : Set Place :=
  {q | ∃ document, q = (s.captionFile document).place}

/-- Only files of captions are to be deleted after the filters were used. -/
def Expression.ListsCaptions (s : Settings) (e : Expression) : Prop :=
  ∀ path ∈ e.scratch, ∃ document, path = (s.captionFile document).text

theorem Expression.ListsCaptions.of_nil {s : Settings} {e : Expression} (h : e.scratch = []) :
    e.ListsCaptions s := by
  intro path hpath
  rw [h] at hpath
  exact absurd hpath List.not_mem_nil

open Montage.Action

variable {s : Settings} {W D : Set Place}

/-! ## Captions -/

theorem exec_tempDir (s : Settings) (σ : Session) : (tempDir s).exec σ =
    match σ.files.makeDirs s.tempPath with
    | .ok g => (.ok s.tempPath, { σ with files := g })
    | .error c => (.error (.fault c), σ) := by
  rw [Settings.tempPath, tempDir, exec_bind_of_ok exec_files]
  cases σ.files.makeDirs (s.tempDir.getD (.ofString "tmp/vedit")) <;> rfl

theorem meets_tempDir : Meets W (Storage.way s.tempPath) (tempDir s) (· = s.tempPath) :=
  meets_changeFiles (fun _ _ h => (Storage.changed_of_makeDirs h).mono (Set.empty_subset W))
    (.pure rfl)

theorem meets_writeCaptions (cues : List Cue) (style : CaptionStyle) :
    Meets s.captionPlaces (Storage.way s.tempPath) (writeCaptions s cues style)
      (fun path => ∃ document, path = s.captionFile document) := by
  refine keeps_ofFault.andThen fun document => meets_tempDir.bind ?_
  rintro _ rfl
  have hfile : s.tempPath.child (captionFileName document) = s.captionFile document := rfl
  refine keeps_exists?.andThen fun found => ?_
  cases found with
  | true => exact .pure ⟨document, hfile⟩
  | false =>
      refine meets_changeFiles (fun f g h => (Storage.changed_of_write h).1.mono ?_)
        (.pure ⟨document, hfile⟩)
      rw [Set.singleton_subset_iff]
      exact ⟨document, by rw [hfile]⟩

theorem keeps_captionStyleOf (p : CaptionParams) : Keeps W D (captionStyleOf s p) :=
  keeps_ofFault.andThen fun _ => keeps_warnAll.andThen fun _ => .pure trivial

/-- **Captions** are written to one of their files, which is to be deleted. -/
theorem meets_compileCaptions (p : CaptionParams) :
    Meets s.captionPlaces (Storage.way s.tempPath) (compileCaptions s p)
      (Expression.ListsCaptions s) := by
  refine (keeps_captionStyleOf p).andThen fun (style, warnings) => ?_
  dsimp only
  split_ifs with hfile hcues
  · refine keeps_ofFault.andThen fun path => keeps_exists?.andThen fun found => ?_
    cases found with
    | true => exact .pure (.of_nil rfl)
    | false => exact meets_refuse
  · exact keeps_warn.andThen fun _ => .pure (.of_nil rfl)
  · refine (meets_writeCaptions p.cues style).bind ?_
    rintro path ⟨document, rfl⟩
    refine .pure fun path hpath => ⟨document, ?_⟩
    exact List.mem_singleton.mp hpath

/-- The stored files after captions with this document were written to their file; a file that was
there is left as it is. -/
def Storage.WithCaptions (f : Storage) (s : Settings) (document : String) (g : Storage) : Prop :=
  ∃ h, f.makeDirs s.tempPath = .ok h ∧
    (h.exists? (s.captionFile document) = .ok true ∧ g = h ∨
      h.exists? (s.captionFile document) = .ok false ∧
        h.write (s.captionFile document) (s.captionFile document).text document = .ok g)

/-- Captions that were written once are not written again. -/
theorem Storage.WithCaptions.again {f g : Storage} {document text : String}
    (h : f.WithCaptions s document g) (hholds : g.Holds (s.captionFile document) text) :
    g.WithCaptions s document g := by
  obtain ⟨f', hdirs, hfile⟩ := h
  have hdir : ∀ q, f'.entry? q = some .directory → g.entry? q = some .directory := by
    obtain ⟨-, rfl⟩ | ⟨-, hwrite⟩ := hfile
    · exact fun _ hq => hq
    · exact (changed_of_write (D := ∅) hwrite).1.directories
  exact ⟨g, makeDirs_again hdirs hdir, .inl ⟨exists?_of_holds hholds, rfl⟩⟩

section

variable {σ : Session} {g : Storage} {cues : List Cue} {style : CaptionStyle} {document : String}
  (hcaptions : σ.files.WithCaptions s document g)

include hcaptions

theorem exec_writeCaptions (hdocument : subtitleDocument s.caption cues style = .ok document) :
    (writeCaptions s cues style).exec σ =
      (.ok (s.captionFile document), { σ with files := g }) := by
  obtain ⟨f, hdirs, hfile⟩ := hcaptions
  have hdir : (tempDir s).exec σ = (.ok s.tempPath, { σ with files := f }) := by
    rw [exec_tempDir, hdirs]
  unfold writeCaptions
  rw [hdocument, exec_bind_of_ok (exec_ofFault _), exec_bind_of_ok hdir]
  have hchild : s.tempPath.child (captionFileName document) = s.captionFile document := rfl
  rw [hchild]
  obtain ⟨hfound, rfl⟩ | ⟨habsent, hwrite⟩ := hfile
  · rw [exec_bind, exec_exists?, hfound, Outcome.mapError_ok]
    rfl
  · rw [exec_bind, exec_exists?, habsent, Outcome.mapError_ok]
    dsimp only
    rw [if_neg Bool.false_ne_true, exec_bind_of_ok exec_files, hwrite,
      exec_bind_of_ok (exec_ofFault _), exec_bind_of_ok (exec_setFiles g)]
    rfl

/-- Captions are drawn from their file, and it is to be deleted, even if it was there before. -/
theorem exec_compileCaptions {p : CaptionParams}
    (hstyle : CaptionStyle.resolve s.caption p = .ok (style, []))
    (hfile : p.file.isTruthy = false) (hcues : p.cues.isEmpty = false)
    (hdocument : subtitleDocument s.caption p.cues style = .ok document) :
    (compileCaptions s p).exec σ =
      (.ok { Expression.ofVideo [subtitleStage (s.captionFile document) none] with
        scratch := [(s.captionFile document).text] }, { σ with files := g }) := by
  have hresolve : (captionStyleOf s p).exec σ = (.ok (style, []), σ) := by
    unfold captionStyleOf
    rw [hstyle]
    rfl
  unfold compileCaptions
  rw [exec_bind_of_ok hresolve, hfile, hcues]
  exact exec_bind_of_ok (exec_writeCaptions hcaptions hdocument)

end

/-! ## All other edits -/

theorem keeps_foundLook {α : Type} {f : Found α} : Keeps W D (foundLook f) :=
  keeps_warnAll.andThen fun _ => .pure trivial

theorem keeps_drawtextColor {color fallback : Value} :
    Keeps W D (drawtextColor color fallback) := by
  unfold drawtextColor
  split
  · split
    · exact .pure trivial
    · refine keeps_warn.andThen fun _ => ?_
      split
      · exact keeps_ofFault.andThen fun _ => .pure trivial
      · exact keeps_ofFault.andThen fun _ => meets_faulted
  · exact meets_faulted

theorem meets_compileEffect {found : Found Effect} {strength : Binary64} {level : Option Binary64} :
    Meets W D (Studio.compileEffect found strength level) (·.scratch = []) :=
  keeps_foundLook.andThen fun _ => keeps_ofFault.andThen fun _ => .pure rfl

theorem meets_compileIntensity {p : IntensityParams} :
    Meets W D (Studio.compileIntensity p) (·.scratch = []) := by
  unfold Studio.compileIntensity
  dsimp only
  split
  · exact keeps_ofFault.andThen fun _ => .pure rfl
  · exact .pure rfl

theorem meets_speed {p : SpeedParams} : Meets W D (ofEdit p.expression) (·.scratch = []) := by
  refine meets_ofEdit fun e he => ?_
  rw [SpeedParams.expression] at he
  split_ifs at he
  · rw [← Except.ok.inj he]
    rfl
  · rw [← Except.ok.inj he]
    rfl

namespace Studio

variable {s : Studio}

theorem meets_compileGrade {p : GradeParams} : Meets W D (s.compileGrade p) (·.scratch = []) :=
  keeps_foundLook.andThen fun _ => keeps_ofFault.andThen fun _ => keeps_ofFault.andThen fun _ =>
    keeps_warnAll.andThen fun _ => .pure rfl

theorem keeps_fontOptions {font : Value} : Keeps W D (s.fontOptions font) := by
  refine keeps_files.andThen fun _ => keeps_ofFault.andThen fun path => ?_
  cases path <;> exact .pure trivial

theorem keeps_backgroundOptions {background : Value} :
    Keeps W D (s.backgroundOptions background) := by
  unfold backgroundOptions
  split_ifs
  · exact keeps_drawtextColor.andThen fun _ => .pure trivial
  · exact .pure trivial

theorem meets_compileText {p : TextParams} : Meets W D (s.compileText p) (·.scratch = []) :=
  keeps_ofFault.andThen fun _ => keeps_ofFault.andThen fun _ => keeps_warnAll.andThen fun _ =>
    keeps_ofFault.andThen fun _ => keeps_warnAll.andThen fun _ => keeps_fontOptions.andThen fun _ =>
      keeps_drawtextColor.andThen fun _ => keeps_backgroundOptions.andThen fun _ =>
        keeps_ofFault.andThen fun _ => .pure rfl

/-- Only captions are written anywhere. -/
theorem meets_compileEdit (edit : Edit) :
    Meets s.settings.captionPlaces (Storage.way s.settings.tempPath) (s.compileEdit edit)
      (Expression.ListsCaptions s.settings) := by
  have hnil {a : Action Expression} (ha : Meets s.settings.captionPlaces
      (Storage.way s.settings.tempPath) a (·.scratch = [])) :
      Meets s.settings.captionPlaces (Storage.way s.settings.tempPath) a
        (Expression.ListsCaptions s.settings) :=
    ha.mono subset_rfl fun _ h => .of_nil h
  cases edit with
  | trim p => exact hnil (.pure rfl)
  | removeClip p => exact meets_refuse
  | colorGrade p => exact hnil meets_compileGrade
  | applyEffect p => exact hnil meets_compileEffect
  | addText p => exact hnil meets_compileText
  | customText p => exact hnil meets_compileText
  | filter p => exact hnil meets_compileEffect
  | addCaptions p => exact meets_compileCaptions p
  | adjustIntensity p => exact hnil meets_compileIntensity
  | adjustZoom p =>
      refine hnil (.pure ?_)
      rw [compileZoom]
      split_ifs <;> rfl
  | adjustSpeed p => exact hnil meets_speed
  | rotate p => exact hnil (.pure rfl)
  | crop p => exact hnil (keeps_ofFault.andThen fun _ => .pure rfl)

theorem meets_applyWindow {kind : Kind} {window : Window} {e : Expression}
    (h : e.ListsCaptions s.settings) :
    Meets W D (applyWindow kind window e) (Expression.ListsCaptions s.settings) := by
  unfold applyWindow
  split_ifs
  · exact .pure h
  · exact keeps_ofFault.andThen fun _ => .pure h
  · exact keeps_warn.andThen fun _ => .pure h

/-- **Compiling an operation** writes files of captions at most, and lists what it wrote. -/
theorem meets_compileOperation (o : Operation) :
    Meets s.settings.captionPlaces (Storage.way s.settings.tempPath) (s.compileOperation o)
      (Expression.ListsCaptions s.settings) := by
  refine (meets_compileEdit o.edit).bind fun e he => ?_
  cases o.window with
  | none => exact .pure he
  | some window => exact meets_applyWindow he

end Studio

end Montage
