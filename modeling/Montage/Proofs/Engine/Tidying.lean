import Montage.Proofs.Caption.Cues
import Montage.Proofs.Engine.Moving
import Montage.Proofs.Engine.Numbering

/-!
# What a rendering of captions leaves behind

Captions are written to a file of their own before they are rendered. The renderer can be missing,
fail, or be stopped, and the media may not even be readable; however the attempt ends, that file is
not left behind. Nothing but writing the file comes last among what can fail in compiling captions,
so captions that are not compiled have changed no file. Captions that are compiled list their file,
the command of an expression always has a form, and what comes after it is done for good or ill
before the file is deleted. The file is deleted even if it was there before; every other file stays
what it is, also one with captions that the user has written.

## Main definitions

* `Storage.file?`: the file in a place.
* `Workshop.scratchPlaces`: the places that the expression of an attempt names for deletion.
* `Settings.IsTidied`: the directory for temporary files has no new file, and no other file of it
  has changed.
* `Action.Ends`: what an action leaves where it succeeds, and where it fails.

## Main statements

* `ends_compileCaptions`: captions list what they change, or change nothing.
* `Workshop.file?_renderDraft`: what is listed is gone, however the rendering ends.
* `Workshop.isTidied_authoritative`: an attempt to render captions leaves no file behind.
-/
namespace Montage

namespace Storage

/-- The file in a place; a directory is none. -/
def file? (f : Storage) (q : Place) : Option Entry := (f.entry? q).filter (· ≠ .directory)

/-- Both storages have the same files, whatever their directories are. -/
def SameFiles (f g : Storage) : Prop := ∀ q, g.file? q = f.file? q

/-- The path leads to its place in the second storage, and all other files are the same. -/
structure DiffersAt (p : Path) (f g : Storage) : Prop where
  leads : g.locate p = .at p.place
  others : ∀ q ≠ p.place, g.file? q = f.file? q

end Storage

/-- There is no file in the directory for temporary files that was not there before, and outside of
the named places its files are what they were. -/
structure Settings.IsTidied (settings : Settings) (named : Set Place) (f g : Storage) : Prop where
  fresh : ∀ q, settings.tempPath.place <+: q → g.file? q ≠ none → f.file? q ≠ none
  spared : ∀ q ∉ named, settings.tempPath.place <+: q → g.file? q = f.file? q

/-- What an expression lists for deletion is all that may have changed. -/
def Expression.ListsChanges (settings : Settings) (e : Expression) (f g : Storage) : Prop :=
  e.scratch = [] ∧ f.SameFiles g ∨
    ∃ d, e.scratch = [(settings.captionFile d).text] ∧ e.isEmpty = false ∧
      f.DiffersAt (settings.captionFile d) g

namespace Workshop

/-- The places that what the attempt compiles names for deletion. -/
def scratchPlaces (w : Workshop) (o : Operation) (t : Target) (s : Session) : Set Place :=
  {q | ∃ d, w.DraftsInto o t s d ∧ ∃ path ∈ d.compiled.scratch, q = (Path.ofString path).place}

end Workshop

open Montage.Action

variable {f g g' : Storage} {p : Path} {q : Place} {W D : Set Place} {shown text : String}

/-! ## Files in their places -/

namespace Storage

theorem SameFiles.refl (f : Storage) : f.SameFiles f := fun _ => rfl

theorem SameFiles.trans (hfg : f.SameFiles g) (hgg' : g.SameFiles g') : f.SameFiles g' :=
  fun q => (hgg' q).trans (hfg q)

theorem file?_congr (h : g.entry? q = f.entry? q) : g.file? q = f.file? q := by
  rw [file?, file?, h]

theorem file?_of_directory (h : f.entry? q = some .directory) : f.file? q = none := by
  rw [file?, h]
  rfl

/-- New directories are no files, so that a place that is spared has the same file as before. -/
theorem Changed.file?_eq (hfg : Changed W D f g) (hq : q ∉ W) : g.file? q = f.file? q := by
  rcases hfg.others q hq with hsame | ⟨hnone, -, hdir⟩
  · exact file?_congr hsame
  · rw [file?_of_directory hdir, file?, hnone]
    rfl

theorem Changed.sameFiles (hfg : Changed ∅ D f g) : f.SameFiles g :=
  fun q => hfg.file?_eq (Set.notMem_empty q)

/-- A path under which something is found leads to its place. -/
theorem locate_of_exists? (h : f.exists? p = .ok true) : f.locate p = .at p.place := by
  rw [exists?] at h
  cases hlocate : f.locate p with
  | «at» q => rw [locate_eq_place hlocate]
  | tooLong =>
      rw [hlocate] at h
      cases h
  | nowhere | blocked =>
      rw [lookup, hlocate] at h
      cases h

theorem differsAt_of_write (h : f.write p shown text = .ok g) : f.DiffersAt p g := by
  obtain ⟨hchanged, hholds⟩ := changed_of_write (D := ∅) h
  exact ⟨(holds_iff.mp hholds).1, fun q hq => hchanged.file?_eq hq⟩

theorem DiffersAt.of_sameFiles (h : g.DiffersAt p g') (hfg : f.SameFiles g) : f.DiffersAt p g' :=
  ⟨h.leads, fun q hq => (h.others q hq).trans (hfg q)⟩

/-- **Removing** a path that leads to its place leaves no file there, and no other change. -/
theorem file?_of_remove (hleads : f.locate p = .at p.place) (h : f.remove p = .ok g) :
    g.file? p.place = none ∧ ∀ q ≠ p.place, g.file? q = f.file? q := by
  refine ⟨?_, fun q hq => (changed_of_remove (D := ∅) h).file?_eq hq⟩
  rw [remove, hleads] at h
  dsimp only at h
  split at h
  · cases h
  · rename_i hentry
    obtain rfl := Except.ok.inj h
    rw [file?, entry?_delete (ne_nil_of_ne_directory hentry), if_pos rfl]
    rfl

/-- Where removing fails for a path that leads to its place, there is no file. -/
theorem file?_of_not_remove {c : Fault} (hleads : f.locate p = .at p.place)
    (h : f.remove p = .error c) : f.file? p.place = none := by
  rw [remove, hleads] at h
  dsimp only at h
  split at h
  · rename_i hdir
    exact file?_of_directory hdir
  · cases h

end Storage

/-! ## Actions that end in one way or the other -/

namespace Action

variable {α β : Type} {a : Action α} {k : α → Action β} {s : Session} {x : α}
  {P : α → Prop} {U U' : α → Session → Prop} {R : β → Session → Prop} {V : Session → Prop}

/-- In the session `s` the action yields a value with the property `U` in the session after it, or
it fails and leaves a session with the property `V`. -/
def Ends (a : Action α) (s : Session) (U : α → Session → Prop) (V : Session → Prop) : Prop :=
  (∀ x s', a.exec s = (.ok x, s') → U x s') ∧ ∀ e s', a.exec s = (.error e, s') → V s'

namespace Ends

theorem of_ok {s' : Session} (h : a.exec s = (.ok x, s')) (hU : U x s') : Ends a s U V := by
  rw [Ends, h]
  refine ⟨fun y s'' heq => ?_, fun c s'' heq => nomatch (Prod.mk.inj heq).1⟩
  obtain ⟨hy, rfl⟩ := Prod.mk.inj heq
  exact Except.ok.inj hy ▸ hU

theorem of_error {c : Failure} {s' : Session} (h : a.exec s = (.error c, s')) (hV : V s') :
    Ends a s U V := by
  rw [Ends, h]
  refine ⟨fun x s'' heq => (nomatch (Prod.mk.inj heq).1), fun c' s'' heq => ?_⟩
  obtain ⟨-, rfl⟩ := Prod.mk.inj heq
  exact hV

theorem pure (h : U x s) : Ends (pure x) s U V := of_ok rfl h

theorem mono (h : Ends a s U V) (hU : ∀ x s', U x s' → U' x s') : Ends a s U' V :=
  ⟨fun x s' hx => hU x s' (h.1 x s' hx), h.2⟩

/-- **One action after another**, which fails like the first one fails. -/
theorem bind (ha : Ends a s U V) (hk : ∀ x s', U x s' → Ends (k x) s' R V) :
    Ends (a >>= k) s R V := by
  rw [Ends, exec_bind]
  rcases h : a.exec s with ⟨r, s'⟩
  cases r with
  | error c =>
      refine ⟨fun x s'' heq => (nomatch (Prod.mk.inj heq).1), fun c' s'' heq => ?_⟩
      obtain ⟨-, rfl⟩ := Prod.mk.inj heq
      exact ha.2 c _ h
  | ok x => exact hk x s' (ha.1 x s' h)

/-- What holds of the session after an action, whether it fails or not. -/
theorem snd (h : Ends a s (fun _ => V) V) : V (a.exec s).2 := by
  rcases hexec : a.exec s with ⟨r, s'⟩
  cases r with
  | error c => exact h.2 c s' hexec
  | ok x => exact h.1 x s' hexec

end Ends

/-- A change of the stored files, and what is done after it. -/
theorem ends_changeFiles {change : Storage → Except Fault Storage} {next : Unit → Action β}
    (hfailed : ∀ c, change s.files = .error c → V s)
    (hnext : ∀ g, change s.files = .ok g → Ends (next ()) { s with files := g } R V) :
    Ends (files >>= fun f => ofFault (change f) >>= fun g => setFiles g >>= next) s R V := by
  rw [Ends, exec_bind_of_ok exec_files, exec_bind, exec_ofFault]
  rcases h : change s.files with c | g
  · refine ⟨fun x s' heq => (nomatch (Prod.mk.inj heq).1), fun c' s' heq => ?_⟩
    obtain ⟨-, rfl⟩ := Prod.mk.inj heq
    exact hfailed c h
  · rw [Outcome.mapError_ok]
    dsimp only
    rw [exec_bind_of_ok (exec_setFiles g)]
    exact hnext g h

/-- An action that changes no file, after others that have changed none. -/
theorem Meets.ends (ha : Meets ∅ D a P) (hf : f.SameFiles s.files) :
    Ends a s (fun x s' => P x ∧ f.SameFiles s'.files) fun s' => f.SameFiles s'.files := by
  obtain ⟨hchanged, hP⟩ := ha s
  have hsame := hf.trans hchanged.files.sameFiles
  constructor
  · intro x s' hexec
    rw [hexec] at hP hsame
    exact ⟨hP x rfl, hsame⟩
  · intro c s' hexec
    rw [hexec] at hsame
    exact hsame

end Action

/-! ## Compiling captions -/

section

variable {settings : Settings} {s : Session}

theorem ends_writeCaptions {cues : List Cue} {style : CaptionStyle}
    (hf : f.SameFiles s.files) :
    Ends (writeCaptions settings cues style) s
      (fun path s' => ∃ d, path = settings.captionFile d ∧ f.DiffersAt path s'.files)
      fun s' => f.SameFiles s'.files := by
  refine (keeps_ofFault.ends (D := ∅) hf).bind fun d s₁ ⟨_, h₁⟩ => ?_
  refine (meets_tempDir.ends h₁).bind ?_
  rintro _ s₂ ⟨rfl, h₂⟩
  have hfile : settings.tempPath.child (captionFileName d) = settings.captionFile d := rfl
  rw [hfile]
  have hexists : Ends (exists? (settings.captionFile d)) s₂
      (fun found s' => s' = s₂ ∧ s₂.files.exists? (settings.captionFile d) = .ok found)
      fun s' => f.SameFiles s'.files := by
    rw [Ends, exec_exists?]
    constructor
    · intro found s' heq
      obtain ⟨hfound, rfl⟩ := Prod.mk.inj heq
      exact ⟨rfl, Outcome.mapError_eq_ok.mp hfound⟩
    · intro c s' heq
      obtain ⟨-, rfl⟩ := Prod.mk.inj heq
      exact h₂
  refine hexists.bind ?_
  rintro found s₃ ⟨rfl, hfound⟩
  cases found with
  | true =>
      exact .pure ⟨d, rfl, Storage.locate_of_exists? hfound, fun q _ => h₂ q⟩
  | false =>
      -- Writing is the last step that can fail, and it has changed nothing then.
      refine ends_changeFiles (fun _ _ => h₂) fun g hwrite => .pure ⟨d, rfl, ?_⟩
      exact (Storage.differsAt_of_write hwrite).of_sameFiles h₂

/-- **Captions** list the file that they are written to, or they have changed no file. -/
theorem ends_compileCaptions (p : CaptionParams) (hf : f.SameFiles s.files) :
    Ends (compileCaptions settings p) s (fun e s' => e.ListsChanges settings f s'.files)
      fun s' => f.SameFiles s'.files := by
  refine ((keeps_captionStyleOf p).ends (D := ∅) hf).bind fun (style, warnings) s₁ ⟨_, h₁⟩ => ?_
  dsimp only
  split_ifs with hfile hcues
  · refine (keeps_ofFault.ends (D := ∅) h₁).bind fun path s₂ ⟨_, h₂⟩ => ?_
    refine (keeps_exists?.ends (D := ∅) h₂).bind fun found s₃ ⟨_, h₃⟩ => ?_
    cases found with
    | true => exact .pure (.inl ⟨rfl, h₃⟩)
    | false => exact .of_error rfl h₃
  · refine (keeps_warn.ends (D := ∅) h₁).bind fun _ s₂ ⟨_, h₂⟩ => ?_
    exact .pure (.inl ⟨rfl, h₂⟩)
  · refine (ends_writeCaptions h₁).bind ?_
    rintro path s₂ ⟨d, rfl, h₂⟩
    exact .pure (.inr ⟨d, rfl, rfl, h₂⟩)

/-- Captions that are limited to a window are applied to the whole clip, with a warning. -/
theorem ends_applyWindow {window : Window} {e : Expression}
    (h : e.ListsChanges settings f s.files) :
    Ends (Studio.applyWindow .addCaptions window e) s
      (fun e s' => e.ListsChanges settings f s'.files) fun s' => f.SameFiles s'.files :=
  .of_ok rfl h

end

namespace Studio

variable {studio : Studio} {s : Session} {o : Operation}

/-- **An operation** with captions lists what it changes. -/
theorem ends_compileOperation {p : CaptionParams} (hedit : o.edit = .addCaptions p)
    (hf : f.SameFiles s.files) :
    Ends (studio.compileOperation o) s (fun e s' => e.ListsChanges studio.settings f s'.files)
      fun s' => f.SameFiles s'.files := by
  have hkind : o.kind = .addCaptions := by
    rw [Operation.kind, hedit]
    rfl
  unfold compileOperation
  rw [hedit, hkind]
  refine (ends_compileCaptions p hf).bind fun e s₁ h₁ => ?_
  cases o.window with
  | none => exact .pure h₁
  | some window => exact ends_applyWindow h₁

end Studio

/-! ## Rendering captions -/

/-- A file that cannot be deleted is left as it is, with a note. -/
theorem exists_removeScratch_of_error {s : Session} {path : String} {c : Fault}
    (h : s.files.remove (.ofString path) = .error c) :
    ∃ s', (removeScratch [path]).exec s = (.ok (), s') ∧ s'.files = s.files := by
  refine ⟨{ s with journal := s.journal ++ [⟨.warning, strategySource,
    "Could not remove " ++ path ++ ": " ++ c.message⟩] }, ?_, rfl⟩
  exact (exec_bind_of_ok ((exec_tryChange_of_error h).trans (exec_warn _ _))).trans rfl

/-- Deleting a file by a path that leads to its place leaves no file there, whether the deletion is
possible or not. -/
theorem exists_removeScratch {settings : Settings} {s : Session} {d : String}
    (htemp : settings.tempPath.WellFormed)
    (hleads : s.files.locate (settings.captionFile d) = .at (settings.captionFile d).place) :
    ∃ s', (removeScratch [(settings.captionFile d).text]).exec s = (.ok (), s') ∧
      s'.files.file? (settings.captionFile d).place = none ∧
        ∀ q ≠ (settings.captionFile d).place, s'.files.file? q = s.files.file? q := by
  have hfile := Settings.ofString_captionFile htemp d
  cases hremove : s.files.remove (.ofString (settings.captionFile d).text) with
  | ok files =>
      rw [hfile] at hremove
      exact ⟨_, exec_removeScratch (hfile.symm ▸ hremove), Storage.file?_of_remove hleads hremove⟩
  | error c =>
      obtain ⟨s', hexec, hsame⟩ := exists_removeScratch_of_error hremove
      rw [hfile] at hremove
      refine ⟨s', hexec, ?_⟩
      rw [hsame]
      exact ⟨Storage.file?_of_not_remove hleads hremove, fun _ _ => rfl⟩

namespace Workshop

variable {w : Workshop} {o : Operation} {t : Target} {s : Session} {output : Path} {d : Draft}

/-- A draft of captions is an expression that lists what it changed. -/
def DraftLists (settings : Settings) (f g : Storage) : Except Outcome Draft → Prop
  | .ok d => ∃ e, d.compiled = .expression e ∧ e.ListsChanges settings f g
  | .error _ => f.SameFiles g

theorem ends_draft {p : CaptionParams} (hedit : o.edit = .addCaptions p)
    (hf : f.SameFiles s.files) :
    Ends (w.draft o t) s (fun r s' => DraftLists w.studio.settings f s'.files r)
      fun s' => f.SameFiles s'.files := by
  unfold draft
  rw [hedit]
  refine (Studio.ends_compileOperation hedit hf).bind fun e s₁ h₁ => ?_
  split_ifs with hempty
  · -- An expression without stages is not one that has a file.
    obtain ⟨-, hsame⟩ | ⟨d, -, hstages, -⟩ := h₁
    · exact (keeps_warn.ends (D := ∅) hsame).bind fun _ s₂ ⟨_, h₂⟩ => .pure h₂
    · rw [hempty] at hstages
      cases hstages
  · exact .pure ⟨e, rfl, h₁⟩

/-- What is listed is deleted, and no other file changes. -/
theorem exists_removeScratch_of_listsChanges {e : Expression} {s₀ : Session} {p : Path}
    (htemp : w.studio.settings.tempPath.WellFormed)
    (he : e.ListsChanges w.studio.settings f s₀.files)
    (hchanged : s₀.files.Changed {p.place} ∅ s.files) :
    ∃ s', (removeScratch e.scratch).exec s = (.ok (), s') ∧ ∀ q ≠ p.place,
      s'.files.file? q = f.file? q ∨
        (∃ path ∈ e.scratch, q = (Path.ofString path).place) ∧ s'.files.file? q = none := by
  obtain ⟨hscratch, hsame⟩ | ⟨d, hscratch, -, hdiffers⟩ := he
  · rw [hscratch]
    exact ⟨s, rfl, fun q hq => .inl ((hchanged.file?_eq hq).trans (hsame q))⟩
  · obtain ⟨s', hexec, hgone, hothers⟩ := exists_removeScratch htemp
      (Storage.locate_mono hchanged.directories hdiffers.leads)
    rw [hscratch]
    refine ⟨s', hexec, fun q hq => ?_⟩
    by_cases hplace : q = (w.studio.settings.captionFile d).place
    · refine .inr ⟨⟨_, List.mem_singleton_self _, ?_⟩, hplace ▸ hgone⟩
      rw [Settings.ofString_captionFile htemp, hplace]
    · left
      rw [hothers q hplace, hchanged.file?_eq hq, hdiffers.others q hplace]

/-- **What a draft lists is gone** after its rendering, however that ends; apart from it and the
output no file has changed since before the captions were compiled. -/
theorem file?_renderDraft {e : Expression} (htemp : w.studio.settings.tempPath.WellFormed)
    (houtput : output.WellFormed) (hcompiled : d.compiled = .expression e)
    (he : e.ListsChanges w.studio.settings f s.files) (hq : q ≠ output.place) :
    let g := ((w.renderDraft o t output d).exec s).2.files
    g.file? q = f.file? q ∨
      (∃ path ∈ e.scratch, q = (Path.ofString path).place) ∧ g.file? q = none := by
  obtain ⟨command, hcommand⟩ : ∃ command, renderCommand w.studio.settings (t.source.getD "")
      output.text d.compiled t.resource (t.hasAudio.getD true) = .ok command := by
    rw [hcompiled]
    exact ⟨_, rfl⟩
  have hchanged : s.files.Changed {output.place} ∅ ((render w.timeout command
      (d.compiled.length? t.duration) (.of o.kind.name w.listeners)).exec s).2.files := by
    rw [← Path.ofString_text houtput]
    exact (changed_render (getLast?_renderCommand hcommand)).files
  obtain ⟨s', hremoved, hfiles⟩ := exists_removeScratch_of_listsChanges htemp he hchanged
  have hlisted : d.compiled.scratch = e.scratch := by rw [hcompiled, Compiled.scratch]
  have hexec : ((w.renderDraft o t output d).exec s).2 = s' := by
    unfold renderDraft
    rw [hcommand, hlisted, exec_bind_of_ok (exec_ofFault _), exec_bind_of_ok exec_outcome,
      exec_bind_of_ok hremoved, exec_bind, exec_ofFailure]
    dsimp only
    split
    · rename_i heq
      exact (Prod.mk.inj heq).2.symm
    · rename_i heq
      exact (Prod.mk.inj heq).2.symm
  dsimp only
  rw [hexec]
  exact hfiles q hq

/-- **An attempt to render captions** changes no file but its output, except that the file which its
expression names may be gone. -/
theorem file?_authoritative {p : CaptionParams} (hedit : o.edit = .addCaptions p)
    (htarget : t.output = some output) (htemp : w.studio.settings.tempPath.WellFormed)
    (houtput : output.WellFormed) (hq : q ≠ output.place) :
    let g := ((w.authoritative.attempt o t).exec s).2.files
    g.file? q = s.files.file? q ∨ q ∈ w.scratchPlaces o t s ∧ g.file? q = none := by
  rw [authoritative]
  dsimp only
  rw [htarget]
  dsimp only
  split_ifs
  · exact .inl rfl
  · have hprobe := (keeps_probe (t := t) (w := w)).ends (D := ∅) (s := s) (.refl s.files)
    rw [exec_bind]
    rcases hprobed : (w.probe t).exec s with ⟨r, s₁⟩
    cases r with
    | error c => exact .inl (hprobe.2 c s₁ hprobed q)
    | ok t' =>
        obtain ⟨-, h₁⟩ := hprobe.1 t' s₁ hprobed
        have hdraft := ends_draft (w := w) (t := t') hedit h₁
        dsimp only
        rw [exec_bind]
        rcases hdrafted : (w.draft o t').exec s₁ with ⟨r, s₂⟩
        cases r with
        | error c => exact .inl (hdraft.2 c s₂ hdrafted q)
        | ok r =>
            have hlists := hdraft.1 r s₂ hdrafted
            cases r with
            | error outcome => exact .inl (hlists q)
            | ok d =>
                obtain ⟨e, hcompiled, he⟩ := hlists
                refine (file?_renderDraft htemp houtput hcompiled he hq).imp_right ?_
                rintro ⟨⟨path, hpath, hplace⟩, hgone⟩
                refine ⟨⟨d, ⟨t', s₁, s₂, hprobed, hdrafted⟩, path, ?_, hplace⟩, hgone⟩
                rwa [hcompiled]

end Workshop

end Montage
