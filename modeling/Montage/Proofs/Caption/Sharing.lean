import Mathlib.Logic.Relation
import Montage.Proofs.Filter.Compiling

/-!
# Files of captions

The same captions share one file, which is named after its document. Compiling captions writes the
file unless there is one; rendering deletes it. What any request does to the stored files is made of
few steps, and each of them leaves a file of captions in order: there is none, or it holds the
document that it is named after.

## Main definitions

* `Operation.document?`: the subtitle document of an operation.
* `Settings.FileStep`: one change of the stored files by an operation.
* `Storage.IsOrderly`, `Storage.HasListed`: files of captions that are in order, and that are there.
* `Action.Moves`: an action changes the stored files by certain steps.

## Main statements

* `Settings.FileStep.isOrderly`, `Settings.FileStep.holds`: what a step leaves in order.
* `Studio.moves_compileOperation`: the steps of compiling an operation.
-/
namespace Montage

/-- The subtitle document of an operation, if it draws captions that are given one by one. -/
def Operation.document? (settings : Settings) (o : Operation) : Option String :=
  match o.edit with
  | .addCaptions p =>
    if p.file.isTruthy || p.cues.isEmpty then none
    else
      match CaptionStyle.resolve settings.caption p with
      | .ok (style, _) => (subtitleDocument settings.caption p.cues style).toOption
      | .error _ => none
  | _ => none

/-- One change of the stored files by an operation with this document, which is rendered to this
output, if there is one. -/
inductive Settings.FileStep (settings : Settings) (document : Option String)
    (output : Option Path) : Storage → Storage → Prop
  /-- Nothing changes, except for new directories on the way to temporary files. -/
  | directories {f g : Storage} (h : f.Changed ∅ (Storage.way settings.tempPath) g) :
      FileStep settings document output f g
  /-- The document is written, where no file has its name. -/
  | written {f g : Storage} {d : String} (hd : document = some d)
      (habsent : f.entry? (settings.captionFile d).place = none)
      (h : f.write (settings.captionFile d) (settings.captionFile d).text d = .ok g) :
      FileStep settings document output f g
  /-- The output is rendered. -/
  | rendered {f g : Storage} {p : Path} {text : String} (hp : output = some p)
      (h : f.write p p.text text = .ok g) : FileStep settings document output f g
  /-- The file of the document is deleted after a rendering. -/
  | removed {f g : Storage} {d : String} (hd : document = some d) (houtput : output ≠ none)
      (h : f.remove (settings.captionFile d) = .ok g) : FileStep settings document output f g

/-- There is no file of captions with this document, or it holds the document. -/
def Storage.IsOrderly (f : Storage) (settings : Settings) (document : String) : Prop :=
  f.entry? (settings.captionFile document).place = none ∨
    f.Holds (settings.captionFile document) document

/-- The paths list the file of the document at most, and that is there. -/
def Storage.HasListed (f : Storage) (settings : Settings) (document : Option String)
    (paths : List String) : Prop :=
  ∀ path ∈ paths, ∃ d, document = some d ∧ path = (settings.captionFile d).text ∧
    f.entry? (settings.captionFile d).place ≠ none

variable {settings : Settings} {document : Option String} {output : Option Path} {f g : Storage}
  {d d' text : String} {p : Path}

/-! ## Stored files -/

namespace Storage

/-- What is there is in the place of its path. -/
theorem entry?_ne_none_of_exists? (h : f.exists? p = .ok true) : f.entry? p.place ≠ none := by
  intro hnone
  rw [exists?, lookup_eq_none hnone] at h
  split at h <;> cases h

/-- Where a file can be written and none is there, nothing is in its place. -/
theorem entry?_eq_none_of_write {shown : String} (h : f.exists? p = .ok false)
    (hwrite : f.write p shown text = .ok g) : f.entry? p.place = none := by
  obtain ⟨q, hq, -⟩ := Outcome.bind_eq_ok.mp hwrite
  obtain ⟨hlocate, -⟩ := filePlace_eq_ok.mp hq
  obtain rfl := locate_eq_place hlocate
  rw [exists?, lookup, hlocate] at h
  exact Option.not_isSome_iff_eq_none.mp (Bool.not_eq_true _ ▸ Except.ok.inj h)

/-- Nothing is left in the place of a file that was removed, if anything changed. -/
theorem eq_or_entry?_of_remove (h : f.remove p = .ok g) : g = f ∨ g.entry? p.place = none := by
  rw [remove] at h
  split at h
  · cases h
  · cases h
  · exact .inl (Except.ok.inj h).symm
  · rename_i q hlocate
    obtain rfl := locate_eq_place hlocate
    split at h
    · cases h
    · rename_i hentry
      obtain rfl := Except.ok.inj h
      right
      rw [entry?_delete (ne_nil_of_ne_directory hentry), if_pos rfl]

end Storage

/-! ## What steps leave in order -/

theorem Settings.place_captionFile (settings : Settings) (d : String) :
    (settings.captionFile d).place = settings.tempPath.place ++ [captionFileName d] :=
  Path.place_child (Path.captionFileName_ne_dots d)

/-- Documents whose files have one place have one name for them. -/
theorem Settings.captionFileName_eq_of_place
    (h : (settings.captionFile d).place = (settings.captionFile d').place) :
    captionFileName d = captionFileName d' := by
  rw [settings.place_captionFile, settings.place_captionFile] at h
  exact List.singleton_inj.mp (List.append_cancel_left h)

theorem Path.foldl_step {parts place : List String} (hup : ".." ∉ parts) :
    parts.foldl step place = place ++ parts := by
  induction parts generalizing place with
  | nil => rw [List.foldl_nil, List.append_nil]
  | cons part parts ih =>
      obtain ⟨hpart, hparts⟩ := not_or.mp (List.mem_cons.not.mp hup)
      rw [List.foldl_cons, step, if_neg (Ne.symm hpart), ih hparts, List.append_assoc,
        List.singleton_append]

/-- A file of captions is not on the way to its directory, if that way never leads back. -/
theorem Settings.captionFile_notMem_way (hup : ".." ∉ settings.tempPath.parts) (d : String) :
    (settings.captionFile d).place ∉ Storage.way settings.tempPath := by
  rintro ⟨n, hway⟩
  have htake : ".." ∉ settings.tempPath.parts.take n := fun h => hup (List.mem_of_mem_take h)
  rw [settings.place_captionFile, Path.place, Path.place, Path.foldl_step hup,
    Path.foldl_step htake] at hway
  have hlength := congrArg List.length hway
  simp only [List.length_append, List.length_nil, List.length_singleton, List.length_take]
    at hlength
  omega

namespace Settings.FileStep

/-- **One step** leaves the file of a document in order, if the document is the only one with this
name, and its file is no output. -/
theorem isOrderly (hstep : settings.FileStep document output f g)
    (hup : ".." ∉ settings.tempPath.parts)
    (hname : ∀ d, document = some d → captionFileName d = captionFileName d' → d = d')
    (houtput : ∀ p, output = some p → p.place ≠ (settings.captionFile d').place)
    (h : f.IsOrderly settings d') : g.IsOrderly settings d' := by
  -- A step elsewhere changes neither what is missing nor what is there.
  have hothers {W : Set Place} (hchanged : f.Changed W (Storage.way settings.tempPath) g)
      (hW : (settings.captionFile d').place ∉ W) : g.IsOrderly settings d' := by
    refine h.imp (fun hnone => ?_) fun hholds => hchanged.holds hW hholds
    rw [hchanged.entry?_eq hW (captionFile_notMem_way hup d'), hnone]
  cases hstep with
  | directories hchanged => exact hothers hchanged (Set.notMem_empty _)
  | @written d hd habsent hwrite =>
      by_cases hplace : (settings.captionFile d').place = (settings.captionFile d).place
      · obtain rfl := hname d hd (captionFileName_eq_of_place hplace.symm)
        exact .inr (Storage.changed_of_write (D := ∅) hwrite).2
      · exact hothers (Storage.changed_of_write hwrite).1 hplace
  | rendered hp hwrite =>
      exact hothers (Storage.changed_of_write hwrite).1 (houtput _ hp).symm
  | @removed d hd _ hremove =>
      by_cases hplace : (settings.captionFile d').place = (settings.captionFile d).place
      · obtain rfl | hnone := Storage.eq_or_entry?_of_remove hremove
        · exact h
        · left
          rw [hplace]
          exact hnone
      · exact hothers (Storage.changed_of_remove hremove) hplace

/-- **One step** spares a file, if it is no output, and if no rendering has it for its document. -/
theorem spares (hstep : settings.FileStep document output f g)
    (hrender : ∀ d, document = some d → output ≠ none → p.place ≠ (settings.captionFile d).place)
    (houtput : ∀ q, output = some q → q.place ≠ p.place) : f.Spares p g := by
  cases hstep with
  | directories hchanged => exact hchanged.spares (Set.notMem_empty _)
  | @written d hd habsent hwrite =>
      intro hfile
      refine (Storage.changed_of_write (D := ∅) hwrite).1.spares ?_ hfile
      -- Nothing was in the place where the document is written.
      intro hplace
      obtain ⟨entry, hentry, -⟩ := hfile
      rw [Storage.lookup_eq_none (hplace ▸ habsent)] at hentry
      cases hentry
  | rendered hp hwrite =>
      exact (Storage.changed_of_write (D := ∅) hwrite).1.spares (houtput _ hp).symm
  | removed hd hrenders hremove =>
      exact (Storage.changed_of_remove (D := ∅) hremove).spares (hrender _ hd hrenders)

/-- **One step** spares a file that is there, if it is no output, and if a rendering has another
document. -/
theorem holds (hstep : settings.FileStep document output f g)
    (hrender : ∀ d, document = some d → output ≠ none →
      (settings.captionFile d').place ≠ (settings.captionFile d).place)
    (houtput : ∀ p, output = some p → p.place ≠ (settings.captionFile d').place)
    (h : f.Holds (settings.captionFile d') text) : g.Holds (settings.captionFile d') text :=
  (hstep.spares hrender houtput).holds h

end Settings.FileStep

/-! ## Following the stored files -/

namespace Action

variable {α β : Type} {a : Action α} {k : α → Action β} {s : Session} {x : α}
  {E : Storage → Storage → Prop} {P Q : α → Storage → Prop} {R : β → Storage → Prop}
  {W D : Set Place}

/-- In the session `s` the action changes the stored files by steps `E`, whether it fails or not;
what it yields has the property `Q` with the files after it. -/
def Moves (E : Storage → Storage → Prop) (a : Action α) (s : Session)
    (Q : α → Storage → Prop) : Prop :=
  Relation.ReflTransGen E s.files (a.exec s).2.files ∧
    ∀ x, (a.exec s).1 = .ok x → Q x (a.exec s).2.files

/-- An action that leaves the stored files as they are. -/
theorem moves_of_eq (hfiles : (a.exec s).2.files = s.files)
    (hP : ∀ x, (a.exec s).1 = .ok x → P x s.files) : Moves E a s P := by
  rw [Moves, hfiles]
  exact ⟨.refl, hP⟩

namespace Moves

theorem pure (h : Q x s.files) : Moves E (pure x) s Q :=
  moves_of_eq rfl fun _ hy => Except.ok.inj hy ▸ h

theorem mono (h : Moves E a s P) (hPQ : ∀ x f, P x f → Q x f) : Moves E a s Q :=
  ⟨h.1, fun x hx => hPQ x _ (h.2 x hx)⟩

/-- Steps that are steps of another kind. -/
theorem weaken {E' : Storage → Storage → Prop} (h : Moves E a s Q)
    (hE : ∀ f g, E f g → E' f g) : Moves E' a s Q :=
  ⟨Relation.ReflTransGen.mono hE _ _ h.1, h.2⟩

/-- What an action yields in any session. -/
theorem and_returns {U : α → Prop} (h : Moves E a s Q) (hU : Returns a U) :
    Moves E a s fun x f => Q x f ∧ U x := ⟨h.1, fun x hx => ⟨h.2 x hx, hU s x hx⟩⟩

/-- **One action after another.** -/
theorem bind (ha : Moves E a s P) (hk : ∀ x s', P x s'.files → Moves E (k x) s' R) :
    Moves E (a >>= k) s R := by
  obtain ⟨hmoves, hP⟩ := ha
  rw [Moves, exec_bind]
  rcases h : a.exec s with ⟨r, s'⟩
  rw [h] at hmoves hP
  cases r with
  | error e => exact ⟨hmoves, nofun⟩
  | ok x =>
      obtain ⟨hmoves', hR⟩ := hk x s' (hP x rfl)
      exact ⟨hmoves.trans hmoves', hR⟩

/-- An action that leaves the stored files as they are, and another one. -/
theorem bind_of_eq (hfiles : (a.exec s).2.files = s.files)
    (hk : ∀ x s', s'.files = s.files → Moves E (k x) s' R) : Moves E (a >>= k) s R :=
  (moves_of_eq (P := fun _ f => f = s.files) hfiles fun _ _ => rfl).bind hk

/-- What an action yields, whether it fails or not. -/
theorem outcome (h : Moves E a s P) :
    Moves E a.outcome s fun r f => ∀ x, r = .ok x → P x f := by
  refine ⟨h.1, fun r hr x hx => h.2 x ?_⟩
  obtain rfl := Except.ok.inj hr
  exact hx

end Moves

theorem moves_refuse {e : EditError} : Moves E (refuse e) s Q := ⟨.refl, nofun⟩

theorem moves_faulted {c : Fault} : Moves E (faulted c) s Q := ⟨.refl, nofun⟩

/-- An action that changes no file moves by the step that makes directories. -/
theorem Meets.moves {P : α → Prop} (h : Meets ∅ D a P)
    (hE : ∀ f g, Storage.Changed ∅ D f g → E f g) : Moves E a s fun x _ => P x := by
  obtain ⟨hchanged, hP⟩ := h s
  exact ⟨.single (hE _ _ hchanged.files), hP⟩

/-- A change of the stored files, and what is done after it. -/
theorem moves_changeFiles {change : Storage → Except Fault Storage} {next : Unit → Action β}
    (hchange : ∀ g, change s.files = .ok g →
      E s.files g ∧ Moves E (next ()) { s with files := g } R) :
    Moves E (files >>= fun f => ofFault (change f) >>= fun g => setFiles g >>= next) s R := by
  rw [Moves, exec_bind_of_ok exec_files, exec_bind, exec_ofFault]
  rcases h : change s.files with f | g
  · exact ⟨.refl, nofun⟩
  · rw [Outcome.mapError_ok]
    dsimp only
    rw [exec_bind_of_ok (exec_setFiles g)]
    obtain ⟨hstep, hmoves, hR⟩ := hchange g h
    exact ⟨.head hstep hmoves, hR⟩

end Action

open Montage.Action

/-! ## Compiling captions -/

variable {σ : Session}

/-- What changes no file makes new directories at most. -/
theorem moves_of_meets {α : Type} {a : Action α} {P : α → Prop}
    (h : Meets ∅ (Storage.way settings.tempPath) a P) :
    Moves (settings.FileStep document output) a σ fun x _ => P x :=
  h.moves fun _ _ => .directories

theorem moves_writeCaptions {cues : List Cue} {style : CaptionStyle}
    (hdocument : ∀ d, subtitleDocument settings.caption cues style = .ok d → document = some d) :
    Moves (settings.FileStep document output) (writeCaptions settings cues style) σ
      fun path f => ∃ d, document = some d ∧ path = settings.captionFile d ∧
        f.entry? path.place ≠ none := by
  refine (moves_of_meets (meets_ofFault fun _ h => h)).bind fun d s₁ hd => ?_
  refine (moves_of_meets meets_tempDir).bind ?_
  rintro _ s₂ rfl
  have hfile : settings.tempPath.child (captionFileName d) = settings.captionFile d := rfl
  rw [hfile]
  have hexists : Moves (settings.FileStep document output) (exists? (settings.captionFile d)) s₂
      fun found f => f.exists? (settings.captionFile d) = .ok found :=
    moves_of_eq rfl fun _ h => Outcome.mapError_eq_ok.mp h
  refine hexists.bind fun found s₃ hfound => ?_
  cases found with
  | true => exact .pure ⟨d, hdocument d hd, rfl, Storage.entry?_ne_none_of_exists? hfound⟩
  | false =>
      refine moves_changeFiles fun g hwrite => ?_
      have habsent := Storage.entry?_eq_none_of_write hfound hwrite
      have hholds := (Storage.changed_of_write (D := ∅) hwrite).2
      refine ⟨.written (hdocument d hd) habsent hwrite, .pure ⟨d, hdocument d hd, rfl, ?_⟩⟩
      exact Storage.entry?_ne_none_of_exists? (Storage.exists?_of_holds hholds)

theorem Storage.hasListed_nil : f.HasListed settings document [] :=
  fun _ h => absurd h List.not_mem_nil

/-- **Captions** are compiled by the steps of their document, which lists its file. -/
theorem moves_compileCaptions (p : CaptionParams) (window : Option Window) :
    Moves (settings.FileStep ((⟨.addCaptions p, window⟩ : Operation).document? settings) output)
      (compileCaptions settings p) σ
      fun e f => f.HasListed settings
        ((⟨.addCaptions p, window⟩ : Operation).document? settings) e.scratch := by
  have hstyle : Meets ∅ (Storage.way settings.tempPath) (captionStyleOf settings p)
      fun r => CaptionStyle.resolve settings.caption p = .ok r :=
    (meets_ofFault fun _ h => h).bind fun r hr => keeps_warnAll.andThen fun _ => .pure hr
  refine (moves_of_meets hstyle).bind fun (style, warnings) s₁ hresolve => ?_
  dsimp only
  split_ifs with hfile hcues
  · refine (moves_of_meets keeps_ofFault).bind fun path s₂ _ => ?_
    refine (moves_of_meets keeps_exists?).bind fun found s₃ _ => ?_
    cases found with
    | true => exact .pure Storage.hasListed_nil
    | false => exact moves_refuse
  · refine (moves_of_meets keeps_warn).bind fun _ s₂ _ => ?_
    exact .pure Storage.hasListed_nil
  · have hdocument : ∀ d, subtitleDocument settings.caption p.cues style = .ok d →
        (⟨.addCaptions p, window⟩ : Operation).document? settings = some d := by
      intro d hd
      simp [Operation.document?, hfile, hcues, hresolve, hd, Except.toOption]
    refine (moves_writeCaptions hdocument).bind ?_
    rintro path s₂ ⟨d, hd, rfl, hthere⟩
    refine .pure fun path hpath => ⟨d, hd, List.mem_singleton.mp hpath, hthere⟩

namespace Studio

variable {s : Studio}

theorem moves_compileEdit (o : Operation) :
    Moves (s.settings.FileStep (o.document? s.settings) output) (s.compileEdit o.edit) σ
      fun e f => f.HasListed s.settings (o.document? s.settings) e.scratch := by
  have hnil {a : Action Expression}
      (ha : Meets ∅ (Storage.way s.settings.tempPath) a (·.scratch = [])) :
      Moves (s.settings.FileStep (o.document? s.settings) output) a σ
        fun e f => f.HasListed s.settings (o.document? s.settings) e.scratch :=
    (moves_of_meets ha).mono fun _ _ h => by
      rw [h]
      exact Storage.hasListed_nil
  obtain ⟨edit, window⟩ := o
  cases edit with
  | trim p => exact hnil (.pure rfl)
  | removeClip p => exact moves_refuse
  | colorGrade p => exact hnil meets_compileGrade
  | applyEffect p => exact hnil meets_compileEffect
  | addText p => exact hnil meets_compileText
  | customText p => exact hnil meets_compileText
  | filter p => exact hnil meets_compileEffect
  | addCaptions p => exact moves_compileCaptions p window
  | adjustIntensity p => exact hnil meets_compileIntensity
  | adjustZoom p =>
      refine hnil (.pure ?_)
      rw [compileZoom]
      split_ifs <;> rfl
  | adjustSpeed p => exact hnil meets_speed
  | rotate p => exact hnil (.pure rfl)
  | crop p => exact hnil (keeps_ofFault.andThen fun _ => .pure rfl)

/-- What limits an expression to a window does not touch its files. -/
theorem moves_applyWindow {kind : Kind} {window : Window} {e : Expression}
    (h : σ.files.HasListed settings document e.scratch) {E : Storage → Storage → Prop} :
    Moves E (applyWindow kind window e) σ fun e f => f.HasListed settings document e.scratch := by
  unfold applyWindow
  split_ifs
  · exact .pure h
  · exact .bind_of_eq rfl fun _ s' hs' => .pure (hs' ▸ h)
  · exact .bind_of_eq rfl fun _ s' hs' => .pure (hs' ▸ h)

/-- **Compiling an operation** changes the stored files by the steps of its document, and lists the
file of that. -/
theorem moves_compileOperation (o : Operation) :
    Moves (s.settings.FileStep (o.document? s.settings) output) (s.compileOperation o) σ
      fun e f => f.HasListed s.settings (o.document? s.settings) e.scratch := by
  refine (moves_compileEdit o).bind fun e s₁ he => ?_
  cases o.window with
  | none => exact .pure he
  | some window => exact moves_applyWindow he

end Studio

end Montage
