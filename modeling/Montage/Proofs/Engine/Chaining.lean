import Montage.Proofs.Engine.Steps

/-!
# How a sequence chains its renderings

A sequence does all its steps, and each of them reads what the last step before it rendered. Then
the last rendered file is copied to the output, and all of them are deleted. Where no step renders a
file, the output is left alone. This takes an output apart from the directory for temporary files: a
file of captions is deleted when it is drawn, even if it was there before.

## Main definitions

* `Settled`: what is stored at the end of a sequence.
* `Engine.Chains`: a sequence that is done as it should be.

## Main statements

* `Reached.settled`, `Reached.exists_settled`: the end of a sequence.
* `Engine.runSequence_chains`: a whole sequence.
-/
namespace Montage

open Montage.Action

/-- What is stored at the end of a sequence. Where nothing was rendered, the output is as it was;
otherwise it holds what the last rendered file held after its step. No rendered file remains. -/
structure Settled (output : Path) (s : Session) (steps : List Passage) (final : Session) :
    Prop where
  untouched : rendersOf steps = [] → final.files.entry? output.place = s.files.entry? output.place
  copied : ∀ i p path, steps[i]? = some p → p.rendered? = some path →
    rendersOf (steps.drop (i + 1)) = [] →
      ∃ text, p.after.files.Holds path text ∧ final.files.Holds output text
  removed : ∀ path ∈ rendersOf steps, final.files.lookup path = none

/-- The requests are all done, one after another, and each of them on what the last one before it
rendered; in the end the output holds the last rendering. -/
def Engine.Chains (e : Engine) (requests : List Request) (original : Target) (output : Path)
    (s : Session) : Prop :=
  ∃ steps final,
    (e.runSequence requests original (.string "authoritative")).exec s =
      (.ok (steps.map Passage.result), final) ∧
    steps.map Passage.request = requests ∧
    (∀ (i : Nat) p, steps[i]? = some p → p.IsStep e original s (steps.take i)) ∧
    Settled output s steps final

variable {e : Engine} {original : Target} {output : Path} {s : Session} {done steps : List Passage}
  {p : Passage}

/-! ## The end of a sequence -/

/-- The files of different steps lie in different places. -/
theorem Reached.pairwise (h : Reached e original output s done) :
    (rendersOf done).Pairwise fun path path' => path.place ≠ path'.place := by
  rw [rendersOf, List.pairwise_filterMap, List.pairwise_iff_getElem]
  intro i j hi hj hij path hpath path' hpath'
  obtain ⟨rfl, -⟩ := h.stored i _ path (List.getElem?_eq_getElem hi) hpath
  obtain ⟨rfl, -⟩ := h.stored j _ path' (List.getElem?_eq_getElem hj) hpath'
  exact fun hplace => hij.ne (Path.place_stepPath_injective hplace)

/-- Every file that was rendered is the one of a step, and is still there. -/
theorem Reached.exists_stored {path : Path} (h : Reached e original output s done)
    (hpath : path ∈ rendersOf done) :
    ∃ n : Nat, path = output.stepPath n ∧ ∃ text, (sessionAfter s done).files.Holds path text := by
  obtain ⟨p, hp, hrendered⟩ := List.mem_filterMap.mp hpath
  obtain ⟨i, hi⟩ := List.mem_iff_getElem?.mp hp
  obtain ⟨heq, text, -, htext⟩ := h.stored i p path hi hrendered
  exact ⟨i, heq, text, htext⟩

/-- **Rendered files** in different places are all deleted, and nothing else is. -/
theorem exec_removeRenders (output : Path) (s : Session) {paths : List Path}
    (hne : ∀ path ∈ paths, path ≠ output)
    (hstored : ∀ path ∈ paths, ∃ text, s.files.Holds path text)
    (hapart : paths.Pairwise fun path path' => path.place ≠ path'.place) :
    ∃ s', (Engine.removeRenders paths output).exec s = (.ok (), s') ∧
      Storage.Changed {q | ∃ path ∈ paths, q = path.place} ∅ s.files s'.files ∧
      ∀ path ∈ paths, s'.files.entry? path.place = none := by
  have hfilter : paths.filter (· ≠ output) = paths :=
    List.filter_eq_self.mpr fun path hpath => decide_eq_true (hne path hpath)
  rw [Engine.removeRenders, hfilter]
  clear hfilter hne
  -- The files that are still to be deleted are there, as they lie in places of their own.
  induction paths generalizing s with
  | nil => exact ⟨s, rfl, .refl s.files, fun _ h => absurd h List.not_mem_nil⟩
  | cons path paths ih =>
      obtain ⟨⟨text, htext⟩, hrest⟩ := List.forall_mem_cons.mp hstored
      obtain ⟨hother, hapart⟩ := List.pairwise_cons.mp hapart
      obtain ⟨g, hremove, hchanged, hgone⟩ := Storage.exists_remove htext
      have hspared : ∀ path' ∈ paths, ∃ text, g.Holds path' text := by
        intro path' hpath'
        obtain ⟨text', htext'⟩ := hrest path' hpath'
        exact ⟨text', hchanged.holds (hother path' hpath').symm htext'⟩
      obtain ⟨s', hloop, hchanged', hgone'⟩ := ih { s with files := g } hspared hapart
      refine ⟨s', ?_, ?_, List.forall_mem_cons.mpr ⟨?_, hgone'⟩⟩
      · exact (exec_bind_of_ok (exec_tryChange hremove)).trans hloop
      · refine (hchanged.mono ?_).trans (hchanged'.mono ?_)
        · rw [Set.singleton_subset_iff]
          exact ⟨path, List.mem_cons_self, rfl⟩
        · exact fun q ⟨path', hpath', hq⟩ => ⟨path', List.mem_cons_of_mem _ hpath', hq⟩
      · refine (hchanged'.entry?_eq ?_ (Set.notMem_empty _)).trans hgone
        exact fun ⟨path', hpath', hplace⟩ => hother path' hpath' hplace

/-- The last file that was rendered is the one of a step after which no step rendered any. -/
theorem getLast?_rendersOf {i : Nat} {path : Path} (hi : steps[i]? = some p)
    (hpath : p.rendered? = some path) (hrest : rendersOf (steps.drop (i + 1)) = []) :
    (rendersOf steps).getLast? = some path := by
  obtain ⟨hlt, rfl⟩ := List.getElem?_eq_some_iff.mp hi
  have hsplit : steps.take i ++ [steps[i]] ++ steps.drop (i + 1) = steps := by
    rw [List.append_assoc, List.singleton_append, ← List.drop_eq_getElem_cons hlt,
      List.take_append_drop]
  have hrenders : rendersOf steps = rendersOf (steps.take i) ++ [path] := by
    calc rendersOf steps = rendersOf (steps.take i ++ [steps[i]] ++ steps.drop (i + 1)) := by
          rw [hsplit]
      _ = rendersOf (steps.take i ++ [steps[i]]) ++ rendersOf (steps.drop (i + 1)) :=
          List.filterMap_append
      _ = rendersOf (steps.take i) ++ [path] := by
          rw [hrest, List.append_nil, rendersOf_concat, hpath, Option.toList_some]
  rw [hrenders, List.getLast?_concat]

/-- The last rendered file can be copied to the output. -/
theorem Reached.exists_copied {last : Path} (h : Reached e original output s steps)
    (hname : output.NamesFile) (hfile : s.files.entry? output.place ≠ some .directory)
    (hlast : (rendersOf steps).getLast? = some last) :
    ∃ text files, (sessionAfter s steps).files.Holds last text ∧
      (sessionAfter s steps).files.copy last output = .ok files ∧
      Storage.Changed {output.place} ∅ (sessionAfter s steps).files files ∧
      files.Holds output text := by
  obtain ⟨n, rfl, text, htext⟩ := h.exists_stored (List.mem_of_getLast? hlast)
  obtain ⟨hlocate, hdir⟩ := Storage.locate_of_stepPath hname (Storage.holds_iff.mp htext).1
  obtain ⟨files, hcopy, hchanged, hholds⟩ :=
    Storage.exists_copy htext hlocate (by rwa [h.untouched]) hdir
  exact ⟨text, files, htext, hcopy, hchanged, hholds⟩

/-- Where nothing was rendered, nothing is left to be done. -/
theorem Reached.settled (h : Reached e original output s steps) (hnil : rendersOf steps = []) :
    Settled output s steps (sessionAfter s steps) where
  untouched _ := h.untouched
  copied i p path hi hpath hrest := by
    have hlast := getLast?_rendersOf hi hpath hrest
    rw [hnil] at hlast
    cases hlast
  removed path hpath := by
    rw [hnil] at hpath
    exact absurd hpath List.not_mem_nil

/-- The last rendered file is copied to the output, and the rendered files are deleted. -/
theorem Reached.exists_settled {last : Path} (h : Reached e original output s steps)
    (hname : output.NamesFile) (hfile : s.files.entry? output.place ≠ some .directory)
    (hlast : (rendersOf steps).getLast? = some last) :
    ∃ files final, (sessionAfter s steps).files.copy last output = .ok files ∧
      (Engine.removeRenders (rendersOf steps) output).exec { sessionAfter s steps with files } =
        (.ok (), final) ∧ Settled output s steps final := by
  obtain ⟨text, files, htext, hcopy, hcopied, hholds⟩ := h.exists_copied hname hfile hlast
  have hplace : ∀ path ∈ rendersOf steps, path.place ≠ output.place := by
    intro path hpath
    obtain ⟨n, rfl, -⟩ := h.exists_stored hpath
    exact Path.place_stepPath_ne hname
  have hkept : ∀ path ∈ rendersOf steps, ∃ text, files.Holds path text := by
    intro path hpath
    obtain ⟨n, -, text, htext⟩ := h.exists_stored hpath
    exact ⟨text, hcopied.holds (hplace path hpath) htext⟩
  obtain ⟨final, hremove, hchanged, hgone⟩ :=
    exec_removeRenders output { sessionAfter s steps with files }
      (fun path hpath heq => hplace path hpath (heq ▸ rfl)) hkept h.pairwise
  refine ⟨files, final, hcopy, hremove, fun hnil => ?_, fun i p path hi hpath hrest => ?_,
    fun path hpath => Storage.lookup_eq_none (hgone path hpath)⟩
  · rw [hnil] at hlast
    cases hlast
  · obtain rfl := Option.some.inj (hlast.symm.trans (getLast?_rendersOf hi hpath hrest))
    obtain ⟨-, text', hafter, hnow⟩ := h.stored i p last hi hpath
    obtain rfl : text' = text := Except.ok.inj (hnow.symm.trans htext)
    refine ⟨text', hafter, hchanged.holds ?_ hholds⟩
    exact fun ⟨path, hpath, heq⟩ => hplace path hpath heq.symm

/-- A sequence that rendered nothing ends with its last step. -/
theorem Engine.exec_runSequence_of_nil {requests : List Request} {s' : Session}
    (hrun : (requests.foldlM (e.runStep original (.string "authoritative"))
      (progressionOf original [])).exec s = (.ok (progressionOf original steps), s'))
    (hnil : rendersOf steps = []) :
    (e.runSequence requests original (.string "authoritative")).exec s =
      (.ok (steps.map Passage.result), s') := by
  refine (exec_bind_of_ok hrun).trans ?_
  dsimp only [progressionOf]
  rw [hnil]
  rfl

/-- An engine with nothing but the defaults. -/
def plainEngine : Engine := ⟨⟨.default, default⟩, 7200, [], []⟩

theorem tempPath_default : Settings.default.tempPath = ⟨"", ["tmp", "vedit"]⟩ := by decide

theorem wellFormed_tempPath_default : Settings.default.tempPath.WellFormed :=
  Path.wellFormed_ofString _

theorem place_captionFile_default (document : String) :
    (Settings.default.captionFile document).place = ["tmp", "vedit", captionFileName document] :=
  Path.place_child (Path.captionFileName_ne_dots document)

/-- A place beside the directory for temporary files. -/
theorem spares_default : Settings.default.Spares (.ofString "out.mp4") where
  captions := by
    have hplace : (Path.ofString "out.mp4").place = ["out.mp4"] := by decide
    rintro ⟨document, hfile⟩
    rw [hplace, place_captionFile_default] at hfile
    simp at hfile
  way := by
    rintro ⟨n, hway⟩
    rw [tempPath_default] at hway
    rcases n with _ | _ | n
    · exact absurd hway (by decide)
    · exact absurd hway (by decide)
    · have hall : ["tmp", "vedit"].take (n + 2) = ["tmp", "vedit"] :=
        List.take_of_length_le (Nat.le_add_left 2 n)
      dsimp only at hway
      rw [hall] at hway
      exact absurd hway (by decide)

/-- The file of captions with the given document is there already, and there is no renderer. -/
def keptSession (document : String) : Session :=
  .of ⟨[(["in.mp4"], .text "v"), (["tmp"], .directory), (["tmp", "vedit"], .directory),
    (["tmp", "vedit", captionFileName document], .text "kept")]⟩ [.missing] []

/-- A film whose output is a file of captions. -/
def keptTarget (document : String) : Target :=
  ⟨some "in.mp4", none, some (Settings.default.captionFile document), .video, some (.int 10),
    some true⟩

section

variable (document : String)

theorem captionFile_default :
    Settings.default.captionFile document = ⟨"", ["tmp", "vedit", captionFileName document]⟩ := by
  rw [Settings.captionFile, tempPath_default]
  rfl

/-- The file of captions can be named as an output. -/
theorem namesFile_captionFile_default :
    (Settings.default.captionFile document).NamesFile := by
  have hname : (Settings.default.captionFile document).name = captionFileName document := by
    rw [captionFile_default]
    rfl
  refine ⟨Path.wellFormed_child wellFormed_tempPath_default _, ?_, ?_⟩
  · rw [captionFile_default]
    exact List.cons_ne_nil _ _
  · rw [hname]
    exact Path.captionFileName_ne_dots _

/-- No step beside a file of captions writes to the source. -/
theorem place_stepPath_captionFile_ne_source (n : Nat) :
    ((Settings.default.captionFile document).stepPath n).place ≠
      (Path.ofString "in.mp4").place := by
  have hsource : (Path.ofString "in.mp4").place = ["in.mp4"] := by decide
  have hdirs : (⟨"", ["tmp", "vedit"]⟩ : Path).place = ["tmp", "vedit"] := by decide
  have hplace : ((Settings.default.captionFile document).stepPath n).place =
      (⟨"", ["tmp", "vedit"]⟩ : Path).place ++
        [(Settings.default.captionFile document).stepName n] := by
    rw [Path.place_stepPath, captionFile_default]
    rfl
  rw [hplace, hdirs, hsource]
  simp

theorem entry?_keptSession :
    Storage.entry? (keptSession document).files ["tmp", "vedit", captionFileName document] =
      some (.text "kept") := by
  simp [keptSession, Storage.entry?, Session.of, Storage.lookup_cons]

theorem locate_tmp {f : Storage} : f.locate ⟨"", ["tmp"]⟩ = .at ["tmp"] :=
  Storage.locate_name (by decide) (by decide)

theorem locate_vedit {f : Storage} (htmp : f.entry? ["tmp"] = some .directory) :
    f.locate ⟨"", ["tmp", "vedit"]⟩ = .at ["tmp", "vedit"] := by
  refine Storage.locate_of_directories rfl (by decide) (by decide) fun n hn => ?_
  obtain rfl | rfl : n = 0 ∨ n = 1 := Nat.le_one_iff_eq_zero_or_eq_one.mp (Nat.le_of_lt_succ hn)
  · rfl
  · exact htmp

/-- A file of captions is in the directory for temporary files. -/
theorem locate_captionFile_default {f : Storage} (htmp : f.entry? ["tmp"] = some .directory)
    (hvedit : f.entry? ["tmp", "vedit"] = some .directory) :
    f.locate (Settings.default.captionFile document) =
      .at (Settings.default.captionFile document).place := by
  rw [place_captionFile_default, captionFile_default]
  refine Storage.locate_of_directories rfl ?_ ?_ fun n hn => ?_
  · have hname := Path.utf8ByteSize_captionFileName_le document
    have hbegin : "tmp/".utf8ByteSize + "vedit/".utf8ByteSize = 10 := by decide
    simp only [Path.text, String.intercalate_cons_cons, String.intercalate_singleton]
    simp [Storage.maxPath]
    omega
  · have hname : (captionFileName document).utf8ByteSize ≤ Storage.maxName :=
      (Path.utf8ByteSize_captionFileName_le document).trans (by decide)
    simp only [List.forall_mem_cons, List.not_mem_nil, false_imp_iff, implies_true, and_true]
    exact ⟨by decide, by decide, Path.captionFileName_ne_dots document, hname,
      Path.nul_notMem_captionFileName document⟩
  · obtain rfl | rfl | rfl : n = 0 ∨ n = 1 ∨ n = 2 := by
      simp only [List.length_cons, List.length_nil] at hn
      omega
    · rfl
    · exact htmp
    · exact hvedit

theorem holds_keptSession :
    (keptSession document).files.Holds (Settings.default.captionFile document) "kept" := by
  refine Storage.holds_iff.mpr ⟨locate_captionFile_default document rfl rfl, .inl ?_⟩
  rw [place_captionFile_default]
  exact entry?_keptSession document

theorem makeDirs_keptSession :
    (keptSession document).files.makeDirs Settings.default.tempPath =
      .ok (keptSession document).files := by
  have htmp : Storage.entry? (keptSession document).files ["tmp"] = some .directory := rfl
  have hvedit : Storage.entry? (keptSession document).files ["tmp", "vedit"] =
      some .directory := rfl
  rw [tempPath_default, Storage.makeDirs]
  simp only [Storage.makeDirsFrom, List.nil_append, List.cons_append, locate_tmp, locate_vedit htmp,
    htmp, hvedit]

end

/-- A request for a caption in the first second. -/
def greeting : Request :=
  .typed ⟨.string "addCaptions", .object [("captions", .list [.object [("text", .string "Hi"),
    ("startTime", .int 0), ("endTime", .int 1)]])], .video⟩

/-- Its subtitle document, whose file is `tmp/vedit/captions_d88b5d85b969f7c5.ass`. -/
def greetingDocument : String := (greeting.document? .default).getD ""

theorem document?_greeting : greeting.document? .default = some greetingDocument := by
  have hsome : (greeting.document? .default).isSome = true := by decide +kernel
  obtain ⟨document, hdocument⟩ := Option.isSome_iff_exists.mp hsome
  rw [greetingDocument, hdocument, Option.getD_some]

theorem rendersOf_singleton_of_failed (h : p.result.isSuccess = false) : rendersOf [p] = [] := by
  rw [rendersOf, List.filterMap_cons, Passage.rendered?, h]
  rfl

/-- A request for captions whose file is the output fails without a renderer, and the output is
gone. -/
theorem exists_lost {document : String} {r : Request} (hr : r.IsGiven)
    (hdocument : r.document? .default = some document) :
    ∃ result final,
      (plainEngine.runSequence [r] (keptTarget document) (.string "authoritative")).exec
        (keptSession document) = (.ok [result], final) ∧ result.isSuccess = false ∧
      final.files.entry? (Settings.default.captionFile document).place = none := by
  have hstep : (keptTarget document).outputFor? ([] : List Passage).length =
      .ok (some ((Settings.default.captionFile document).stepPath 0)) :=
    Target.outputFor?_eq rfl (namesFile_captionFile_default document).parts_ne_nil 0
  obtain ⟨result, after, hprocess, hfailed, hgone⟩ : ∃ result after,
      (plainEngine.process r { mediaAfter (keptTarget document) [] with
          output := some ((Settings.default.captionFile document).stepPath 0) }
        (.string "authoritative") ([] : List Passage).length).exec (keptSession document) =
          (.ok result, after) ∧ result.isSuccess = false ∧
        after.files.entry? (Settings.default.captionFile document).place = none := by
    refine Engine.exists_failed
      (P := fun files => files.entry? (Settings.default.captionFile document).place = none) hr
      fun s' hfiles hlaunches hfurther => ?_
    have hdirs := makeDirs_keptSession document
    have hstored := holds_keptSession document
    rw [← hfiles] at hdirs hstored
    exact Engine.fails_perform_captions hdocument rfl rfl rfl rfl wellFormed_tempPath_default hdirs
      hstored (by rw [hlaunches]; rfl)
  obtain ⟨p, rfl, htarget, rfl, hbefore, rfl⟩ : ∃ p : Passage, p.request = r ∧
      p.target = { mediaAfter (keptTarget document) [] with
        output := some ((Settings.default.captionFile document).stepPath 0) } ∧
      p.result = result ∧ p.before = sessionAfter (keptSession document) [] ∧ p.after = after :=
    ⟨⟨r, _, result, _, after⟩, rfl, rfl, rfl, rfl, rfl⟩
  have hbefore' : p.before = keptSession document := hbefore
  rw [← htarget, ← hbefore'] at hprocess
  have hnil : rendersOf [p] = [] := rendersOf_singleton_of_failed hfailed
  refine ⟨p.result, p.left, Engine.exec_runSequence_of_nil ?_ hnil, hfailed, ?_⟩
  · rw [List.foldlM_cons]
    exact exec_bind_of_ok (Engine.exec_runStep hstep htarget hbefore hprocess)
  · rw [Passage.files_left]
    exact hgone

end Montage
