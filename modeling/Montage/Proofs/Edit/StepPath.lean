import Montage.Caption.Compile
import Montage.Edit.Target
import Montage.Proofs.Files.Storage

/-!
# The files of the steps of a sequence

Each step of a sequence writes beside the output of the sequence, to a file of its own. These files
lie in different places, none of them is the output, and none is a file of captions. Where such a
file can be written, so can the output.

## Main definitions

* `Path.NamesFile`: a path whose last component can name a file.
* `Path.stepPath`: where a step writes.

## Main statements

* `Target.outputFor?_eq`: the steps of a sequence write there.
* `Path.place_stepPath_injective`, `Path.place_stepPath_ne`, `Path.place_stepPath_ne_child`: the
  places are apart.
* `Storage.locate_of_stepPath`: the output can be written where a step can be.
-/
namespace Montage

namespace Path

/-- The path ends in a component that can name a file. -/
structure NamesFile (p : Path) : Prop where
  wellFormed : p.WellFormed
  parts_ne_nil : p.parts ≠ []
  name_ne : p.name ≠ ".."

/-- The name of the file of a step. -/
def stepName (p : Path) (index : Int) : String :=
  p.stem ++ ".step" ++ Target.stepText index ++ p.suffix

/-- Where a step writes: beside the path. -/
def stepPath (p : Path) (index : Int) : Path :=
  { p with parts := p.parts.dropLast ++ [p.stepName index] }

variable {p : Path} {index : Int} {m n : Nat} {root last : String} {init : List String}

theorem parts_eq_concat (h : p.parts ≠ []) : p.parts = p.parts.dropLast ++ [p.name] := by
  rw [name, List.getLast?_eq_some_getLast h, Option.getD_some, List.dropLast_append_getLast h]

theorem place_concat (h : last ≠ "..") :
    (⟨root, init ++ [last]⟩ : Path).place = (⟨root, init⟩ : Path).place ++ [last] := by
  rw [place, List.foldl_append, List.foldl_cons, List.foldl_nil, step, if_neg h, place]

theorem stem_append_suffix (p : Path) : p.stem ++ p.suffix = p.name := cutName_append p.name

/-! ## Names of steps -/

theorem toList_stepText (n : Nat) : ∃ zeros,
    (Target.stepText n).toList = List.replicate zeros '0' ++ Nat.toDigits 10 n := by
  refine ⟨2 - (intText n).length, ?_⟩
  have htext : intText n = digitText n := by simp [intText]
  rw [Target.stepText, padLeft, String.toList_append, String.toList_ofList, htext, digitText,
    String.toList_ofList]

theorem isDigit_of_mem_stepText {c : Char} (h : c ∈ (Target.stepText n).toList) :
    c.isDigit = true := by
  obtain ⟨zeros, htext⟩ := toList_stepText n
  rw [htext, List.mem_append] at h
  rcases h with h | h
  · rw [List.eq_of_mem_replicate h]
    rfl
  · exact Nat.isDigit_of_mem_toDigits (by decide) (by decide) h

/-- The number of a step is read off its name. -/
theorem stepText_injective (h : Target.stepText m = Target.stepText n) : m = n := by
  have hvalue : ∀ k : Nat, Nat.ofDigitChars 10 (Target.stepText k).toList 0 = k := by
    intro k
    obtain ⟨zeros, htext⟩ := toList_stepText k
    rw [htext, Nat.ofDigitChars_append, Nat.ofDigitChars_replicate_zero, Nat.mul_zero,
      Nat.ofDigitChars_ten_toDigits]
  rw [← hvalue m, h, hvalue n]

theorem toList_stepName (p : Path) (index : Int) : (p.stepName index).toList =
    p.stem.toList ++ ".step".toList ++ (Target.stepText index).toList ++ p.suffix.toList := by
  simp [stepName]

theorem stepName_injective (h : p.stepName m = p.stepName n) : m = n := by
  have hlist := congrArg String.toList h
  rw [toList_stepName, toList_stepName] at hlist
  have htext := List.append_cancel_left (List.append_cancel_right hlist)
  exact stepText_injective (String.toList_inj.mp htext)

theorem mem_stepName : 's' ∈ (p.stepName index).toList := by
  rw [toList_stepName]
  simp

theorem stepName_ne_of_notMem {s : String} (h : 's' ∉ s.toList) : p.stepName index ≠ s := by
  rintro rfl
  exact h mem_stepName

theorem stepName_ne_dots : p.stepName index ≠ ".." := stepName_ne_of_notMem (by decide)

theorem size_name_lt : p.name.utf8ByteSize < (p.stepName index).utf8ByteSize := by
  have hstep : ".step".utf8ByteSize = 5 := by decide
  rw [← stem_append_suffix, stepName]
  simp only [String.utf8ByteSize_append, hstep]
  omega

theorem stepName_ne_name : p.stepName index ≠ p.name := fun h =>
  absurd (congrArg String.utf8ByteSize h) size_name_lt.ne'

theorem mem_stepName_of_mem_name {c : Char} (h : c ∈ p.name.toList) :
    c ∈ (p.stepName index).toList := by
  rw [← stem_append_suffix, String.toList_append, List.mem_append] at h
  rw [toList_stepName]
  rcases h with h | h <;> simp [h]

theorem isPart_stepName (h : IsPart p.name) : IsPart (p.stepName n) := by
  refine ⟨stepName_ne_of_notMem (by decide), stepName_ne_of_notMem (by decide), ?_⟩
  have hname : ∀ c ∈ p.stem.toList ++ p.suffix.toList, c ≠ '/' := by
    rw [← String.toList_append, stem_append_suffix]
    rintro c hc rfl
    exact h.2.2 hc
  rw [toList_stepName]
  simp only [List.mem_append, not_or]
  refine ⟨⟨⟨fun hc => hname _ (List.mem_append_left _ hc) rfl, by decide⟩, fun hc => ?_⟩,
    fun hc => hname _ (List.mem_append_right _ hc) rfl⟩
  exact absurd (isDigit_of_mem_stepText hc) (by decide)

theorem WellFormed.isPart_name (h : p.WellFormed) (hparts : p.parts ≠ []) : IsPart p.name :=
  h.parts p.name (by rw [parts_eq_concat hparts]; exact List.mem_append_right _ List.mem_cons_self)

theorem wellFormed_stepPath (h : p.WellFormed) (hparts : p.parts ≠ []) :
    (p.stepPath n).WellFormed where
  root := h.root
  parts w hw := by
    rcases List.mem_append.mp hw with hw | hw
    · exact h.parts w (List.dropLast_subset _ hw)
    · rw [List.mem_singleton.mp hw]
      exact isPart_stepName (h.isPart_name hparts)

/-! ## Places of steps -/

theorem place_stepPath : (p.stepPath index).place =
    (⟨p.root, p.parts.dropLast⟩ : Path).place ++ [p.stepName index] :=
  place_concat stepName_ne_dots

theorem place_eq_concat (h : p.NamesFile) :
    p.place = (⟨p.root, p.parts.dropLast⟩ : Path).place ++ [p.name] := by
  conv_lhs => rw [show p = ⟨p.root, p.parts.dropLast ++ [p.name]⟩ by
    rw [← parts_eq_concat h.parts_ne_nil]]
  exact place_concat h.name_ne

theorem place_stepPath_injective (h : (p.stepPath m).place = (p.stepPath n).place) : m = n := by
  rw [place_stepPath, place_stepPath] at h
  exact stepName_injective (List.singleton_inj.mp (List.append_cancel_left h))

theorem place_stepPath_ne (h : p.NamesFile) : (p.stepPath index).place ≠ p.place := by
  rw [place_stepPath, place_eq_concat h]
  exact fun heq => stepName_ne_name (List.singleton_inj.mp (List.append_cancel_left heq))

/-! ## Files of captions -/

theorem notMem_toDigits {c : Char} (h : ∀ k < 16, c ≠ Nat.digitChar k) :
    c ∉ Nat.toDigits 16 n := by
  induction n using Nat.strong_induction_on with
  | _ n ih =>
      rw [Nat.toDigits_eq_if (by decide)]
      split_ifs with hn
      · exact fun hc => h n hn (List.mem_singleton.mp hc)
      · intro hc
        rcases List.mem_append.mp hc with hc | hc
        · exact ih (n / 16) (by omega) hc
        · exact h (n % 16) (by omega) (List.mem_singleton.mp hc)

/-- The digest of a text is written with digits only. -/
theorem notMem_hexOf {c : Char} (h : ∀ k < 16, c ≠ Nat.digitChar k) (s : String) :
    c ∉ (Digest.hexOf s).toList := by
  have hzero : c ≠ '0' := h 0 (by decide)
  rw [Digest.hexOf, String.toList_ofList]
  simp only [List.mem_flatMap, not_exists, not_and, Digest.hexWord, List.mem_append, not_or]
  exact fun w _ => ⟨by simp [hzero], notMem_toDigits h⟩

theorem toList_captionFileName (document : String) : (captionFileName document).toList =
    "captions_".toList ++ (Digest.hexOf document).toList.take 16 ++ ".ass".toList := by
  simp [captionFileName]

theorem captionFileName_ne_of_notMem {s : String} (h : 'c' ∉ s.toList) (document : String) :
    captionFileName document ≠ s := by
  rintro rfl
  rw [toList_captionFileName] at h
  simp at h

theorem captionFileName_ne_dots (document : String) : captionFileName document ≠ ".." :=
  captionFileName_ne_of_notMem (by decide) document

theorem notMem_captionFileName {c : Char} (hbegin : c ∉ "captions_".toList)
    (hdigit : ∀ k < 16, c ≠ Nat.digitChar k) (hend : c ∉ ".ass".toList) (document : String) :
    c ∉ (captionFileName document).toList := by
  rw [toList_captionFileName]
  simp only [List.mem_append, not_or]
  exact ⟨⟨hbegin, fun h => notMem_hexOf hdigit document (List.mem_of_mem_take h)⟩, hend⟩

theorem isPart_captionFileName (document : String) : IsPart (captionFileName document) :=
  ⟨captionFileName_ne_of_notMem (by decide) document,
    captionFileName_ne_of_notMem (by decide) document,
    notMem_captionFileName (by decide) (by decide) (by decide) document⟩

theorem utf8ByteSize_ofList_le (cs : List Char) :
    (String.ofList cs).utf8ByteSize ≤ 4 * cs.length := by
  induction cs with
  | nil => simp
  | cons c cs ih =>
      have hc : c.utf8Size ≤ 4 := c.utf8Size_le_four
      rw [String.ofList_cons, String.utf8ByteSize_append, String.utf8ByteSize_singleton,
        List.length_cons]
      omega

/-- The name of a file of captions is short enough. -/
theorem utf8ByteSize_captionFileName_le (document : String) :
    (captionFileName document).utf8ByteSize ≤ 77 := by
  have hhex := utf8ByteSize_ofList_le ((Digest.hexOf document).toList.take 16)
  have hlength := List.length_take_le 16 (Digest.hexOf document).toList
  have hbegin : "captions_".utf8ByteSize = 9 := by decide
  have hend : ".ass".utf8ByteSize = 4 := by decide
  rw [captionFileName, String.utf8ByteSize_append, String.utf8ByteSize_append, hbegin, hend]
  omega

theorem nul_notMem_captionFileName (document : String) :
    '\x00' ∉ (captionFileName document).toList :=
  notMem_captionFileName (by decide) (by decide) (by decide) document

/-- The only dot in the name of a file of captions stands before its suffix. -/
theorem count_dot_captionFileName (document : String) :
    (captionFileName document).toList.count '.' = 1 := by
  have hhex : '.' ∉ (Digest.hexOf document).toList.take 16 := fun h =>
    notMem_hexOf (by decide) document (List.mem_of_mem_take h)
  rw [toList_captionFileName, List.count_append, List.count_append, List.count_eq_zero.mpr hhex]
  decide

theorem suffix_eq (p : Path) : p.suffix = "" ∨ '.' ∈ p.suffix.toList := by
  rw [suffix, cutName]
  split_ifs
  · exact .inl rfl
  · exact .inr (by simp)

/-- No step writes to a file that is named like one of captions. -/
theorem stepName_ne_captionFileName (document : String) :
    p.stepName n ≠ captionFileName document := by
  intro h
  rcases p.suffix_eq with hsuffix | hsuffix
  · -- Without a suffix the name ends in a digit.
    have hlast : (p.stepName n).toList.getLast? = (Target.stepText n).toList.getLast? := by
      have hne : (Target.stepText n).toList ≠ [] := by
        obtain ⟨zeros, htext⟩ := toList_stepText n
        simp [htext, Nat.toDigits_ne_nil]
      rw [toList_stepName, hsuffix, String.toList_empty, List.append_nil,
        List.getLast?_append_of_ne_nil _ hne]
    have hcaption : (p.stepName n).toList.getLast? = some 's' := by
      rw [h, toList_captionFileName, List.getLast?_append_of_ne_nil _ (by decide)]
      decide
    have hmem := List.mem_of_getLast? (hlast.symm.trans hcaption)
    exact absurd (isDigit_of_mem_stepText hmem) (by decide)
  · have hcount := count_dot_captionFileName document
    rw [← h, toList_stepName, List.count_append, List.count_append, List.count_append] at hcount
    have hstep : ".step".toList.count '.' = 1 := by decide
    have hpos := List.count_pos_iff.mpr hsuffix
    omega

/-- A file in a directory, when its name is no double dot. -/
theorem place_child (h : last ≠ "..") : (p.child last).place = p.place ++ [last] := by
  rw [child, place_concat h]

theorem place_stepPath_ne_child (q : Path) (document : String) :
    (p.stepPath n).place ≠ (q.child (captionFileName document)).place := by
  rw [place_stepPath, place_child (captionFileName_ne_dots document)]
  intro h
  have hlast := congrArg List.getLast? h
  rw [List.getLast?_concat, List.getLast?_concat] at hlast
  exact stepName_ne_captionFileName document (Option.some.inj hlast)

theorem wellFormed_child (h : p.WellFormed) (document : String) :
    (p.child (captionFileName document)).WellFormed where
  root := h.root
  parts w hw := by
    rcases List.mem_append.mp hw with hw | hw
    · exact h.parts w hw
    · rw [List.mem_singleton.mp hw]
      exact isPart_captionFileName document

/-- The file of captions in a directory is read back from its text. -/
theorem ofString_child (h : p.WellFormed) (document : String) :
    ofString (p.child (captionFileName document)).text = p.child (captionFileName document) :=
  ofString_text (wellFormed_child h document)

end Path

/-- Where the steps of a sequence write. -/
theorem Target.outputFor?_eq {t : Target} {output : Path} (h : t.output = some output)
    (hparts : output.parts ≠ []) (index : Int) :
    t.outputFor? index = .ok (some (output.stepPath index)) := by
  rw [outputFor?, h]
  simp [Path.withName?, hparts, Path.stepPath, Path.stepName]

namespace Storage

variable {f : Storage} {p : Path} {index : Int}

theorem size_text_concat_le {root a b : String} {init : List String}
    (h : a.utf8ByteSize ≤ b.utf8ByteSize) :
    (⟨root, init ++ [a]⟩ : Path).text.utf8ByteSize ≤
      (⟨root, init ++ [b]⟩ : Path).text.utf8ByteSize := by
  have htext : ∀ last : String, (⟨root, init ++ [last]⟩ : Path).text.utf8ByteSize =
      root.utf8ByteSize + ("/".intercalate (init ++ [last])).utf8ByteSize := by
    intro last
    simp [Path.text]
  rw [htext, htext]
  by_cases hinit : init = []
  · simpa [hinit] using h
  · rw [String.intercalate_append_of_ne_nil hinit (by simp),
      String.intercalate_append_of_ne_nil hinit (by simp)]
    simpa using h

/-- One component further from a place, unless it leads back. -/
theorem follow_singleton {m r : Place} {part : String} (hpart : part ≠ "..") :
    f.follow m [part] = .at r ↔ f.entry? m = some .directory ∧ part.utf8ByteSize ≤ maxName ∧
      '\x00' ∉ part.toList ∧ r = m ++ [part] := by
  rw [follow]
  split
  · rename_i hdir
    rw [String.contains_char_eq]
    simp only [decide_eq_true_eq, if_neg hpart, follow]
    split_ifs with hsize hnul
    · simp [Nat.not_le.mpr hsize]
    · simp [hnul]
    · simp [hdir, Nat.not_lt.mp hsize, hnul, eq_comm]
  · rename_i hfile hentry
    have hne : f.entry? m ≠ some .directory := by
      rw [hentry]
      exact fun hdir => hfile (Option.some.inj hdir)
    simp [hne]
  · rename_i hnone
    simp [hnone]

/-- **The output can be written** where a step can be: in the same directory, under a shorter
name. -/
theorem locate_of_stepPath (hp : p.NamesFile)
    (h : f.locate (p.stepPath index) = .at (p.stepPath index).place) :
    f.locate p = .at p.place ∧ f.entry? p.place.dropLast = some .directory := by
  have hsize : p.text.utf8ByteSize ≤ (p.stepPath index).text.utf8ByteSize := by
    have hconcat : p.text = (⟨p.root, p.parts.dropLast ++ [p.name]⟩ : Path).text := by
      rw [← Path.parts_eq_concat hp.parts_ne_nil]
    rw [hconcat]
    exact size_text_concat_le Path.size_name_lt.le
  rw [locate] at h
  split_ifs at h with htext hroot
  obtain ⟨m, hm, hstep⟩ := (follow_concat _).mp h
  obtain ⟨hdir, hlength, hnul, -⟩ := (follow_singleton Path.stepName_ne_dots).mp hstep
  have hplace : p.place = m ++ [p.name] := by
    rw [Path.place_eq_concat hp, follow_eq_foldl hm]
    rfl
  have hfollow : f.follow [] p.parts = .at p.place := by
    rw [Path.parts_eq_concat hp.parts_ne_nil, follow_concat]
    refine ⟨m, hm, (follow_singleton hp.name_ne).mpr ⟨hdir, ?_, ?_, hplace⟩⟩
    · exact Path.size_name_lt.le.trans hlength
    · exact fun hmem => hnul (Path.mem_stepName_of_mem_name hmem)
  refine ⟨?_, ?_⟩
  · have hroot' : ¬p.root ≠ "" := hroot
    rw [locate, if_neg fun hlong => htext (hlong.trans_le hsize), if_neg hroot', hfollow]
  · rw [hplace, List.dropLast_concat, hdir]

end Storage

end Montage
