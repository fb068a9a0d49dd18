import Mathlib.Data.List.Basic
import Montage.Caption.Document

/-!
# Captions read back

A caption is escaped so that nothing in it is taken for a mark of the format. Whoever reads the
escaped text from left to right, and takes a backslash and the character after it for the one
character that they spell, finds the text of the caption. There are no other backslashes in it, and
no braces and line feeds but in such pairs.

## Main definitions

* `readCaption?`: the text that an escaped text spells, if every special character in it is in a
  pair.
* `captionPasses`: the escaping as one replacement after another.

## Main statements

* `readCaption?_eq_some_iff`: an escaped text is read as the one text that it spells.
* `escapeCaption_eq_passes`: the replacements do not get in each other's way.
* `readCaption?_captionText`: a caption is read back.
-/
namespace Montage

/-- The characters that mean something in subtitles. -/
def captionSpecials : List Char := ['\\', '\x7b', '\x7d', '\n']

/-- What a character behind a backslash stands for. -/
def captionMeaning? : Char → Option Char
  | '\\' => some '\\'
  | '\x7b' => some '\x7b'
  | '\x7d' => some '\x7d'
  | 'N' => some '\n'
  | _ => none

/-- The text that an escaped text spells. A special character outside a pair, and a backslash that
begins none, cannot be read. -/
def readCaption? : List Char → Option (List Char)
  | [] => some []
  | '\\' :: c :: cs => (captionMeaning? c).bind fun d => (readCaption? cs).map (d :: ·)
  | c :: cs => if c ∈ captionSpecials then none else (readCaption? cs).map (c :: ·)

/-- Every occurrence of a character is replaced by a spelling. -/
def respell (c : Char) (spelling cs : List Char) : List Char :=
  cs.flatMap fun d => if d = c then spelling else [d]

/-- The characters of a caption, escaped by one replacement after another: backslashes first, then
the braces, and then the line ends. -/
def captionPasses (cs : List Char) : List Char :=
  respell '\n' ['\\', 'N'] (Escape.joinLineEnds (respell '\x7d' ['\\', '\x7d']
    (respell '\x7b' ['\\', '\x7b'] (respell '\\' ['\\', '\\'] cs))))

variable {c d : Char} {cs t : List Char}

/-! ## Reading -/

theorem readCaption?_cons (h : c ∉ captionSpecials) :
    readCaption? (c :: cs) = (readCaption? cs).map (c :: ·) := by
  rw [readCaption?, if_neg h]
  rintro _ _ rfl
  exact absurd List.mem_cons_self h

theorem captionChar_of_plain (h : c ∉ captionSpecials) : captionChar c = [c] := by
  simp only [captionSpecials, List.mem_cons, List.not_mem_nil, or_false, not_or] at h
  rw [captionChar, if_neg h.1, if_neg h.2.1, if_neg h.2.2.1, if_neg h.2.2.2]

/-- A special character is spelled by a pair. -/
theorem exists_captionMeaning_of_mem (h : c ∈ captionSpecials) :
    ∃ d, captionMeaning? d = some c ∧ captionChar c = ['\\', d] := by
  simp only [captionSpecials, List.mem_cons, List.not_mem_nil, or_false] at h
  rcases h with rfl | rfl | rfl | rfl
  · exact ⟨'\\', rfl, rfl⟩
  · exact ⟨'\x7b', rfl, rfl⟩
  · exact ⟨'\x7d', rfl, rfl⟩
  · exact ⟨'N', rfl, rfl⟩

/-- No two pairs spell the same character. -/
theorem captionChar_of_meaning (h : captionMeaning? d = some c) : captionChar c = ['\\', d] := by
  rw [captionMeaning?.eq_def] at h
  split at h
  case h_5 => cases h
  all_goals
    obtain rfl := Option.some.inj h
    rfl

theorem readCaption?_captionChar_append (c : Char) (cs : List Char) :
    readCaption? (captionChar c ++ cs) = (readCaption? cs).map (c :: ·) := by
  by_cases h : c ∈ captionSpecials
  · obtain ⟨d, hd, hpair⟩ := exists_captionMeaning_of_mem h
    rw [hpair, List.cons_append, List.singleton_append, readCaption?, hd, Option.bind_some]
  · rw [captionChar_of_plain h, List.singleton_append, readCaption?_cons h]

/-- Spelled characters are read. -/
theorem readCaption?_flatMap (cs : List Char) :
    readCaption? (cs.flatMap captionChar) = some cs := by
  induction cs with
  | nil => rfl
  | cons c cs ih => rw [List.flatMap_cons, readCaption?_captionChar_append, ih, Option.map_some]

/-- What is read was spelled. -/
theorem eq_flatMap_of_readCaption? (h : readCaption? t = some cs) : t = cs.flatMap captionChar := by
  induction t using readCaption?.induct generalizing cs with
  | case1 =>
      obtain rfl := Option.some.inj h
      rfl
  | case2 c rest ih =>
      rw [readCaption?, Option.bind_eq_some_iff] at h
      obtain ⟨d, hd, h⟩ := h
      obtain ⟨read, hread, rfl⟩ := Option.map_eq_some_iff.mp h
      rw [List.flatMap_cons, captionChar_of_meaning hd, ih hread]
      rfl
  | case3 c rest hpair hspecial =>
      rw [readCaption?, if_pos hspecial] at h
      · cases h
      · exact hpair
  | case4 c rest hpair hplain ih =>
      rw [readCaption?_cons hplain] at h
      obtain ⟨read, hread, rfl⟩ := Option.map_eq_some_iff.mp h
      rw [List.flatMap_cons, captionChar_of_plain hplain, ← ih hread, List.singleton_append]

/-- **An escaped text is read** as a text just if it is the spelling of that text. -/
theorem readCaption?_eq_some_iff : readCaption? t = some cs ↔ t = cs.flatMap captionChar := by
  refine ⟨eq_flatMap_of_readCaption?, ?_⟩
  rintro rfl
  exact readCaption?_flatMap cs

/-! ## One replacement after another -/

/-- A character that is set behind a backslash brings no line feed to the start of a text. -/
theorem exists_cons_of_respell (h : respell c ['\\', c] cs = '\n' :: t) :
    ∃ rest, cs = '\n' :: rest := by
  cases cs with
  | nil => cases h
  | cons d rest =>
      rw [respell, List.flatMap_cons] at h
      split_ifs at h
      · cases h
      · exact ⟨rest, by rw [(List.cons.inj h).1]⟩

/-- Line ends are joined before or after other characters are set behind backslashes. -/
theorem joinLineEnds_respell (hreturn : c ≠ '\r') (hfeed : c ≠ '\n') (cs : List Char) :
    Escape.joinLineEnds (respell c ['\\', c] cs) =
      respell c ['\\', c] (Escape.joinLineEnds cs) := by
  induction cs using Escape.joinLineEnds.induct with
  | case1 cs ih => simpa [respell, Escape.joinLineEnds, hreturn.symm, hfeed.symm] using ih
  | case2 d cs hend ih =>
      rw [Escape.joinLineEnds.eq_2 _ _ hend, respell, respell, List.flatMap_cons,
        List.flatMap_cons, ← respell, ← respell, ← ih]
      split_ifs with hd
      · simp [Escape.joinLineEnds, hreturn]
      · rw [List.singleton_append, List.singleton_append, Escape.joinLineEnds.eq_2]
        intro t hd ht
        obtain ⟨rest, hrest⟩ := exists_cons_of_respell ht
        exact hend rest hd hrest
  | case3 => rfl

/-- **One replacement after another** comes to the same as one pass over the text: the backslashes
that are put in are not replaced again, and no line end is torn apart. -/
theorem escapeCaption_eq_passes (cs : List Char) : escapeCaption cs = captionPasses cs := by
  rw [captionPasses, joinLineEnds_respell (by decide) (by decide),
    joinLineEnds_respell (by decide) (by decide),
    joinLineEnds_respell (by decide) (by decide), escapeCaption]
  simp only [respell, List.flatMap_assoc]
  refine List.flatMap_congr fun c _ => ?_
  rw [captionChar]
  split_ifs <;> simp_all

/-- **A caption is read back**, with its line ends joined, whether it is escaped in one pass or by
one replacement after another. -/
theorem readCaption?_captionText (s : String) :
    (captionText s).toList = captionPasses s.toList ∧
      readCaption? (captionText s).toList = some (Escape.joinLineEnds s.toList) := by
  rw [captionText, String.toList_ofList]
  exact ⟨escapeCaption_eq_passes _, readCaption?_flatMap _⟩

end Montage
