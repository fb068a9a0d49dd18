import Mathlib.Data.List.Basic
import Mathlib.Tactic
import Montage.Filter.Escape

/-!
# The lines of a text

A text is cut into lines at its line feeds, or as readers of subtitles do it, at every line end: at
a line feed, with or without a carriage return before it, and at a carriage return alone.

## Main definitions

* `linesOf`: the characters between the line feeds.
* `subtitleLines`: the characters between the line ends.
* `joinLines`: the characters of lines that are put together.
* `IsOneLine`: a text without any character that ends lines.

## Main statements

* `linesOf_joinLines`, `subtitleLines_joinLines`: the lines of what is put together of lines.
* `length_piecesOf_eq_one_iff`: when readers find a line whole.
-/
namespace Montage

/-- The character ends a line. -/
def endsLine (c : Char) : Bool := c = '\n' || c = '\r'

/-- The characters between the line feeds. -/
def linesOf (cs : List Char) : List (List Char) := cs.splitOn '\n'

/-- The characters between the line ends, of which a carriage return and a line feed are one. -/
def subtitleLines (cs : List Char) : List (List Char) := (Escape.joinLineEnds cs).splitOnP endsLine

/-- No character of the text ends a line. -/
def IsOneLine (s : String) : Prop := ∀ c ∈ s.toList, endsLine c = false

instance (s : String) : Decidable (IsOneLine s) := List.decidableBAll _ s.toList

/-- The characters of lines that are each ended by a line feed. -/
def joinLines (lines : List (List Char)) : List Char := lines.flatMap (· ++ ['\n'])

/-- A carriage return that the line feed after the line would join is dropped. -/
def dropReturn (line : List Char) : List Char :=
  if line.getLast? = some '\r' then line.dropLast else line

/-- What readers find in the characters between two line feeds. -/
def piecesOf (line : List Char) : List (List Char) := (dropReturn line).splitOnP endsLine

variable {α : Type} {p : α → Bool} {cs line : List Char} {lines : List (List Char)}
  {s t : String}

/-! ## Texts on one line -/

theorem isOneLine_iff :
    IsOneLine s ↔ ∀ d, endsLine d = true → d ∉ s.toList := by
  refine ⟨fun h d hd hmem => ?_, fun h d hmem => Bool.eq_false_iff.mpr fun hd => h d hd hmem⟩
  simp [h d hmem] at hd

theorem isOneLine_append : IsOneLine (s ++ t) ↔ IsOneLine s ∧ IsOneLine t := by
  simp [IsOneLine, or_imp, forall_and]

/-- What holds of the characters of a separator and of parts holds of those of the whole. -/
theorem forall_mem_intercalate {P : Char → Prop} {ss : List String} (hs : ∀ c ∈ s.toList, P c)
    (h : ∀ t ∈ ss, ∀ c ∈ t.toList, P c) : ∀ c ∈ (s.intercalate ss).toList, P c := by
  induction ss with
  | nil => exact nofun
  | cons t ss ih =>
      obtain ⟨ht, hss⟩ := List.forall_mem_cons.mp h
      by_cases hnil : ss = []
      · rwa [hnil, String.intercalate_singleton]
      · rw [String.intercalate_cons_of_ne_nil hnil, String.toList_append, String.toList_append]
        exact List.forall_mem_append.mpr ⟨List.forall_mem_append.mpr ⟨ht, hs⟩, ih hss⟩

theorem isOneLine_intercalate {ss : List String} (hs : IsOneLine s)
    (h : ∀ t ∈ ss, IsOneLine t) : IsOneLine (s.intercalate ss) := forall_mem_intercalate hs h

/-! ## Cutting lists -/

/-- No piece of a list has an element at which the list is cut. -/
theorem eq_false_of_mem_splitOnP {xs piece : List α} (hpiece : piece ∈ xs.splitOnP p) :
    ∀ x ∈ piece, p x = false := by
  induction xs generalizing piece with
  | nil =>
      rw [List.splitOnP_nil, List.mem_singleton] at hpiece
      simp [hpiece]
  | cons x xs ih =>
      rw [List.splitOnP_cons_eq_if_modifyHead] at hpiece
      split at hpiece
      · rcases List.mem_cons.mp hpiece with rfl | hpiece
        · simp
        · exact ih hpiece
      · next hx =>
        obtain ⟨first, rest, hfirst⟩ := List.exists_cons_of_ne_nil (List.splitOnP_ne_nil p xs)
        rw [hfirst, List.modifyHead_cons] at hpiece
        rw [hfirst] at ih
        rcases List.mem_cons.mp hpiece with rfl | hpiece
        · simpa [hx] using ih (.head _)
        · exact ih (.tail _ hpiece)

theorem length_splitOnP_pos (p : α → Bool) (xs : List α) : 0 < (xs.splitOnP p).length :=
  List.length_pos_iff.mpr (List.splitOnP_ne_nil p xs)

/-- A list that stays in one piece has no element at which lists are cut. -/
theorem length_splitOnP_eq_one_iff {xs : List α} :
    (xs.splitOnP p).length = 1 ↔ ∀ x ∈ xs, p x = false := by
  refine ⟨fun hone x hx => ?_, fun h => by rw [List.splitOnP_eq_singleton h]; rfl⟩
  by_contra hpx
  obtain ⟨before, after, rfl⟩ := List.append_of_mem hx
  rw [List.splitOnP_append_cons _ _ (Bool.eq_true_of_not_eq_false hpx), List.length_append] at hone
  have hbefore := length_splitOnP_pos p before
  have hafter := length_splitOnP_pos p after
  omega

/-- Lists that are each ended by a separator are cut one by one. -/
theorem splitOnP_flatMap_append {sep : α} (hsep : p sep = true) (xss : List (List α))
    (rest : List α) :
    (xss.flatMap (· ++ [sep]) ++ rest).splitOnP p =
      xss.flatMap (List.splitOnP p) ++ rest.splitOnP p := by
  induction xss with
  | nil => rfl
  | cons xs xss ih =>
      rw [List.flatMap_cons, List.append_assoc, List.append_assoc, List.singleton_append,
        List.splitOnP_append_cons _ _ hsep, ih, List.flatMap_cons, List.append_assoc]

/-- Lists without separators stay as they are. -/
theorem flatMap_splitOnP_eq_self {xss : List (List α)} (h : ∀ xs ∈ xss, ∀ x ∈ xs, p x = false) :
    xss.flatMap (List.splitOnP p) = xss := by
  rw [List.flatMap_congr fun xs hxs => List.splitOnP_eq_singleton (h xs hxs),
    List.flatMap_singleton']

/-- Pieces that are as many as the lists are one for each list. -/
theorem length_eq_one_of_length_flatMap {β : Type} {f : α → List β} {xs : List α}
    (hf : ∀ x, 0 < (f x).length) (h : (xs.flatMap f).length = xs.length) :
    ∀ x ∈ xs, (f x).length = 1 := by
  induction xs with
  | nil => exact nofun
  | cons x xs ih =>
      have hle := List.length_le_sum_of_one_le (xs.map fun x => (f x).length)
        (List.forall_mem_map.mpr fun x _ => hf x)
      rw [List.length_map, ← List.length_flatMap] at hle
      have hx := hf x
      rw [List.flatMap_cons, List.length_append, List.length_cons] at h
      rw [List.forall_mem_cons]
      exact ⟨by omega, ih (by omega)⟩

/-! ## Lines that are put together -/

theorem joinLines_cons (line : List Char) (lines : List (List Char)) :
    joinLines (line :: lines) = line ++ '\n' :: joinLines lines := by
  rw [joinLines, List.flatMap_cons, List.append_assoc, List.singleton_append, joinLines]

/-- Lines that are joined by line feeds and ended by one are each ended by one. -/
theorem toList_intercalate_append {ss : List String} (hne : ss ≠ []) :
    ("\n".intercalate ss ++ "\n").toList = joinLines (ss.map String.toList) := by
  induction ss with
  | nil => exact absurd rfl hne
  | cons s ss ih =>
      by_cases hnil : ss = []
      · simp [hnil, joinLines]
      · rw [String.intercalate_cons_of_ne_nil hnil, String.append_assoc, String.toList_append,
          ih hnil, List.map_cons, joinLines_cons]
        simp

/-- Lines are cut one by one wherever a line feed cuts. -/
theorem splitOnP_joinLines {p : Char → Bool} (hp : p '\n' = true) (lines : List (List Char)) :
    (joinLines lines).splitOnP p = lines.flatMap (List.splitOnP p) ++ [[]] := by
  have hcut := splitOnP_flatMap_append hp lines []
  rwa [List.append_nil, List.splitOnP_nil] at hcut

/-- **Lines without line feeds** are found again between the line feeds. -/
theorem linesOf_joinLines (h : ∀ line ∈ lines, '\n' ∉ line) :
    linesOf (joinLines lines) = lines ++ [[]] := by
  have hplain : ∀ line ∈ lines, ∀ c ∈ line, (c == '\n') = false := fun line hline c hc =>
    beq_false_of_ne fun hfeed => h line hline (hfeed ▸ hc)
  rw [linesOf, List.splitOn, splitOnP_joinLines (by decide), flatMap_splitOnP_eq_self hplain]

theorem notMem_of_mem_linesOf (hline : line ∈ linesOf cs) : '\n' ∉ line := fun hmem =>
  absurd (eq_false_of_mem_splitOnP hline _ hmem) (by decide)

theorem dropReturn_cons_cons (c d : Char) (cs : List Char) :
    dropReturn (c :: d :: cs) = c :: dropReturn (d :: cs) := by
  rw [dropReturn, dropReturn, List.getLast?_cons_cons, List.dropLast_cons_cons]
  split <;> rfl

/-- The line feed after a line takes the carriage return at its end, and no other. -/
theorem joinLineEnds_append (h : '\n' ∉ line) (rest : List Char) :
    Escape.joinLineEnds (line ++ '\n' :: rest) =
      dropReturn line ++ '\n' :: Escape.joinLineEnds rest := by
  induction line with
  | nil => simp [dropReturn, Escape.joinLineEnds]
  | cons c cs ih =>
      rw [List.mem_cons, not_or] at h
      cases cs with
      | nil =>
          by_cases hc : c = '\r'
          · simp [hc, dropReturn, Escape.joinLineEnds]
          · simp [hc, dropReturn, Escape.joinLineEnds]
      | cons d cs =>
          have hd : d ≠ '\n' := fun hd => h.2 (hd ▸ .head _)
          rw [dropReturn_cons_cons, List.cons_append, List.cons_append, List.cons_append, ← ih h.2]
          simp [Escape.joinLineEnds, hd]

theorem joinLineEnds_joinLines (h : ∀ line ∈ lines, '\n' ∉ line) :
    Escape.joinLineEnds (joinLines lines) = joinLines (lines.map dropReturn) := by
  induction lines with
  | nil => rfl
  | cons line lines ih =>
      obtain ⟨hline, hlines⟩ := List.forall_mem_cons.mp h
      rw [joinLines_cons, joinLineEnds_append hline, ih hlines, List.map_cons, joinLines_cons]

/-- **Lines without line feeds** are cut further at their carriage returns, but for a last one. -/
theorem subtitleLines_joinLines (h : ∀ line ∈ lines, '\n' ∉ line) :
    subtitleLines (joinLines lines) = lines.flatMap piecesOf ++ [[]] := by
  rw [subtitleLines, joinLineEnds_joinLines h, splitOnP_joinLines rfl, List.flatMap_map]
  rfl

theorem dropReturn_append {before : List Char} (h : '\r' ∉ before) (rest : List Char) :
    dropReturn (before ++ rest) = before ++ dropReturn rest := by
  by_cases hnil : rest = []
  · have hlast : before.getLast? ≠ some '\r' := fun hlast => h (List.mem_of_getLast? hlast)
    simp [hnil, dropReturn, hlast]
  · rw [dropReturn, dropReturn, List.getLast?_append_of_ne_nil _ hnil,
      List.dropLast_append_of_ne_nil hnil]
    split <;> rfl

theorem mem_dropReturn_iff : '\r' ∈ dropReturn line ↔ '\r' ∈ line.dropLast := by
  rw [dropReturn]
  split
  · exact Iff.rfl
  · next hlast =>
    refine ⟨fun hmem => ?_, List.mem_of_mem_dropLast⟩
    have hne := List.ne_nil_of_mem hmem
    rw [← List.dropLast_concat_getLast hne, List.mem_append, List.mem_singleton] at hmem
    refine hmem.resolve_right fun heq => hlast ?_
    rw [List.getLast?_eq_some_getLast hne, ← heq]

theorem mem_of_mem_dropReturn {d : Char} (h : d ∈ dropReturn line) : d ∈ line := by
  rw [dropReturn] at h
  split at h
  · exact List.mem_of_mem_dropLast h
  · exact h

/-- Readers find one line just if there is no carriage return but for a last one. -/
theorem length_piecesOf_eq_one_iff (h : '\n' ∉ line) :
    (piecesOf line).length = 1 ↔ '\r' ∉ line.dropLast := by
  rw [piecesOf, length_splitOnP_eq_one_iff, ← mem_dropReturn_iff]
  refine ⟨fun hends hmem => absurd (hends _ hmem) (by decide), fun hmem d hd => ?_⟩
  have hne : d ≠ '\n' ∧ d ≠ '\r' :=
    ⟨fun heq => h (heq ▸ mem_of_mem_dropReturn hd), fun heq => hmem (heq ▸ hd)⟩
  simp [endsLine, hne]

theorem piecesOf_eq_singleton (h : (piecesOf line).length = 1) :
    piecesOf line = [dropReturn line] :=
  List.splitOnP_eq_singleton (length_splitOnP_eq_one_iff.mp h)

/-- A text on one line is left whole. -/
theorem IsOneLine.piecesOf_eq (h : IsOneLine s) : piecesOf s.toList = [s.toList] := by
  have hreturn : '\r' ∉ s.toList := fun hmem => absurd (h _ hmem) (by decide)
  have hdrop := dropReturn_append hreturn []
  rw [List.append_nil] at hdrop
  rw [piecesOf, hdrop, dropReturn, if_neg (by simp), List.append_nil,
    List.splitOnP_eq_singleton h]

end Montage
