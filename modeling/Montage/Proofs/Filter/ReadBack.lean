import Mathlib.Data.List.TakeWhile
import Montage.Filter.Stage
import Montage.Proofs.Filter.Escaping

/-!
# Reading filter chains back

A chain of filters is read in two steps. The graph reader cuts the text at its unescaped commas and
drops one layer of backslashes. The option reader takes the name of each filter up to the first
equals sign, cuts the rest at its unescaped colons, and drops a second layer from each value. A
chain whose option values are texts is read back as it was written, so no text can end its own
option or its own filter.

## Main definitions

* `readChain`: the filters that both readers find in a text.
* `Stage.IsLiteral`: the filters with named text options only.

## Main statements

* `readChain_chainText`: literal filters are read back, with the line ends of their values joined.
-/
namespace Montage

namespace Escape

/-- The characters with a meaning for one of the readers. -/
def reserved : List Char := '=' :: (optionSpecials ++ graphSpecials)

/-- The text up to the first equals sign and, if there is one, the text after it. -/
def cutAtFirst (cs : List Char) : List Char × Option (List Char) :=
  (cs.takeWhile (· ≠ '='), (cs.dropWhile (· ≠ '=')).tail?)

/-- The option that a piece of a filter gives. -/
def readOption (cs : List Char) : String × OptionValue :=
  let (key, value) := cutAtFirst cs
  (String.ofList key, .string (String.ofList (undo (value.getD []))))

/-- The filter that the option reader finds in one piece of a graph. -/
def readStage (cs : List Char) : Stage :=
  let (name, rest) := cutAtFirst (undo cs)
  let options := match rest with
    | some text => (pieces ':' text).map readOption
    | none => []
  .of (String.ofList name) options

end Escape

/-- The filters of a chain, as both readers find them in its text. -/
def readChain (s : String) : List Stage := (Escape.pieces ',' s.toList).map Escape.readStage

/-- The text of a text option; of any other option it is empty. -/
def OptionValue.literalText : OptionValue → List Char
  | literal (.string s) => s.toList
  | _ => []

namespace Stage

/-- The filter has named options only, their values are texts, and no name or key has a character
that a reader knows. Letters, digits and underscores are none of these. -/
structure IsLiteral (s : Stage) : Prop where
  args_eq : s.args = []
  gate_eq : s.gate = none
  name_plain : ∀ c ∈ s.name.toList, c ∉ Escape.reserved
  key_plain : ∀ o ∈ s.options, ∀ c ∈ o.1.toList, c ∉ Escape.reserved
  value_text : ∀ o ∈ s.options, ∃ v, o.2 = .string v

/-- The filter with a line feed for every line end of two characters in its values. -/
def joinLineEnds (s : Stage) : Stage :=
  .of s.name (s.options.map fun o =>
    (o.1, .string (String.ofList (Escape.joinLineEnds o.2.literalText))))

/-- An option as the option reader gets it. -/
def optionChars (o : String × OptionValue) : List Char :=
  o.1.toList ++ '=' :: Escape.level Escape.optionSpecials (Escape.joinLineEnds o.2.literalText)

/-- The filter as the option reader gets it. -/
def chars (s : Stage) : List Char :=
  if s.options.isEmpty then s.name.toList
  else s.name.toList ++ '=' :: [':'].intercalate (s.options.map optionChars)

end Stage

namespace Escape

theorem notMem_reserved_of_isAlphanum {c : Char} (h : c.isAlphanum ∨ c = '_') : c ∉ reserved := by
  intro hmem
  simp only [reserved, optionSpecials, graphSpecials, List.cons_append, List.nil_append,
    List.mem_cons, List.not_mem_nil, or_false] at hmem
  rcases hmem with rfl | rfl | rfl | rfl | rfl | rfl | rfl | rfl | rfl | rfl <;>
    exact absurd h (by decide)

/-- Letters, digits and underscores mean nothing to a reader. -/
theorem notMem_reserved_of_word {cs : List Char} (h : cs.all (fun c => c.isAlphanum || c = '_')) :
    ∀ c ∈ cs, c ∉ reserved := by
  intro c hc
  have hword := List.all_eq_true.mp h c hc
  exact notMem_reserved_of_isAlphanum (by simpa using hword)

theorem notMem_graphSpecials {c : Char} (h : c ∉ reserved) : c ∉ graphSpecials :=
  fun hc => h (by simp [reserved, hc])

theorem notMem_optionSpecials {c : Char} (h : c ∉ reserved) : c ∉ optionSpecials :=
  fun hc => h (by simp [reserved, hc])

theorem ne_equals {c : Char} (h : c ∉ reserved) : c ≠ '=' := fun hc => h (by simp [reserved, hc])

theorem cutAtFirst_of_plain {a : List Char} (h : ∀ c ∈ a, c ∉ reserved) :
    cutAtFirst a = (a, none) := by
  have hne : ∀ c ∈ a, decide (c ≠ '=') = true := fun c hc => by simpa using ne_equals (h c hc)
  simp only [cutAtFirst, List.takeWhile_eq_self_iff.mpr hne, List.dropWhile_eq_nil_iff.mpr hne,
    List.tail?_nil]

/-- The first equals sign after a name without one ends the name. -/
theorem cutAtFirst_append {a b : List Char} (h : ∀ c ∈ a, c ∉ reserved) :
    cutAtFirst (a ++ '=' :: b) = (a, some b) := by
  have hne : ∀ c ∈ a, decide (c ≠ '=') = true := fun c hc => by simpa using ne_equals (h c hc)
  have htake : (a ++ '=' :: b).takeWhile (· ≠ '=') = a := by
    rw [List.takeWhile_append_of_pos hne]
    simp
  have hdrop : (a ++ '=' :: b).dropWhile (· ≠ '=') = '=' :: b := by
    rw [List.dropWhile_append_of_pos hne]
    simp
  simp only [cutAtFirst, htake, hdrop, List.tail?_cons]

end Escape

namespace Stage

variable {s : Stage}

theorem IsLiteral.name_graph (h : s.IsLiteral) : ∀ c ∈ s.name.toList, c ∉ Escape.graphSpecials :=
  fun c hc => Escape.notMem_graphSpecials (h.name_plain c hc)

/-! ## What is written -/

/-- An option is written as the option reader gets it, escaped for the graph reader. -/
theorem option_toList (h : s.IsLiteral) {o : String × OptionValue} (ho : o ∈ s.options) :
    (o.1 ++ "=" ++ o.2.text).toList = Escape.level Escape.graphSpecials (optionChars o) := by
  obtain ⟨v, hv⟩ := h.value_text o ho
  have hkey : ∀ c ∈ o.1.toList, c ∉ Escape.graphSpecials :=
    fun c hc => Escape.notMem_graphSpecials (h.key_plain o ho c hc)
  have hequals : '=' ∉ Escape.graphSpecials := by decide
  simp [optionChars, hv, OptionValue.text, OptionValue.literalText, Value.text, Escape.value,
    Escape.level_of_plain hkey, Escape.level_cons, hequals]

/-- A literal filter is written as the option reader gets it, escaped for the graph reader. -/
theorem text_toList (h : s.IsLiteral) :
    s.text.toList = Escape.level Escape.graphSpecials s.chars := by
  have hparts : s.parts = s.options.map fun o => o.1 ++ "=" ++ o.2.text := by
    simp [parts, h.args_eq, h.gate_eq]
  by_cases hempty : s.options = []
  · simp [text, chars, hparts, hempty, Escape.level_of_plain h.name_graph]
  · have hchars : (s.options.map fun o => o.1 ++ "=" ++ o.2.text).map String.toList =
        (s.options.map optionChars).map (Escape.level Escape.graphSpecials) := by
      simpa using fun key value ho => option_toList h ho
    have hequals : '=' ∉ Escape.graphSpecials := by decide
    have hcolon : ∀ c ∈ [':'], c ∉ Escape.graphSpecials :=
      List.forall_mem_singleton.mpr (by decide)
    simp only [text, chars, hparts, hempty, List.isEmpty_iff, List.map_eq_nil_iff, if_false,
      String.toList_append, String.toList_intercalate, Escape.level_append,
      Escape.level_of_plain h.name_graph, Escape.level_cons, Escape.level_intercalate hcolon]
    rw [hchars]
    simp [hequals]

/-! ## What is read -/

/-- The option reader finds the key of an option and its value. -/
theorem readOption_optionChars (h : s.IsLiteral) {o : String × OptionValue} (ho : o ∈ s.options) :
    Escape.readOption (optionChars o) =
      (o.1, .string (String.ofList (Escape.joinLineEnds o.2.literalText))) := by
  simp only [Escape.readOption, optionChars, Escape.cutAtFirst_append (h.key_plain o ho),
    Option.getD_some, Escape.undo_level (show '\\' ∈ Escape.optionSpecials by decide),
    String.ofList_toList]

/-- An option has no colon of its own. -/
theorem guarded_optionChars (h : s.IsLiteral) {o : String × OptionValue} (ho : o ∈ s.options) :
    Escape.Guarded Escape.optionSpecials (optionChars o) := by
  have hslash : '\\' ∈ Escape.optionSpecials := by decide
  have hkey : Escape.Guarded Escape.optionSpecials o.1.toList :=
    Escape.guarded_of_plain hslash fun c hc =>
      Escape.notMem_optionSpecials (h.key_plain o ho c hc)
  exact hkey.append (.plain (by decide) (by decide) (Escape.guarded_level hslash))

/-- The option reader finds the name of a filter and its options. -/
theorem readStage_text (h : s.IsLiteral) : Escape.readStage s.text.toList = s.joinLineEnds := by
  rw [Escape.readStage, text_toList h,
    Escape.undo_level (show '\\' ∈ Escape.graphSpecials by decide)]
  by_cases hempty : s.options = []
  · simp [chars, joinLineEnds, hempty, Escape.cutAtFirst_of_plain h.name_plain]
  · have hcolon : ':' ∈ Escape.optionSpecials := by decide
    have hpieces : Escape.pieces ':' ([':'].intercalate (s.options.map optionChars)) =
        s.options.map optionChars := by
      refine Escape.pieces_intercalate hcolon (by decide) (by simpa using hempty) ?_
      intro p hp
      obtain ⟨o, ho, rfl⟩ := List.mem_map.mp hp
      exact guarded_optionChars h ho
    have hread : (s.options.map optionChars).map Escape.readOption = s.joinLineEnds.options := by
      simpa [joinLineEnds, of] using fun key value ho => readOption_optionChars h ho
    simp [chars, hempty, Escape.cutAtFirst_append h.name_plain, hpieces, hread, joinLineEnds, of]

end Stage

/-! ## Chains -/

/-- **Literal filters are read back.** Every filter of a chain comes back with its name, its keys
and its values, and only the line ends of the values are joined. No bracket, semicolon or quote
stands in the text but behind a backslash. -/
theorem readChain_chainText {stages : List Stage} (hne : stages ≠ [])
    (h : ∀ s ∈ stages, s.IsLiteral) :
    readChain (chainText stages) = stages.map Stage.joinLineEnds ∧
      ∀ c ∈ ['[', ']', ';', '\x27'], c ∉ Escape.bare (chainText stages).toList := by
  have hslash : '\\' ∈ Escape.graphSpecials := by decide
  have hguarded : ∀ p ∈ stages.map fun s => s.text.toList,
      Escape.Guarded Escape.graphSpecials p := by
    intro p hp
    obtain ⟨s, hs, rfl⟩ := List.mem_map.mp hp
    exact Stage.text_toList (h s hs) ▸ Escape.guarded_level hslash
  have htext : (chainText stages).toList =
      [','].intercalate (stages.map fun s => s.text.toList) := by
    simp [chainText, String.toList_intercalate, Function.comp_def]
  constructor
  · have hcomma : ',' ∈ Escape.graphSpecials := by decide
    have hpieces := Escape.pieces_intercalate hcomma (by decide) (by simpa using hne) hguarded
    rw [readChain, htext, hpieces, List.map_map]
    exact List.map_congr_left fun s hs => Stage.readStage_text (h s hs)
  · have hquoted : Escape.Guarded ['[', ']', ';', '\x27'] (chainText stages).toList := by
      rw [htext]
      refine .intercalate (.plain (by decide) (by decide) .nil) ?_
      exact fun p hp => (hguarded p hp).mono (by decide)
    exact fun c hc => hquoted.notMem_bare hc

theorem readChain_drawtext :
    let stages : List Stage := [
      .of "drawtext" [("text", .string "it's 5:00,\r\n[a;b] = \\o/"), ("x", .string "")],
      .of "hflip" []]
    stages ≠ [] ∧ (∀ s ∈ stages, s.IsLiteral) ∧
      readChain (chainText stages) = [
        .of "drawtext" [("text", .string "it's 5:00,\n[a;b] = \\o/"), ("x", .string "")],
        .of "hflip" []] := by
  intro stages
  have hne : stages ≠ [] := by simp [stages]
  have hliteral : ∀ s ∈ stages, s.IsLiteral := by
    intro s hs
    simp only [stages, List.mem_cons, List.not_mem_nil, or_false] at hs
    rcases hs with rfl | rfl
    · refine ⟨rfl, rfl, Escape.notMem_reserved_of_word (by decide), ?_, by simp [Stage.of]⟩
      simp only [Stage.of, List.forall_mem_cons]
      exact ⟨Escape.notMem_reserved_of_word (by decide),
        Escape.notMem_reserved_of_word (by decide), nofun⟩
    · exact ⟨rfl, rfl, Escape.notMem_reserved_of_word (by decide), by simp [Stage.of],
        by simp [Stage.of]⟩
  refine ⟨hne, hliteral, (readChain_chainText hne hliteral).1.trans ?_⟩
  simp [stages, Stage.joinLineEnds, Stage.of, OptionValue.literalText, Escape.joinLineEnds]

end Montage
