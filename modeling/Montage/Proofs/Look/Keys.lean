import Montage.Look.Name
import Montage.Proofs.Text.Cleaning
import Montage.Proofs.Text.Lines
import Montage.Proofs.Text.Lowering

/-!
# Names without their separators

The key of a name is made of the words of the name, in lower case and with one space between two of
them. Trimming takes away only the blanks around a name, so a hyphen or an underscore at one of its
ends is left and becomes a space there. Such a key changes when it is taken for a name again, and
is another one than that of the words alone.

## Main definitions

* `Look.wordsBy`: the words between separators.
* `Look.IsPlain`, `Look.IsTidy`: names with single spaces, and none around them.
* `Look.IsBare`: the names without hyphens and underscores around them.
* `Look.Forgets`: the key of a name is tidy, is its own key, and depends on the words alone.

## Main statements

* `Look.isTidy_key_iff`: whose key is tidy.
* `Look.key_eq_joinWords`: the key of a bare name.
* `Look.key_key`: the key of a bare name is its own key.
* `Look.forgets_iff`: whose key is as it should be.
-/
namespace Montage.Look

open Text (isBlank strip stripLeft lower)

/-- The characters that separate the words of a name. -/
def isMark (c : Char) : Bool := c = ' ' || c = '-' || c = '_'

/-- What counts as a space in a key: the blanks, hyphens and underscores. -/
def isSeparator (c : Char) : Bool := isBlank c || c = '-' || c = '_'

/-- What stands between separators, where anything does. -/
def wordsBy (p : Char → Bool) (cs : List Char) : List (List Char) :=
  (cs.splitOnP p).filter fun w => !w.isEmpty

/-- Words with one space between two of them. -/
def joinWords (ws : List (List Char)) : List Char := [' '].intercalate ws

/-- There are no two spaces in a row, no hyphens and no underscores. -/
structure IsPlain (cs : List Char) : Prop where
  single : ¬[' ', ' '] <:+: cs
  unmarked : '-' ∉ cs ∧ '_' ∉ cs

/-- There are also no spaces at the ends. -/
structure IsTidy (cs : List Char) : Prop extends IsPlain cs where
  head : cs.head? ≠ some ' '
  last : cs.getLast? ≠ some ' '

/-- Within the blanks around it, the name neither starts nor ends with a hyphen or an underscore. -/
structure IsBare (cs : List Char) : Prop where
  head : ∀ c, (strip cs).head? = some c → c ≠ '-' ∧ c ≠ '_'
  last : ∀ c, (strip cs).getLast? = some c → c ≠ '-' ∧ c ≠ '_'

/-- The key of `s` is tidy and is its own key, and it is that of `t` if both have the same words
between their spaces, hyphens and underscores. -/
structure Forgets (s t : String) : Prop where
  tidy : IsTidy (normalizeName (.string s)).toList
  stable : normalizeName (.string (normalizeName (.string s))) = normalizeName (.string s)
  same : wordsBy isMark s.toList = wordsBy isMark t.toList →
    normalizeName (.string s) = normalizeName (.string t)

variable {p q : Char → Bool} {c d : Char} {cs w xs ys : List Char} {ws : List (List Char)}

/-! ## Words -/

/-- A text is without separators, or it is cut at the first one. -/
theorem cut_induction {P : List Char → Prop} (plain : ∀ w, (∀ c ∈ w, p c = false) → P w)
    (cut : ∀ w c cs, (∀ d ∈ w, p d = false) → p c = true → P cs → P (w ++ c :: cs))
    (cs : List Char) : P cs := by
  induction hlength : cs.length using Nat.strong_induction_on generalizing cs with
  | _ n ih =>
      have hparts := List.takeWhile_append_dropWhile (p := fun c => !p c) (l := cs)
      have hword : ∀ c ∈ cs.takeWhile fun c => !p c, p c = false := fun c hc => by
        simpa using List.mem_takeWhile_imp hc
      cases hrest : cs.dropWhile fun c => !p c with
      | nil =>
          rw [hrest, List.append_nil] at hparts
          exact plain cs (hparts ▸ hword)
      | cons c rest =>
          have hc : p c = true := by
            have hhead := List.head?_dropWhile_not (fun c => !p c) cs
            rw [hrest] at hhead
            simpa using hhead
          rw [hrest] at hparts
          rw [← hparts]
          refine cut _ c rest hword hc (ih rest.length ?_ rest rfl)
          rw [← hlength, ← hparts, List.length_append, List.length_cons]
          omega

@[simp] theorem wordsBy_nil : wordsBy p [] = [] := by simp [wordsBy, List.splitOnP_nil]

/-- **A separator** cuts a text into the words before it and those behind it. -/
theorem wordsBy_append_cons (hc : p c = true) (xs ys : List Char) :
    wordsBy p (xs ++ c :: ys) = wordsBy p xs ++ wordsBy p ys := by
  rw [wordsBy, List.splitOnP_append_cons xs ys hc, List.filter_append, wordsBy, wordsBy]

theorem wordsBy_cons (hc : p c = true) (cs : List Char) : wordsBy p (c :: cs) = wordsBy p cs :=
  wordsBy_append_cons hc [] cs

theorem wordsBy_eq_singleton (hne : w ≠ []) (hw : ∀ c ∈ w, p c = false) : wordsBy p w = [w] := by
  rw [wordsBy, List.splitOnP_eq_singleton hw]
  simpa using hne

theorem of_mem_wordsBy (h : w ∈ wordsBy p cs) : w ≠ [] ∧ ∀ c ∈ w, p c = false := by
  obtain ⟨hpiece, hne⟩ := List.mem_filter.mp h
  exact ⟨by simpa using hne, fun c hc => eq_false_of_mem_splitOnP hpiece c hc⟩

/-- A text without words is made of separators. -/
theorem wordsBy_eq_nil_iff : wordsBy p cs = [] ↔ ∀ c ∈ cs, p c = true := by
  induction cs using cut_induction (p := p) with
  | plain w hw =>
      cases w with
      | nil => simp
      | cons c w => simp [wordsBy_eq_singleton (List.cons_ne_nil c w) hw, hw c List.mem_cons_self]
  | cut w c cs hw hc ih =>
      rw [wordsBy_append_cons hc, List.append_eq_nil_iff, ih, List.forall_mem_append,
        List.forall_mem_cons]
      refine and_congr ?_ (by simp [hc])
      cases w with
      | nil => simp
      | cons d w => simp [wordsBy_eq_singleton (List.cons_ne_nil d w) hw, hw d List.mem_cons_self]

theorem wordsBy_append_left (h : ∀ c ∈ xs, p c = true) (ys : List Char) :
    wordsBy p (xs ++ ys) = wordsBy p ys := by
  induction xs with
  | nil => rfl
  | cons c xs ih =>
      obtain ⟨hc, hxs⟩ := List.forall_mem_cons.mp h
      rw [List.cons_append, wordsBy_cons hc, ih hxs]

theorem wordsBy_append_right (h : ∀ c ∈ ys, p c = true) (xs : List Char) :
    wordsBy p (xs ++ ys) = wordsBy p xs := by
  cases ys with
  | nil => rw [List.append_nil]
  | cons c ys =>
      obtain ⟨hc, hys⟩ := List.forall_mem_cons.mp h
      rw [wordsBy_append_cons hc, wordsBy_eq_nil_iff.mpr hys, List.append_nil]

/-- The words between the characters of a class are found in those between fewer characters. -/
theorem wordsBy_eq_flatMap (h : ∀ c, q c = true → p c = true) (cs : List Char) :
    wordsBy p cs = (wordsBy q cs).flatMap (wordsBy p) := by
  induction cs using cut_induction (p := q) with
  | plain w hw =>
      cases w with
      | nil => rfl
      | cons c w =>
          rw [wordsBy_eq_singleton (List.cons_ne_nil c w) hw, List.flatMap_singleton]
  | cut w c cs hw hc ih =>
      rw [wordsBy_append_cons (h c hc), wordsBy_append_cons hc, List.flatMap_append, ← ih]
      congr 1
      cases w with
      | nil => rfl
      | cons d w =>
          rw [wordsBy_eq_singleton (List.cons_ne_nil d w) hw, List.flatMap_singleton]

theorem joinWords_cons (hws : ws ≠ []) (w : List Char) :
    joinWords (w :: ws) = w ++ ' ' :: joinWords ws := by
  obtain ⟨v, ws, rfl⟩ := List.exists_cons_of_ne_nil hws
  rw [joinWords, List.intercalate_cons_cons, List.append_assoc, List.singleton_append, joinWords]

/-- **Words that are joined** are found again. -/
theorem wordsBy_joinWords (hp : p ' ' = true) (h : ∀ w ∈ ws, w ≠ [] ∧ ∀ c ∈ w, p c = false) :
    wordsBy p (joinWords ws) = ws := by
  induction ws with
  | nil => exact wordsBy_nil
  | cons w ws ih =>
      obtain ⟨⟨hne, hw⟩, hrest⟩ := List.forall_mem_cons.mp h
      cases ws with
      | nil =>
          rw [joinWords, List.intercalate_singleton]
          exact wordsBy_eq_singleton hne hw
      | cons v ws =>
          rw [joinWords_cons (List.cons_ne_nil v ws), wordsBy_append_cons hp,
            wordsBy_eq_singleton hne hw, ih hrest, List.singleton_append]

/-! ## Separators -/

/-- **A separator** is a break: no letter, nor passed over between letters. -/
theorem isBreak_of_isSeparator (hc : isSeparator c = true) : Text.IsBreak c := by
  obtain ⟨r, hr, hrange⟩ : ∃ r ∈ Text.blanks ++ [(0x2D, 0x2D), (0x5F, 0x5F)],
      r.1 ≤ c.toNat ∧ c.toNat ≤ r.2 := by
    simp only [isSeparator, Bool.or_eq_true, decide_eq_true_eq] at hc
    obtain (hblank | rfl) | rfl := hc
    · obtain ⟨r, hr, hmatch⟩ := List.any_eq_true.mp hblank
      simp only [Bool.and_eq_true, decide_eq_true_eq] at hmatch
      exact ⟨r, List.mem_append_left _ hr, hmatch⟩
    · exact ⟨(0x2D, 0x2D), by decide, by decide⟩
    · exact ⟨(0x5F, 0x5F), by decide, by decide⟩
  have hcaseless : ∀ r ∈ Text.blanks ++ [(0x2D, 0x2D), (0x5F, 0x5F)],
      Text.isCaselessRange r = true := by decide +kernel
  have hapart : ∀ r ∈ Text.blanks ++ [(0x2D, 0x2D), (0x5F, 0x5F)],
      ∀ t ∈ Text.casedLetters ++ Text.caseIgnorables, r.2 < t.1 ∨ t.2 < r.1 := by decide +kernel
  have hnone : ∀ table ⊆ Text.casedLetters ++ Text.caseIgnorables, table.contains c = false := by
    intro table htable
    refine List.any_eq_false.mpr fun t ht => ?_
    have := hapart r hr t (htable ht)
    simp only [Bool.and_eq_true, decide_eq_true_eq]
    omega
  exact ⟨Text.isCaseless_of_isCaselessRange (hcaseless r hr) hrange,
    hnone _ (List.subset_append_left _ _), hnone _ (List.subset_append_right _ _)⟩

theorem isSeparator_of_isBlank (hc : isBlank c = true) : isSeparator c = true := by
  rw [isSeparator, hc]
  rfl

theorem isSeparator_of_isMark (hc : isMark c = true) : isSeparator c = true := by
  simp only [isMark, Bool.or_eq_true, decide_eq_true_eq] at hc
  obtain (rfl | rfl) | rfl := hc <;> decide

theorem isBlank_spaceOut (c : Char) : isBlank (spaceOut c) = isSeparator c := by
  rw [spaceOut, isSeparator, Bool.or_assoc]
  split_ifs with hc
  · rw [hc, Bool.or_true]
    rfl
  · rw [Bool.eq_false_iff.mpr hc, Bool.or_false]

theorem spaceOut_eq_self (hc : isSeparator c = false) : spaceOut c = c := by
  rw [isSeparator, Bool.or_assoc, Bool.or_eq_false_iff] at hc
  rw [spaceOut, hc.2]
  rfl

/-- Trimming takes away no word. -/
theorem wordsBy_strip (hp : ∀ c, isBlank c = true → p c = true) (cs : List Char) :
    wordsBy p (strip cs) = wordsBy p cs := by
  have hblanks : ∀ {xs : List Char}, ∀ c ∈ xs.takeWhile isBlank, p c = true :=
    fun c hc => hp c (List.mem_takeWhile_imp hc)
  have hleft : ∀ xs, xs.takeWhile isBlank ++ stripLeft xs = xs :=
    fun xs => List.takeWhile_append_dropWhile
  have hright : strip cs ++ ((stripLeft cs).reverse.takeWhile isBlank).reverse = stripLeft cs := by
    rw [strip, Text.stripRight, ← List.reverse_append, hleft, List.reverse_reverse]
  calc wordsBy p (strip cs)
      = wordsBy p (strip cs ++ ((stripLeft cs).reverse.takeWhile isBlank).reverse) :=
        (wordsBy_append_right (fun c hc => hblanks c (List.mem_reverse.mp hc)) _).symm
    _ = wordsBy p (cs.takeWhile isBlank ++ stripLeft cs) := by
        rw [hright, wordsBy_append_left hblanks]
    _ = wordsBy p cs := by rw [hleft]

/-- The words of a text in lower case. -/
theorem wordsBy_lower (cs : List Char) :
    wordsBy isSeparator (lower cs) = (wordsBy isSeparator cs).map lower := by
  have hplain : ∀ w, (∀ c ∈ w, isSeparator c = false) →
      wordsBy isSeparator (lower w) = (wordsBy isSeparator w).map lower := by
    intro w hw
    cases w with
    | nil => rfl
    | cons c w =>
        have hne : lower (c :: w) ≠ [] :=
          List.append_ne_nil_of_left_ne_nil (Text.lowerAt_ne_nil [] c w) _
        have hlower : ∀ d ∈ lower (c :: w), isSeparator d = false := by
          intro d hd
          refine Bool.eq_false_iff.mpr fun hsep => ?_
          have hmem := (Text.mem_lower_iff (isBreak_of_isSeparator hsep).caseless).mp hd
          exact Bool.false_ne_true ((hw d hmem).symm.trans hsep)
        rw [wordsBy_eq_singleton hne hlower, wordsBy_eq_singleton (List.cons_ne_nil c w) hw,
          List.map_singleton]
  induction cs using cut_induction (p := isSeparator) with
  | plain w hw => exact hplain w hw
  | cut w c cs hw hc ih =>
      rw [Text.lower_append_break (isBreak_of_isSeparator hc), wordsBy_append_cons hc,
        wordsBy_append_cons hc, List.map_append, hplain w hw, ih]

/-- A hyphen or an underscore that became a space separates the same words. -/
theorem wordsBy_spaceOut (cs : List Char) :
    wordsBy isBlank (cs.map spaceOut) = wordsBy isSeparator cs := by
  have hplain : ∀ w, (∀ c ∈ w, isSeparator c = false) →
      wordsBy isBlank (w.map spaceOut) = wordsBy isSeparator w := by
    intro w hw
    have hsame : w.map spaceOut = w := by
      rw [List.map_congr_left fun c hc => spaceOut_eq_self (hw c hc), List.map_id']
    have hshown : ∀ c ∈ w, isBlank c = false := fun c hc => by
      rw [← spaceOut_eq_self (hw c hc), isBlank_spaceOut, hw c hc]
    cases w with
    | nil => rfl
    | cons c w =>
        rw [hsame, wordsBy_eq_singleton (List.cons_ne_nil c w) hshown,
          wordsBy_eq_singleton (List.cons_ne_nil c w) hw]
  induction cs using cut_induction (p := isSeparator) with
  | plain w hw => exact hplain w hw
  | cut w c cs hw hc ih =>
      rw [List.map_append, List.map_cons, wordsBy_append_cons (by rw [isBlank_spaceOut, hc]),
        wordsBy_append_cons hc, hplain w hw, ih]

/-! ## Single spaces -/

/-- The blanks up to the next character become one space. -/
theorem collapse_cons_of_blank (hc : isBlank c = true) (cs : List Char) :
    collapse (c :: cs) = ' ' :: collapse (stripLeft cs) := by
  induction cs generalizing c with
  | nil => rw [collapse, if_pos hc]; rfl
  | cons d cs ih =>
      rw [collapse, if_pos hc]
      split_ifs with hd
      · rw [ih hd, stripLeft, stripLeft, List.dropWhile_cons_of_pos hd]
      · rw [Text.stripLeft_of_not_blank (Bool.eq_false_iff.mpr hd)]

theorem collapse_cons_of_not_blank (hc : isBlank c = false) (cs : List Char) :
    collapse (c :: cs) = c :: collapse cs := by
  cases cs with
  | nil => simp [collapse, hc]
  | cons d cs => simp [collapse, hc]

theorem collapse_append (hw : ∀ c ∈ w, isBlank c = false) (cs : List Char) :
    collapse (w ++ cs) = w ++ collapse cs := by
  induction w with
  | nil => rfl
  | cons c w ih =>
      obtain ⟨hc, hw⟩ := List.forall_mem_cons.mp hw
      rw [List.cons_append, collapse_cons_of_not_blank hc, ih hw, List.cons_append]

/-- A text that does not end in a blank has its words and single spaces between them. -/
theorem collapse_stripLeft (h : ∀ c, cs.getLast? = some c → isBlank c = false) :
    collapse (stripLeft cs) = joinWords (wordsBy isBlank cs) := by
  induction cs using cut_induction (p := isBlank) with
  | plain w hw =>
      have hword := collapse_append hw []
      rw [Text.stripLeft_eq_self fun c hc => hw c (List.mem_of_head? hc)]
      cases w with
      | nil => rfl
      | cons c w =>
          rw [wordsBy_eq_singleton (List.cons_ne_nil c w) hw, joinWords,
            List.intercalate_singleton]
          simpa [collapse] using hword
  | cut w c cs hw hc ih =>
      have hlast : ∃ d, cs.getLast? = some d ∧ isBlank d = false := by
        cases cs with
        | nil =>
            have hend := h c List.getLast?_concat
            rw [hc] at hend
            cases hend
        | cons d cs =>
            have hne := List.cons_ne_nil d cs
            refine ⟨_, List.getLast?_eq_some_getLast hne, h _ ?_⟩
            rw [List.getLast?_append_of_ne_nil _ (List.cons_ne_nil c _), List.getLast?_cons_cons,
              List.getLast?_eq_some_getLast hne]
      obtain ⟨d, hd, hshown⟩ := hlast
      have hrest := ih fun e he => Option.some.inj (hd.symm.trans he) ▸ hshown
      have hne : wordsBy isBlank cs ≠ [] := fun hnil => by
        rw [wordsBy_eq_nil_iff.mp hnil d (List.mem_of_getLast? hd)] at hshown
        cases hshown
      rw [wordsBy_append_cons hc]
      cases w with
      | nil =>
          rw [wordsBy_nil, List.nil_append, List.nil_append, ← hrest, stripLeft, stripLeft,
            List.dropWhile_cons_of_pos hc]
      | cons e w =>
          rw [List.cons_append, Text.stripLeft_of_not_blank (hw e List.mem_cons_self),
            ← List.cons_append, collapse_append hw, collapse_cons_of_blank hc, hrest,
            wordsBy_eq_singleton (List.cons_ne_nil e w) hw, List.singleton_append,
            joinWords_cons hne]

/-- How a character is written in a text with single spaces. -/
theorem head?_collapse (cs : List Char) :
    (collapse cs).head? = cs.head?.map fun c => if isBlank c then ' ' else c := by
  cases cs with
  | nil => rfl
  | cons c cs =>
      cases hc : isBlank c with
      | true => simp [collapse_cons_of_blank hc, hc]
      | false => simp [collapse_cons_of_not_blank hc, hc]

theorem getLast?_collapse (cs : List Char) :
    (collapse cs).getLast? = cs.getLast?.map fun c => if isBlank c then ' ' else c := by
  fun_induction collapse cs with
  | case1 => rfl
  | case2 c => rfl
  | case3 c d cs hc hd ih => rw [ih, List.getLast?_cons_cons]
  | case4 c d cs hc hd ih | case5 c d cs hc ih =>
      have hne : collapse (d :: cs) ≠ [] := fun hnil => by
        simpa [hnil] using head?_collapse (d :: cs)
      obtain ⟨e, rest, hcons⟩ := List.exists_cons_of_ne_nil hne
      rw [hcons, List.getLast?_cons_cons, ← hcons, ih, List.getLast?_cons_cons]

theorem mem_collapse (h : c ∈ collapse cs) : c = ' ' ∨ c ∈ cs := by
  fun_induction collapse cs with
  | case1 => cases h
  | case2 | case3 | case4 | case5 => grind

/-- No two spaces are next to each other. -/
theorem not_infix_collapse (cs : List Char) : ¬[' ', ' '] <:+: collapse cs := by
  have hspace : isBlank ' ' = true := by decide
  fun_induction collapse cs with
  | case1 => simp
  | case2 c => simp [List.infix_cons_iff]
  | case3 c d cs hc hd ih => exact ih
  | case4 c d cs hc hd ih =>
      -- The space that is written stands before a character that is none.
      have hhead := head?_collapse (d :: cs)
      rw [List.head?_cons, Option.map_some, if_neg hd] at hhead
      obtain ⟨rest, hcons⟩ := List.head?_eq_some_iff.mp hhead
      rw [hcons] at ih ⊢
      have hne : d ≠ ' ' := fun heq => hd (heq ▸ hspace)
      rw [List.infix_cons_iff, List.cons_prefix_cons, List.cons_prefix_cons]
      exact fun hor => hor.elim (fun hpre => hne hpre.2.1.symm) ih
  | case5 c d cs hc ih =>
      have hne : c ≠ ' ' := fun heq => hc (heq ▸ hspace)
      rw [List.infix_cons_iff, List.cons_prefix_cons]
      exact fun hor => hor.elim (fun hpre => hne hpre.1.symm) ih

/-! ## Keys -/

theorem isPlain_key (cs : List Char) : IsPlain (key cs) where
  single := not_infix_collapse _
  unmarked := by
    have hspaced : ∀ c ∈ key cs, c ≠ '-' ∧ c ≠ '_' := by
      intro c hc
      rcases mem_collapse hc with rfl | hmem
      · decide
      · obtain ⟨d, -, rfl⟩ := List.mem_map.mp hmem
        rw [spaceOut]
        split_ifs with hd
        · decide
        · simpa using hd
    exact ⟨fun h => (hspaced _ h).1 rfl, fun h => (hspaced _ h).2 rfl⟩

/-- What is written for a character is a space just if the character is a separator. -/
theorem eq_space_iff (c : Char) :
    (if isBlank (spaceOut c) then ' ' else spaceOut c) = ' ' ↔ isSeparator c = true := by
  have hspace : isBlank ' ' = true := by decide
  rw [← isBlank_spaceOut]
  split_ifs with hc
  · exact iff_of_true rfl hc
  · exact iff_of_false (fun heq => hc (heq ▸ hspace)) hc

/-- A key starts with a space just if the trimmed name starts with a separator. -/
theorem head?_key_eq_iff :
    (key cs).head? = some ' ' ↔ ∃ c, (strip cs).head? = some c ∧ isSeparator c = true := by
  rw [key, head?_collapse, List.head?_map, Option.map_map, Option.map_eq_some_iff]
  refine exists_congr fun c => ?_
  rw [Function.comp_apply, eq_space_iff]
  exact and_congr_left fun hc => Text.head?_lower_eq_iff (isBreak_of_isSeparator hc).caseless

/-- A key ends with a space just if the trimmed name ends with a separator. -/
theorem getLast?_key_eq_iff :
    (key cs).getLast? = some ' ' ↔ ∃ c, (strip cs).getLast? = some c ∧ isSeparator c = true := by
  rw [key, getLast?_collapse, List.getLast?_map, Option.map_map, Option.map_eq_some_iff]
  refine exists_congr fun c => ?_
  rw [Function.comp_apply, eq_space_iff]
  exact and_congr_left fun hc => Text.getLast?_lower_eq_iff (isBreak_of_isSeparator hc).caseless

/-- What is no blank separates just if it is a hyphen or an underscore. -/
theorem isSeparator_eq_false_iff (hc : isBlank c = false) :
    isSeparator c = false ↔ c ≠ '-' ∧ c ≠ '_' := by
  simp [isSeparator, hc]

/-- **A key is tidy** just if the name is bare. -/
theorem isTidy_key_iff : IsTidy (key cs) ↔ IsBare cs := by
  have htrimmed := Text.isTrimmed_strip cs
  constructor
  · intro h
    constructor
    · intro c hc
      have hapart : isSeparator c = false := Bool.eq_false_iff.mpr fun hsep =>
        h.head (head?_key_eq_iff.mpr ⟨c, hc, hsep⟩)
      exact (isSeparator_eq_false_iff (htrimmed.head c hc)).mp hapart
    · intro c hc
      have hapart : isSeparator c = false := Bool.eq_false_iff.mpr fun hsep =>
        h.last (getLast?_key_eq_iff.mpr ⟨c, hc, hsep⟩)
      exact (isSeparator_eq_false_iff (htrimmed.last c hc)).mp hapart
  · intro h
    refine ⟨isPlain_key cs, fun hspace => ?_, fun hspace => ?_⟩
    · obtain ⟨c, hc, hsep⟩ := head?_key_eq_iff.mp hspace
      rw [(isSeparator_eq_false_iff (htrimmed.head c hc)).mpr (h.head c hc)] at hsep
      cases hsep
    · obtain ⟨c, hc, hsep⟩ := getLast?_key_eq_iff.mp hspace
      rw [(isSeparator_eq_false_iff (htrimmed.last c hc)).mpr (h.last c hc)] at hsep
      cases hsep

/-- What a key is made from neither starts nor ends with a blank, where the name is bare. -/
theorem IsBare.isTrimmed (h : IsBare cs) :
    Text.IsTrimmed ((lower (strip cs)).map spaceOut) where
  head c hc := by
    rw [List.head?_map] at hc
    obtain ⟨d, hd, rfl⟩ := Option.map_eq_some_iff.mp hc
    rw [isBlank_spaceOut]
    refine Bool.eq_false_iff.mpr fun hsep => ?_
    have hstrip := (Text.head?_lower_eq_iff (isBreak_of_isSeparator hsep).caseless).mp hd
    exact (isTidy_key_iff.mpr h).head (head?_key_eq_iff.mpr ⟨d, hstrip, hsep⟩)
  last c hc := by
    rw [List.getLast?_map] at hc
    obtain ⟨d, hd, rfl⟩ := Option.map_eq_some_iff.mp hc
    rw [isBlank_spaceOut]
    refine Bool.eq_false_iff.mpr fun hsep => ?_
    have hstrip := (Text.getLast?_lower_eq_iff (isBreak_of_isSeparator hsep).caseless).mp hd
    exact (isTidy_key_iff.mpr h).last (getLast?_key_eq_iff.mpr ⟨d, hstrip, hsep⟩)

/-- **The key of a bare name** is made of its words in lower case. -/
theorem key_eq_joinWords (h : IsBare cs) :
    key cs = joinWords ((wordsBy isSeparator cs).map lower) := by
  have htrimmed := h.isTrimmed
  calc key cs
      = collapse (stripLeft ((lower (strip cs)).map spaceOut)) := by
        rw [Text.stripLeft_eq_self htrimmed.head, key]
    _ = joinWords (wordsBy isBlank ((lower (strip cs)).map spaceOut)) :=
        collapse_stripLeft htrimmed.last
    _ = joinWords ((wordsBy isSeparator cs).map lower) := by
        rw [wordsBy_spaceOut, wordsBy_lower, wordsBy_strip fun c => isSeparator_of_isBlank]

/-- There is no hyphen or underscore in a key, so none around it. -/
theorem isBare_key (cs : List Char) : IsBare (key cs) := by
  have hmarks : ∀ c ∈ strip (key cs), c ≠ '-' ∧ c ≠ '_' := fun c hc =>
    ⟨fun heq => (isPlain_key cs).unmarked.1 (heq ▸ Text.mem_of_mem_strip hc),
      fun heq => (isPlain_key cs).unmarked.2 (heq ▸ Text.mem_of_mem_strip hc)⟩
  exact ⟨fun c hc => hmarks c (List.mem_of_head? hc),
    fun c hc => hmarks c (List.mem_of_getLast? hc)⟩

/-- **The key of a bare name** is its own key. -/
theorem key_key (h : IsBare cs) : key (key cs) = key cs := by
  have hwords : wordsBy isSeparator (key cs) = (wordsBy isSeparator cs).map lower := by
    rw [key_eq_joinWords h, ← wordsBy_lower]
    exact wordsBy_joinWords rfl fun w hw => of_mem_wordsBy hw
  have hlower : lower ∘ lower = lower := funext Text.lower_lower
  rw [key_eq_joinWords (isBare_key cs), hwords, List.map_map, hlower, ← key_eq_joinWords h]

theorem toList_normalizeName (s : String) :
    (normalizeName (.string s)).toList = key s.toList := by
  rw [normalizeName, Value.text, Value.isTruthy]
  by_cases hs : s = ""
  · subst hs
    rfl
  · rw [if_pos (by simpa using hs), String.toList_ofList]

/-- Names that are bare and have the same words have the same key. -/
theorem key_eq_of_wordsBy_eq (hxs : IsBare xs) (hys : IsBare ys)
    (h : wordsBy isMark xs = wordsBy isMark ys) : key xs = key ys := by
  have hwords : ∀ cs, wordsBy isSeparator cs = (wordsBy isMark cs).flatMap (wordsBy isSeparator) :=
    wordsBy_eq_flatMap fun c => isSeparator_of_isMark
  rw [key_eq_joinWords hxs, key_eq_joinWords hys, hwords xs, hwords ys, h]

/-- **The key of a name** has no two spaces in a row, no hyphen and no underscore. It is tidy, its
own key and that of the words alone just if no hyphens and underscores are around the name: nor
around the other one, where that has the same words. -/
theorem forgets_iff (s t : String) : IsPlain (normalizeName (.string s)).toList ∧
    (Forgets s t ↔ IsBare s.toList ∧
      (wordsBy isMark s.toList = wordsBy isMark t.toList → IsBare t.toList)) := by
  refine ⟨toList_normalizeName s ▸ isPlain_key s.toList, fun h => ⟨?_, fun hwords => ?_⟩,
    fun ⟨hs, ht⟩ => ?_⟩
  · have htidy := h.tidy
    rwa [toList_normalizeName, isTidy_key_iff] at htidy
  · have htidy := h.same hwords ▸ h.tidy
    rwa [toList_normalizeName, isTidy_key_iff] at htidy
  · constructor
    · rw [toList_normalizeName]
      exact isTidy_key_iff.mpr hs
    · rw [← String.toList_inj, toList_normalizeName, toList_normalizeName, key_key hs]
    · intro hwords
      rw [← String.toList_inj, toList_normalizeName, toList_normalizeName]
      exact key_eq_of_wordsBy_eq hs (ht hwords) hwords

/-- The space for an underscore before a name stays. -/
theorem not_forgets_underscore : ¬Forgets "_a" "a" := fun h =>
  h.tidy.head (by decide +kernel)

end Montage.Look
