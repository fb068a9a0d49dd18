import Montage.Filter.Escape

/-!
# Escaped texts

A text is guarded against some characters if each of them, and every backslash, stands in it behind
a backslash or begins such a pair. Escaping guards a text. A guarded text can be cut out of a longer
one at its separators, and no reader finds a character in it that it is guarded against.

## Main definitions

* `Escape.pieces`: a text cut at its unescaped separators.
* `Escape.bare`: the characters of a text that no backslash makes literal.
* `Escape.Guarded`: the guarded texts.

## Main statements

* `guarded_level`, `undo_level`: escaping guards a text and can be undone.
* `pieces_intercalate`: guarded texts that are joined by a separator are cut apart again.
-/
namespace Montage.Escape

/-- The pieces of a text between its unescaped separators, each of them still escaped. -/
def pieces (sep : Char) : List Char → List (List Char)
  | [] => [[]]
  | '\\' :: c :: cs => (pieces sep cs).modifyHead fun p => '\\' :: c :: p
  | c :: cs => if c = sep then [] :: pieces sep cs else (pieces sep cs).modifyHead (c :: ·)

/-- The characters of a text that no backslash makes literal, the backslashes that do so left
out. -/
def bare : List Char → List Char
  | [] => []
  | '\\' :: _ :: cs => bare cs
  | c :: cs => c :: bare cs

/-- The text has none of the `specials` but behind a backslash, and every backslash makes the next
character literal. -/
inductive Guarded (specials : List Char) : List Char → Prop
  | nil : Guarded specials []
  | escaped {cs : List Char} (c : Char) : Guarded specials cs → Guarded specials ('\\' :: c :: cs)
  | plain {c : Char} {cs : List Char} :
      c ≠ '\\' → c ∉ specials → Guarded specials cs → Guarded specials (c :: cs)

variable {specials : List Char} {sep c : Char} {a b cs : List Char}

theorem pieces_of_ne (h : c ≠ '\\') : pieces sep (c :: cs) =
    if c = sep then [] :: pieces sep cs else (pieces sep cs).modifyHead (c :: ·) := by
  rw [pieces]
  rintro _ _ rfl
  exact absurd rfl h

theorem undo_of_ne (h : c ≠ '\\') : undo (c :: cs) = c :: undo cs := by
  rw [undo]
  · rintro _ _ rfl
    exact absurd rfl h
  · rintro rfl
    exact absurd rfl h

theorem bare_of_ne (h : c ≠ '\\') : bare (c :: cs) = c :: bare cs := by
  rw [bare]
  rintro _ _ rfl
  exact absurd rfl h

/-! ## One pass of escaping -/

@[simp] theorem level_nil : level specials [] = [] := rfl

theorem level_cons : level specials (c :: cs) =
    (if specials.contains c then ['\\', c] else [c]) ++ level specials cs := rfl

@[simp] theorem level_append : level specials (a ++ b) = level specials a ++ level specials b := by
  simp [level]

/-- A text without special characters is written as it is. -/
theorem level_of_plain (h : ∀ c ∈ cs, c ∉ specials) : level specials cs = cs := by
  induction cs with
  | nil => rfl
  | cons c cs ih =>
      have hc : c ∉ specials := h c (by simp)
      rw [level_cons, ih fun d hd => h d (by simp [hd])]
      simp [hc]

/-- Joined texts are escaped one by one if the separator is written as it is. -/
theorem level_intercalate (h : ∀ c ∈ a, c ∉ specials) (ps : List (List Char)) :
    level specials (a.intercalate ps) = a.intercalate (ps.map (level specials)) := by
  induction ps with
  | nil => rfl
  | cons p ps ih =>
      by_cases hrest : ps = []
      · simp [hrest]
      · rw [List.intercalate_cons_of_ne_nil hrest, List.map_cons,
          List.intercalate_cons_of_ne_nil (by simpa using hrest), level_append, level_append,
          level_of_plain h, ih]

/-- One pass of unescaping undoes one pass of escaping. -/
theorem undo_level (h : '\\' ∈ specials) : undo (level specials cs) = cs := by
  induction cs with
  | nil => rfl
  | cons c cs ih =>
      rw [level_cons]
      by_cases hc : c ∈ specials
      · simp [hc, undo, ih]
      · have hne : c ≠ '\\' := fun heq => hc (heq ▸ h)
        simp [hc, undo_of_ne hne, ih]

/-! ## Guarded texts -/

theorem guarded_level (h : '\\' ∈ specials) : Guarded specials (level specials cs) := by
  induction cs with
  | nil => exact .nil
  | cons c cs ih =>
      rw [level_cons]
      by_cases hc : c ∈ specials
      · simpa [hc] using Guarded.escaped c ih
      · have hne : c ≠ '\\' := fun heq => hc (heq ▸ h)
        simpa [hc] using Guarded.plain hne hc ih

theorem guarded_of_plain (h : '\\' ∈ specials) (hcs : ∀ c ∈ cs, c ∉ specials) :
    Guarded specials cs := level_of_plain hcs ▸ guarded_level h

theorem Guarded.append (ha : Guarded specials a) (hb : Guarded specials b) :
    Guarded specials (a ++ b) := by
  induction ha with
  | nil => exact hb
  | escaped c _ ih => exact .escaped c ih
  | plain hne hc _ ih => exact .plain hne hc ih

/-- To be guarded against fewer characters is weaker. -/
theorem Guarded.mono {fewer : List Char} (ha : Guarded specials a) (h : fewer ⊆ specials) :
    Guarded fewer a := by
  induction ha with
  | nil => exact .nil
  | escaped c _ ih => exact .escaped c ih
  | plain hne hc _ ih => exact .plain hne (fun hmem => hc (h hmem)) ih

theorem Guarded.intercalate {ps : List (List Char)} (hsep : Guarded specials a)
    (hps : ∀ p ∈ ps, Guarded specials p) : Guarded specials (a.intercalate ps) := by
  induction ps with
  | nil => exact .nil
  | cons p ps ih =>
      have hp : Guarded specials p := hps p (by simp)
      by_cases hrest : ps = []
      · simpa [hrest] using hp
      · rw [List.intercalate_cons_of_ne_nil hrest]
        exact (hp.append hsep).append (ih fun r hr => hps r (by simp [hr]))

/-- A reader finds none of the characters that a text is guarded against. -/
theorem Guarded.notMem_bare (ha : Guarded specials a) (hc : c ∈ specials) : c ∉ bare a := by
  induction ha with
  | nil => simp [bare]
  | escaped d _ ih => simpa [bare] using ih
  | plain hne hd _ ih =>
      rw [bare_of_ne hne, List.mem_cons, not_or]
      exact ⟨fun heq => hd (heq ▸ hc), ih⟩

/-! ## Cutting at separators -/

/-- A guarded text is one piece. -/
theorem Guarded.pieces_eq (ha : Guarded specials a) (hsep : sep ∈ specials) :
    pieces sep a = [a] := by
  induction ha with
  | nil => rfl
  | escaped c _ ih => simp [pieces, ih]
  | @plain c cs hne hc _ ih =>
      have hcs : c ≠ sep := fun heq => hc (heq ▸ hsep)
      simp [pieces_of_ne hne, hcs, ih]

/-- The first separator after a guarded text ends the first piece. -/
theorem Guarded.pieces_append (ha : Guarded specials a) (hsep : sep ∈ specials) (hne : sep ≠ '\\') :
    pieces sep (a ++ sep :: b) = a :: pieces sep b := by
  induction ha with
  | nil => simp [pieces_of_ne hne]
  | escaped c _ ih => simp [pieces, ih]
  | @plain c cs hc hspecial _ ih =>
      have hcs : c ≠ sep := fun heq => hspecial (heq ▸ hsep)
      simp [pieces_of_ne hc, hcs, ih]

/-- Guarded texts that are joined by a separator are the pieces of the result. -/
theorem pieces_intercalate {ps : List (List Char)} (hsep : sep ∈ specials) (hne : sep ≠ '\\')
    (hps : ps ≠ []) (h : ∀ p ∈ ps, Guarded specials p) :
    pieces sep ([sep].intercalate ps) = ps := by
  induction ps with
  | nil => exact absurd rfl hps
  | cons p ps ih =>
      have hp : Guarded specials p := h p (by simp)
      by_cases hrest : ps = []
      · simpa [hrest] using hp.pieces_eq hsep
      · have hcut := hp.pieces_append (b := [sep].intercalate ps) hsep hne
        have htail := ih hrest fun r hr => h r (by simp [hr])
        rw [List.intercalate_cons_of_ne_nil hrest]
        simpa [htail] using hcut

end Montage.Escape
