import Montage.Json.Writer
import Montage.Proofs.Number.Spelling
import Montage.Proofs.Text.Case
import Montage.Proofs.Text.Lines

/-!
# The characters of written JSON

Whatever a value holds, its text is made of the printable characters of ASCII and of line feeds. So
it is the same text in every encoding that extends ASCII, and it has no carriage returns that a
reader of lines would take for line ends.

## Main definitions

* `Json.isPlain`, `Json.IsPlain`: the characters that are written, and texts of them.

## Main statements

* `Json.isPlain_pages`: the text of a value over several lines.
-/
namespace Montage.Json

/-- A printable character of ASCII, or a line feed. -/
def isPlain (c : Char) : Bool := c = '\n' || 0x20 ≤ c.toNat && c.toNat < 0x7F

/-- All characters of the text are plain. -/
def IsPlain (s : String) : Prop := ∀ c ∈ s.toList, isPlain c = true

instance (s : String) : Decidable (IsPlain s) := List.decidableBAll _ s.toList

/-- What a layout writes between the parts of a container is plain. -/
structure Layout.IsPlain (l : Layout) : Prop where
  margin : ∀ depth, Json.IsPlain (l.margin depth)
  gap : ∀ depth, Json.IsPlain (l.gap depth)

variable {c : Char} {s t : String} {l : Layout} {depth : Nat}

theorem isPlain_append : IsPlain (s ++ t) ↔ IsPlain s ∧ IsPlain t := by
  simp [IsPlain, or_imp, forall_and]

theorem isPlain_ofList {cs : List Char} :
    IsPlain (String.ofList cs) ↔ ∀ c ∈ cs, isPlain c = true := by
  rw [IsPlain, String.toList_ofList]

/-! ## Texts and numbers -/

theorem isPlain_of_isAlphanum (h : c.isAlphanum = true) : isPlain c = true := by
  have halphanum : c.isAlphanum = (c.isAlpha || c.isDigit) := rfl
  have hdigit : c.isDigit = true ↔ 0x30 ≤ c.toNat ∧ c.toNat ≤ 0x39 := by
    simp only [Char.isDigit, Bool.and_eq_true, decide_eq_true_eq, UInt32.le_iff_toNat_le]
    exact Iff.rfl
  rw [halphanum, Bool.or_eq_true, Text.isAlpha_iff, hdigit] at h
  simp only [isPlain, Bool.or_eq_true, Bool.and_eq_true, decide_eq_true_eq]
  omega

theorem isPlain_of_numeralChar (h : numeralChar c = true) : isPlain c = true := by
  simp only [numeralChar, Bool.or_eq_true, decide_eq_true_eq] at h
  rcases h with ((h | rfl) | rfl) | rfl
  · exact isPlain_of_isAlphanum h
  · rfl
  · rfl
  · rfl

theorem isNumeral_numberText (n : Number) : IsNumeral (numberText n) := by
  unfold numberText
  split
  · decide
  · next negative => cases negative <;> decide
  · exact n.isNumeral_text

theorem isPlain_numberText (n : Number) : IsPlain (numberText n) := fun c hc =>
  isPlain_of_numeralChar (isNumeral_numberText n c hc)

theorem isPlain_of_mem_hexDigits {width n : Nat} (h : c ∈ Text.hexDigits width n) :
    isPlain c = true := by
  have hdigit : ∀ k < 16, isPlain (Nat.digitChar k) = true := by decide
  rcases List.mem_append.mp h with h | h
  · rw [List.eq_of_mem_replicate h]
    decide
  · obtain ⟨k, hk, rfl⟩ := exists_eq_of_mem_toDigits (by decide) h
    exact hdigit k hk

theorem isPlain_of_mem_escape16 {n : Nat} (h : c ∈ escape16 n) : isPlain c = true := by
  simp only [escape16, List.mem_cons] at h
  rcases h with rfl | rfl | h
  · rfl
  · rfl
  · exact isPlain_of_mem_hexDigits h

theorem isPlain_of_mem_stringChar {d : Char} (h : d ∈ stringChar c) : isPlain d = true := by
  have hpair {e : Char} (he : isPlain e = true) (hd : d ∈ ['\\', e]) : isPlain d = true := by
    simp only [List.mem_cons, List.not_mem_nil, or_false] at hd
    rcases hd with rfl | rfl
    · rfl
    · exact he
  unfold stringChar at h
  iterate 7
    split at h
    · exact hpair rfl h
  split at h
  · next hprintable =>
    rw [List.mem_singleton.mp h, isPlain]
    simp [hprintable]
  · split at h
    · exact isPlain_of_mem_escape16 h
    · exact (List.mem_append.mp h).elim isPlain_of_mem_escape16 isPlain_of_mem_escape16

theorem isPlain_stringText (s : String) : IsPlain (stringText s) := by
  rw [stringText, isPlain_ofList]
  intro c hc
  simp only [List.cons_append, List.mem_cons, List.mem_append, List.mem_flatMap, List.not_mem_nil,
    or_false] at hc
  rcases hc with rfl | ⟨d, -, hc⟩ | rfl
  · rfl
  · exact isPlain_of_mem_stringChar hc
  · rfl

/-! ## Values -/

theorem isPlain_indent (depth : Nat) : IsPlain (indent depth) := by
  rw [indent, isPlain_ofList]
  refine List.forall_mem_cons.mpr ⟨rfl, fun c hc => ?_⟩
  rw [List.eq_of_mem_replicate hc]
  rfl

theorem isPlain_enclosed {opening closing : String} {parts : List String} (hl : l.IsPlain)
    (hopening : IsPlain opening) (hclosing : IsPlain closing) (hparts : ∀ t ∈ parts, IsPlain t) :
    IsPlain (enclosed l depth opening closing parts) := by
  rw [enclosed]
  split_ifs
  · exact isPlain_append.mpr ⟨hopening, hclosing⟩
  · simp only [isPlain_append]
    exact ⟨⟨⟨⟨hopening, hl.margin _⟩, forall_mem_intercalate (hl.gap _) hparts⟩, hl.margin _⟩,
      hclosing⟩

mutual

theorem isPlain_write (hl : l.IsPlain) : ∀ (depth : Nat) (v : Value), IsPlain (write l depth v)
  | _, .null => by
      rw [write]
      decide
  | _, .bool b => by
      rw [write]
      cases b <;> decide
  | _, .number n => by
      rw [write]
      exact isPlain_numberText n
  | _, .string s => by
      rw [write]
      exact isPlain_stringText s
  | depth, .list items => by
      rw [write]
      exact isPlain_enclosed hl (by decide) (by decide) (isPlain_writeItems hl (depth + 1) items)
  | depth, .object fields => by
      rw [write]
      exact isPlain_enclosed hl (by decide) (by decide) (isPlain_writeFields hl (depth + 1) fields)

theorem isPlain_writeItems (hl : l.IsPlain) :
    ∀ (depth : Nat) (vs : List Value), ∀ t ∈ writeItems l depth vs, IsPlain t
  | _, [] => nofun
  | depth, v :: vs => List.forall_mem_cons.mpr
      ⟨isPlain_write hl depth v, isPlain_writeItems hl depth vs⟩

theorem isPlain_writeFields (hl : l.IsPlain) :
    ∀ (depth : Nat) (fs : List (String × Value)), ∀ t ∈ writeFields l depth fs, IsPlain t
  | _, [] => nofun
  | depth, (k, v) :: fs => List.forall_mem_cons.mpr
      ⟨isPlain_append.mpr ⟨isPlain_append.mpr ⟨isPlain_stringText k, by decide⟩,
        isPlain_write hl depth v⟩, isPlain_writeFields hl depth fs⟩

end

theorem isPlain_indented : Layout.indented.IsPlain where
  margin := isPlain_indent
  gap depth := isPlain_append.mpr ⟨by decide, isPlain_indent depth⟩

/-- **The text of a value** is made of printable characters of ASCII and of line feeds. -/
theorem isPlain_pages (v : Value) : IsPlain (pages v) := isPlain_write isPlain_indented 0 v

end Montage.Json
