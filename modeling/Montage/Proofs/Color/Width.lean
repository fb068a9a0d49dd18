import Montage.Filter.Compile
import Montage.Proofs.Number.Spelling
import Montage.Proofs.Session
import Montage.Proofs.Text.Case
import Montage.Proofs.Text.Cleaning

/-!
# The width of colours in writing

The text filter and the styles of subtitles take colours of a fixed width, two hexadecimal digits
for each part. A part is written with two digits just if it lies between zero and 255, and the parts
of a colour that is written as a call of `rgb`, `hsl` or `hsv` need not.

## Main definitions

* `IsHexText`: a text of so many hexadecimal digits after a lead.
* `Color.IsBounded`: the parts of a colour lie between zero and 255.
* `KeepsWidth`: both notations of a colour have their width.

## Main statements

* `Color.isHexText_parts_iff`: which parts are written with two digits each.
* `Color.isBounded_of_parse`: a colour that is not written as a call is bounded.
* `keepsWidth_iff`: the colours whose notations have their width.
-/
namespace Montage

/-- A hexadecimal digit. -/
def IsHexDigit (c : Char) : Prop := c ∈ "0123456789abcdefABCDEF".toList

instance (c : Char) : Decidable (IsHexDigit c) := inferInstanceAs (Decidable (_ ∈ _))

/-- The text is a lead and so many hexadecimal digits after it. -/
def IsHexText (lead : String) (count : Nat) (s : String) : Prop :=
  ∃ digits : List Char, s.toList = lead.toList ++ digits ∧ digits.length = count ∧
    ∀ c ∈ digits, IsHexDigit c

/-- The part of a colour has two hexadecimal digits at most. -/
def IsByte (part : Int) : Prop := 0 ≤ part ∧ part < 256

instance (part : Int) : Decidable (IsByte part) := inferInstanceAs (Decidable (_ ∧ _))

/-- The parts of the colour lie between zero and 255. -/
structure Color.IsBounded (c : Color) : Prop where
  red : IsByte c.red
  green : IsByte c.green
  blue : IsByte c.blue

/-- A colour is written with six digits for the text filter, whatever the session; and for the
styles of subtitles, at every transparency of a byte, it is refused as no colour or written with
eight. -/
structure KeepsWidth (color : String) : Prop where
  filter : ∀ s, ∃ text s', (drawtextColor (.string color) (.string "white")).exec s =
    (.ok text, s') ∧ IsHexText "0x" 6 text
  subtitle : ∀ transparency, IsByte transparency →
    (∃ f, subtitleColor color transparency = .error (.value f)) ∨
      ∃ text, subtitleColor color transparency = .ok text ∧ IsHexText "&H" 8 text

namespace Color

variable {c : Color} {cs : List Char} {s : String} {part transparency : Int} {parts : List Int}

/-! ## Parts in writing -/

theorem two_le_length_hexByte (part : Int) : 2 ≤ (hexByte part).toList.length := by
  rw [hexByte]
  split_ifs
  · simp only [String.toList_append, String.toList_ofList, List.length_append,
      List.length_replicate]
    have hsign : "-".toList.length = 1 := rfl
    omega
  · rw [String.toList_ofList, List.length_append, List.length_replicate]
    omega

theorem isHexDigit_of_mem_toDigits {n : Nat} {d : Char} (h : d ∈ Nat.toDigits 16 n) :
    IsHexDigit d.toUpper := by
  have hdigit : ∀ k < 16, IsHexDigit (Nat.digitChar k).toUpper := by decide
  obtain ⟨k, hk, rfl⟩ := exists_eq_of_mem_toDigits (by decide) h
  exact hdigit k hk

/-- **A part is written with two digits** just if it has no more. -/
theorem isByte_iff : IsByte part ↔
    (hexByte part).toList.length = 2 ∧ ∀ c ∈ (hexByte part).toList, IsHexDigit c := by
  have hwidth : (Nat.toDigits 16 part.natAbs).length ≤ 2 ↔ part.natAbs < 256 :=
    Nat.length_toDigits_le_iff (by decide) (by decide)
  have hpos : 0 < (Nat.toDigits 16 part.natAbs).length := Nat.length_toDigits_pos
  rw [hexByte]
  split_ifs with hneg
  · refine iff_of_false (fun h => ?_) fun ⟨_, hdigits⟩ => ?_
    · exact absurd h.1 (by omega)
    · have hsign : IsHexDigit '-' := hdigits '-' (by simp)
      exact absurd hsign (by decide)
  · rw [String.toList_ofList, List.length_append, List.length_replicate, List.length_map]
    constructor
    · rintro ⟨-, hlt⟩
      refine ⟨by omega, List.forall_mem_append.mpr ⟨fun d hd => ?_, fun d hd => ?_⟩⟩
      · rw [List.eq_of_mem_replicate hd]
        decide
      · obtain ⟨digit, hdigit, rfl⟩ := List.mem_map.mp hd
        exact isHexDigit_of_mem_toDigits hdigit
    · rintro ⟨hlength, -⟩
      exact ⟨by omega, by omega⟩

theorem two_mul_length_le (parts : List Int) :
    2 * parts.length ≤ (parts.flatMap fun part => (hexByte part).toList).length := by
  induction parts with
  | nil => exact Nat.le_refl 0
  | cons part parts ih =>
      have hpart := two_le_length_hexByte part
      rw [List.flatMap_cons, List.length_append, List.length_cons]
      omega

theorem forall_isByte_iff : (∀ part ∈ parts, IsByte part) ↔
    (parts.flatMap fun part => (hexByte part).toList).length = 2 * parts.length ∧
      ∀ c ∈ parts.flatMap fun part => (hexByte part).toList, IsHexDigit c := by
  induction parts with
  | nil => simp
  | cons part parts ih =>
      -- No part has fewer than two characters, so together they have no more than two each only if
      -- each one has two.
      have hpart := two_le_length_hexByte part
      have hparts := two_mul_length_le parts
      rw [List.forall_mem_cons, ih, isByte_iff, List.flatMap_cons, List.length_append,
        List.length_cons, List.forall_mem_append]
      constructor
      · rintro ⟨⟨hlength, hfirst⟩, hlengths, hrest⟩
        exact ⟨by omega, hfirst, hrest⟩
      · rintro ⟨hlength, hfirst, hrest⟩
        exact ⟨⟨by omega, hfirst⟩, by omega, hrest⟩

/-- **Parts are written with two digits each** just if none has more. -/
theorem isHexText_parts_iff {lead : String} (parts : List Int)
    (h : s.toList = lead.toList ++ parts.flatMap fun part => (hexByte part).toList) :
    IsHexText lead (2 * parts.length) s ↔ ∀ part ∈ parts, IsByte part := by
  rw [forall_isByte_iff]
  constructor
  · rintro ⟨digits, hs, hlength, hall⟩
    obtain rfl := List.append_cancel_left (h.symm.trans hs)
    exact ⟨hlength, hall⟩
  · exact fun ⟨hlength, hall⟩ => ⟨_, h, hlength, hall⟩

theorem isBounded_iff : c.IsBounded ↔ ∀ part ∈ [c.red, c.green, c.blue], IsByte part := by
  rw [List.forall_mem_cons, List.forall_mem_cons, List.forall_mem_singleton]
  exact ⟨fun h => ⟨h.red, h.green, h.blue⟩, fun ⟨hr, hg, hb⟩ => ⟨hr, hg, hb⟩⟩

theorem isHexText_filterText_iff : IsHexText "0x" 6 c.filterText ↔ c.IsBounded := by
  rw [isBounded_iff]
  exact isHexText_parts_iff [c.red, c.green, c.blue] (by simp [filterText])

theorem isHexText_subtitleText_iff (h : IsByte transparency) :
    IsHexText "&H" 8 (c.subtitleText transparency) ↔ c.IsBounded := by
  have hparts : IsHexText "&H" 8 (c.subtitleText transparency) ↔
      ∀ part ∈ [transparency, c.blue, c.green, c.red], IsByte part :=
    isHexText_parts_iff [transparency, c.blue, c.green, c.red] (by simp [subtitleText])
  rw [hparts, List.forall_mem_cons, List.forall_mem_cons, List.forall_mem_cons,
    List.forall_mem_singleton]
  exact ⟨fun ⟨_, hb, hg, hr⟩ => ⟨hr, hg, hb⟩, fun hc => ⟨h, hc.blue, hc.green, hc.red⟩⟩

/-! ## Colours that are no calls -/

theorem isBounded_ofPacked (n : Nat) : (ofPacked n).IsBounded := by
  refine ⟨⟨?_, ?_⟩, ⟨?_, ?_⟩, ⟨?_, ?_⟩⟩ <;> simp only [ofPacked] <;> omega

theorem hexValue?_lt {d : Char} {n : Nat} (h : hexValue? d = some n) : n < 16 := by
  rw [hexValue?] at h
  split_ifs at h with hdigit hletter
  · have hdigit' := Char.isDigit_iff_toNat.mp hdigit
    have hn := Option.some.inj h
    have hnine : '9'.toNat = 57 := rfl
    omega
  · have hletter' : 'a'.toNat ≤ d.toNat ∧ d.toNat ≤ 'f'.toNat := hletter
    have hn := Option.some.inj h
    have ha : 'a'.toNat = 97 := rfl
    have hf : 'f'.toNat = 102 := rfl
    omega

theorem isBounded_ofHexDigits {digits : List Nat} (hdigits : ∀ n ∈ digits, n < 16)
    (h : ofHexDigits digits = some c) : c.IsBounded := by
  unfold ofHexDigits at h
  split at h
  case h_5 => cases h
  all_goals
    obtain rfl := Option.some.inj h
    simp only [List.forall_mem_cons] at hdigits
    refine ⟨⟨?_, ?_⟩, ⟨?_, ?_⟩, ⟨?_, ?_⟩⟩ <;> dsimp only <;> omega

/-- What is read as a call has a bracket. -/
theorem mem_of_call? {name : String} {arguments : List Argument} {found : List (List Char)}
    (h : call? name arguments cs = some found) : '(' ∈ cs := by
  rw [call?] at h
  split_ifs at h with hopening
  exact (List.isPrefixOf_iff_prefix.mp hopening).subset (by simp)

theorem mem_of_angleCall? {name : String} {found : Binary64 × Binary64 × Binary64}
    (h : angleCall? name cs = some found) : '(' ∈ cs := by
  rw [angleCall?] at h
  split at h
  · next hcall => exact mem_of_call? hcall
  · cases h

theorem isBounded_of_ofChars? (hcall : '(' ∉ cs) (h : ofChars? cs = some c) : c.IsBounded := by
  have hnone : ∀ name arguments, call? name arguments cs = none := fun name arguments =>
    Option.eq_none_iff_forall_ne_some.mpr fun _ hfound => hcall (mem_of_call? hfound)
  have hangle : ∀ name, angleCall? name cs = none := fun name =>
    Option.eq_none_iff_forall_ne_some.mpr fun _ hfound => hcall (mem_of_angleCall? hfound)
  unfold ofChars? at h
  split at h
  · split_ifs at h
    refine isBounded_ofHexDigits (fun n hn => ?_) h
    obtain ⟨d, -, hd⟩ := List.mem_filterMap.mp hn
    exact hexValue?_lt hd
  · simp [hnone, hangle] at h

theorem isCaseless_bracket : Text.IsCaseless '(' :=
  ⟨by decide, by decide, by decide +kernel, by decide⟩

/-- **A colour that is not written as a call** is bounded: a name, or hexadecimal digits. -/
theorem isBounded_of_parse (hcall : '(' ∉ s.toList) (h : parse s = .ok c) : c.IsBounded := by
  rw [parse] at h
  split_ifs at h
  dsimp only at h
  split at h
  · obtain rfl := Except.ok.inj h
    exact isBounded_ofPacked _
  · split at h
    · next hchars =>
      obtain rfl := Except.ok.inj h
      refine isBounded_of_ofChars? (fun hmem => hcall ?_) hchars
      rw [← Text.mem_lower_iff isCaseless_bracket]
      rw [dropLineBreak, String.lowerCase, String.toList_ofList] at hmem
      split_ifs at hmem
      · exact List.mem_of_mem_dropLast hmem
      · exact hmem
    · cases h

/-- A text that writes no colour is a value that does not serve. -/
theorem exists_of_parse_eq_error {f : Fault} (h : parse s = .error f) : ∃ v, f = .value v := by
  rw [parse] at h
  split_ifs at h
  · exact ⟨_, (Except.error.inj h).symm⟩
  · dsimp only at h
    split at h
    · cases h
    · split at h
      · cases h
      · exact ⟨_, (Except.error.inj h).symm⟩

end Color

/-! ## Notations of a colour -/

/-- White in the notation of the text filter. -/
theorem parse_white : Color.parse "white" = .ok ⟨255, 255, 255, none⟩ := by decide +kernel

/-- **The colour of a text** is the one that is read, else white. -/
theorem exists_exec_drawtextColor (color : String) (σ : Session) :
    ∃ σ', (drawtextColor (.string color) (.string "white")).exec σ =
      (.ok ((Color.parse color.strip).toOption.getD ⟨255, 255, 255, none⟩).filterText, σ') := by
  have hstrip : "white".strip = "white" := by decide +kernel
  have hempty : Color.parse "".strip = .error (.value (.unknownColor "")) := by decide +kernel
  unfold drawtextColor
  by_cases hcolor : color = ""
  · rw [hcolor, hempty, show (Value.string "").orElse (.string "white") = .string "white" from rfl]
    dsimp only
    rw [hstrip, parse_white]
    exact ⟨σ, rfl⟩
  · have horElse : (Value.string color).orElse (.string "white") = .string color :=
      if_pos (decide_eq_true hcolor)
    rw [horElse]
    dsimp only
    cases Color.parse color.strip with
    | ok c => exact ⟨σ, rfl⟩
    | error f =>
        dsimp only
        rw [Action.exec_bind_of_ok (Action.exec_warn _ _), parse_white]
        exact ⟨_, rfl⟩

theorem keepsWidth_of_forall {color : String}
    (h : ∀ c, Color.parse color.strip = .ok c → c.IsBounded) : KeepsWidth color := by
  refine ⟨fun σ => ?_, fun transparency htransparency => ?_⟩
  · obtain ⟨σ', hexec⟩ := exists_exec_drawtextColor color σ
    refine ⟨_, σ', hexec, Color.isHexText_filterText_iff.mpr ?_⟩
    cases hparse : Color.parse color.strip with
    | ok c => exact h c hparse
    | error f =>
        have hwhite : (⟨255, 255, 255, none⟩ : Color).IsBounded :=
          ⟨by decide, by decide, by decide⟩
        exact hwhite
  · rw [subtitleColor]
    cases hparse : Color.parse color.strip with
    | ok c =>
        exact .inr ⟨_, rfl, (Color.isHexText_subtitleText_iff htransparency).mpr (h c hparse)⟩
    | error f =>
        obtain ⟨v, rfl⟩ := Color.exists_of_parse_eq_error hparse
        exact .inl ⟨v, rfl⟩

/-- A colour whose notation for the text filter has its width is bounded. -/
theorem KeepsWidth.isBounded {color : String} {c : Color} (h : KeepsWidth color)
    (hparse : Color.parse color.strip = .ok c) : c.IsBounded := by
  obtain ⟨text, σ, hexec, htext⟩ := h.filter default
  obtain ⟨σ', hexec'⟩ := exists_exec_drawtextColor color default
  rw [hparse] at hexec'
  obtain rfl : c.filterText = text := Except.ok.inj (Prod.mk.inj (hexec'.symm.trans hexec)).1
  exact Color.isHexText_filterText_iff.mp htext

/-- **Names and hexadecimal digits** keep the width of both notations. -/
theorem keepsWidth_of_no_call {color : String} (h : '(' ∉ color.toList) : KeepsWidth color := by
  refine keepsWidth_of_forall fun c hparse => Color.isBounded_of_parse (fun hmem => h ?_) hparse
  rw [String.strip, String.toList_ofList] at hmem
  exact Text.mem_of_mem_strip hmem

/-- **The notations of a colour** have their width just if the text writes no colour, or one whose
parts lie between zero and 255. -/
theorem keepsWidth_iff (color : String) :
    KeepsWidth color ↔ ∀ c, Color.parse color.strip = .ok c → c.IsBounded :=
  ⟨fun h _ => h.isBounded, keepsWidth_of_forall⟩

/-- **A part of three hundred** is written with three digits. -/
theorem not_keepsWidth_glare : ¬KeepsWidth "rgb(300,0,0)" := by
  intro h
  have hparse : Color.parse "rgb(300,0,0)".strip = .ok ⟨300, 0, 0, none⟩ := by decide +kernel
  exact absurd (h.isBounded hparse).red (by decide)

end Montage
