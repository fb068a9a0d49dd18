import Mathlib.Data.List.Basic
import Mathlib.Tactic
import Montage.Preview.Percent

/-!
# Reading overlay texts back

A percent-encoded text is read back octet by octet, so that different texts are written differently.
A text over the picture is the encoding of a text in which every comma and every slash was spelled
out as an escape first. What is spelled out like this cannot be told from a text that had the escape
from the start.

## Main definitions

* `Percent.decode`: the octets of an encoded text.
* `spelledOut`: a text with the escapes of its commas and slashes.

## Main statements

* `Percent.encode_inj`: different texts are encoded differently.
* `overlayText_eq_iff`: which texts over the picture are written alike.
-/
namespace Montage

namespace Percent

variable {b : UInt8} {c : Char} {cs ds : List Char}

/-! ## Octets of characters -/

theorem toList_loop (bs : ByteArray) (i : Nat) (acc : List UInt8) :
    ByteArray.toList.loop bs i acc = acc.reverse ++ bs.data.toList.drop i := by
  fun_induction ByteArray.toList.loop bs i acc with
  | case1 i acc hi ih =>
      have hget : bs.get! i = bs.data.toList[i] := getElem!_pos bs.data i hi
      rw [ih, List.drop_eq_getElem_cons (i := i) (l := bs.data.toList) hi, hget]
      simp
  | case2 i acc hi =>
      have hnil : bs.data.toList.drop i = [] := List.drop_eq_nil_of_le (Nat.le_of_not_lt hi)
      rw [hnil, List.append_nil]

theorem octets_eq (c : Char) : octets c = String.utf8EncodeChar c := by
  have hencode : (String.singleton c).toUTF8 = (String.utf8EncodeChar c).toByteArray := by
    rw [String.toUTF8_eq_toByteArray, String.toByteArray_singleton]
    simp [List.utf8Encode]
  rw [octets, hencode, ByteArray.toList, toList_loop]
  simp

theorem flatMap_octets (cs : List Char) :
    (cs.flatMap octets).toByteArray = (String.ofList cs).toByteArray := by
  rw [String.toByteArray_ofList, List.utf8Encode, funext octets_eq]

/-- **Different texts** have different octets. -/
theorem flatMap_octets_inj : cs.flatMap octets = ds.flatMap octets ↔ cs = ds := by
  rw [← List.toByteArray_inj, flatMap_octets, flatMap_octets, String.toByteArray_inj,
    String.ofList_inj]

/-- An octet of ASCII is a character by itself, and part of no other one. -/
theorem toNat_eq_of_mem_octets (hb : b ∈ octets c) (hlow : b.toNat < 0x80) :
    c.toNat = b.toNat := by
  have hval : c.val.toNat = c.toNat := rfl
  -- The octets of a longer character are all beyond ASCII.
  have hall : ∀ b ∈ octets c, 0x80 ≤ b.toNat ∨ c.toNat = b.toNat := by
    rw [octets_eq, String.utf8EncodeChar, hval]
    split_ifs
    all_goals
      simp only [List.forall_mem_cons, List.not_mem_nil, false_imp_iff, implies_true, and_true,
        UInt8.toNat_ofNat']
      omega
  exact (hall b hb).resolve_left (by omega)

/-! ## Reading an encoded text -/

/-- The value of a hexadecimal digit. -/
def digitValue (c : Char) : Nat :=
  if c.isDigit then c.toNat - '0'.toNat else c.toNat - 'A'.toNat + 10

/-- The octets that an encoded text stands for. -/
def decode : List Char → List UInt8
  | '%' :: x :: y :: cs => UInt8.ofNat (16 * digitValue x + digitValue y) :: decode cs
  | c :: cs => UInt8.ofNat c.toNat :: decode cs
  | [] => []

/-- A hexadecimal digit in upper case. -/
def upperDigit (n : Nat) : Char := n.digitChar.toUpper

/-- An octet is written as the character with its code, or as two digits after a percent sign. -/
theorem octet_eq (b : UInt8) :
    octet b = [Char.ofNat b.toNat] ∧ Char.ofNat b.toNat ≠ '%' ∧
        (Char.ofNat b.toNat).toNat = b.toNat ∨
      octet b = ['%', upperDigit (b.toNat / 16), upperDigit (b.toNat % 16)] ∧
        16 * digitValue (upperDigit (b.toNat / 16)) + digitValue (upperDigit (b.toNat % 16)) =
          b.toNat := by
  have hall : ∀ n < 256,
      octet (UInt8.ofNat n) = [Char.ofNat n] ∧ Char.ofNat n ≠ '%' ∧ (Char.ofNat n).toNat = n ∨
      octet (UInt8.ofNat n) = ['%', upperDigit (n / 16), upperDigit (n % 16)] ∧
        16 * digitValue (upperDigit (n / 16)) + digitValue (upperDigit (n % 16)) = n := by
    decide +kernel
  have hb := hall b.toNat b.toNat_lt
  rwa [UInt8.ofNat_toNat] at hb

theorem decode_octet_append (b : UInt8) (cs : List Char) :
    decode (octet b ++ cs) = b :: decode cs := by
  rcases octet_eq b with ⟨hoctet, hne, hcode⟩ | ⟨hoctet, hcode⟩
  · rw [hoctet, List.singleton_append, decode, hcode, UInt8.ofNat_toNat]
    intro x y rest hpercent
    exact absurd hpercent hne
  · rw [hoctet]
    show UInt8.ofNat _ :: decode cs = _
    rw [hcode, UInt8.ofNat_toNat]

/-- **An encoded text** is read back. -/
theorem decode_encode (cs : List Char) : decode (encode cs) = cs.flatMap octets := by
  rw [encode]
  induction cs.flatMap octets with
  | nil => rfl
  | cons b bs ih => rw [List.flatMap_cons, decode_octet_append, ih]

/-- **Different texts** are encoded differently. -/
theorem encode_inj : encode cs = encode ds ↔ cs = ds := by
  constructor
  · intro h
    have hoctets := congrArg decode h
    rwa [decode_encode, decode_encode, flatMap_octets_inj] at hoctets
  · intro h
    rw [h]

end Percent

/-! ## Texts over the picture -/

/-- A character with its escape in its place if it separates parts of a step. -/
def spellOut (c : Char) : List Char :=
  if c = ',' then ['%', '2', 'C'] else if c = '/' then ['%', '2', 'F'] else [c]

/-- A text with the escapes of its commas and slashes in their places. -/
def spelledOut (s : String) : String := String.ofList (s.toList.flatMap spellOut)

open Percent (octets octet)

/-- A character over the picture is written like its escape. -/
theorem flatMap_overlayOctet (c : Char) :
    (octets c).flatMap overlayOctet = Percent.encode (spellOut c) := by
  by_cases hcomma : c = ','
  · subst hcomma
    decide +kernel
  · by_cases hslash : c = '/'
    · subst hslash
      decide +kernel
    · rw [spellOut, if_neg hcomma, if_neg hslash, Percent.encode, List.flatMap_singleton]
      refine List.flatMap_congr fun b hb => if_neg ?_
      -- The octets of a comma and of a slash are in no other character.
      have hcode : ∀ d : Char, d.toNat < 0x80 → b = UInt8.ofNat d.toNat → c = d := by
        intro d hd hbd
        have hnat : b.toNat = d.toNat := by
          rw [hbd, UInt8.toNat_ofNat']
          omega
        have hc := Percent.toNat_eq_of_mem_octets hb (by omega)
        rw [← Char.ofNat_toNat c, hc, hnat, Char.ofNat_toNat]
      intro hseparator
      rcases Bool.or_eq_true _ _ ▸ hseparator with h | h
      · exact hcomma (hcode ',' (by decide) (of_decide_eq_true h))
      · exact hslash (hcode '/' (by decide) (of_decide_eq_true h))

/-- A text over the picture is the encoding of the text with its commas and slashes spelled out. -/
theorem overlayText_eq (s : String) :
    overlayText s = String.ofList (Percent.encode (spelledOut s).toList) := by
  rw [overlayText, spelledOut, String.toList_ofList, Percent.encode, List.flatMap_assoc,
    List.flatMap_assoc, List.flatMap_assoc]
  congr 1
  refine List.flatMap_congr fun c _ => ?_
  rw [flatMap_overlayOctet, Percent.encode, List.flatMap_assoc]

/-- **Texts over the picture** are written alike just if they are the same with their commas and
slashes spelled out. -/
theorem overlayText_eq_iff (s t : String) :
    overlayText s = overlayText t ↔ spelledOut s = spelledOut t := by
  rw [overlayText_eq, overlayText_eq, String.ofList_inj, Percent.encode_inj, String.toList_inj]

/-- A comma is written like the text that is its escape. -/
theorem not_injective_overlayText :
    overlayText "," = overlayText "%2C" ∧ ¬Function.Injective overlayText := by
  have halike : overlayText "," = overlayText "%2C" := by decide +kernel
  exact ⟨halike, fun hinj => absurd (hinj halike) (by decide)⟩

end Montage
