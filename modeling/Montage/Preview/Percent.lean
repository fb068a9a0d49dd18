import Montage.Text.Quoted

/-!
# Percent encoding

In a URL every octet of a text that is not a letter, a digit or one of four marks is written as a
percent sign and two hexadecimal digits. Texts inside a step of the preview service encode commas
and slashes once more, since the service splits steps there.

## Main definitions

* `Montage.Percent.encode`: the octets of a text, encoded.
* `Montage.overlayText`: a text for a step of the preview service.
-/

namespace Montage

namespace Percent

/-- The octets that stand for themselves. -/
def isPlain (b : UInt8) : Bool :=
  (Char.ofNat b.toNat).isAlphanum || b = 0x5F || b = 0x2E || b = 0x2D || b = 0x7E

/-- A percent sign and the two hexadecimal digits of an octet. -/
def escape (b : UInt8) : List Char := '%' :: (Text.hexDigits 2 b.toNat).map Char.toUpper

/-- The spelling of one octet. -/
def octet (b : UInt8) : List Char := if isPlain b then [Char.ofNat b.toNat] else escape b

/-- The octets of a character. -/
def octets (c : Char) : List UInt8 := (String.singleton c).toUTF8.toList

/-- The characters of a text, encoded. -/
def encode (cs : List Char) : List Char := (cs.flatMap octets).flatMap octet

end Percent

/-- The spelling of one octet inside a step: a comma and a slash are encoded twice. -/
def overlayOctet (b : UInt8) : List Char :=
  if b = 0x2C || b = 0x2F then '%' :: '2' :: '5' :: (Percent.escape b).drop 1 else Percent.octet b

/-- A text for a step of the preview service. -/
def overlayText (s : String) : String :=
  String.ofList ((s.toList.flatMap Percent.octets).flatMap overlayOctet)

end Montage
