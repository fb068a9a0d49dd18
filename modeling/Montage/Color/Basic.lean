import Montage.Color.Names
import Montage.Number.Numeral
import Montage.Text.Case
import Montage.Value

/-!
# Colours

A colour is written as a name, as hexadecimal digits after a hash sign, or as a call of `rgb`,
`rgba`, `hsl`, `hsv` or `hsb`. Letter case does not matter, one line break may follow, and the
parts of a call are not bounded: a colour may have parts below zero or above 255.

## Main definitions

* `Montage.Color`: the parts of a colour.
* `Color.parse`: the colour that a text writes.
-/

namespace Montage

/-- Red, green and blue, and the opacity if it is written. -/
structure Color where
  red : Int
  green : Int
  blue : Int
  alpha : Option Int
  deriving DecidableEq, Inhabited

namespace Color

open Text

/-- The longest text that is read as a colour. -/
def maxLength : Nat := 100

/-- The colour whose parts are packed into one number. -/
def ofPacked (n : Nat) : Color := ⟨n / 0x10000 % 0x100, n / 0x100 % 0x100, n % 0x100, none⟩

/-- The value of a hexadecimal digit in lower case. -/
def hexValue? (c : Char) : Option Nat :=
  if c.isDigit then some (c.toNat - 0x30)
  else if 'a' ≤ c ∧ c ≤ 'f' then some (c.toNat - 0x57)
  else none

/-- The colour of three, four, six or eight hexadecimal digits. Of a single digit the part is the
digit written twice. -/
def ofHexDigits : List Nat → Option Color
  | [r, g, b] => some ⟨17 * r, 17 * g, 17 * b, none⟩
  | [r, g, b, a] => some ⟨17 * r, 17 * g, 17 * b, some (17 * a)⟩
  | [r, r', g, g', b, b'] => some ⟨16 * r + r', 16 * g + g', 16 * b + b', none⟩
  | [r, r', g, g', b, b', a, a'] =>
    some ⟨16 * r + r', 16 * g + g', 16 * b + b', some (16 * a + a')⟩
  | _ => none

/-- One argument of a call: digits, with a point and further digits if it may be a `fraction`, and a
percent sign if it is a `percentage`. -/
structure Argument where
  fraction : Bool
  percentage : Bool

/-- The argument at the head of a text and the blanks around it, as its characters, and what
follows. -/
def Argument.read (a : Argument) (cs : List Char) : Option (List Char × List Char) :=
  let cs := cs.dropWhile isBlank
  let whole := cs.takeWhile isDecimalDigit
  let rest := cs.dropWhile isDecimalDigit
  if whole.isEmpty then none
  else
    let (part, rest) :=
      match a.fraction, rest with
      | true, '.' :: r => ('.' :: r.takeWhile isDecimalDigit, r.dropWhile isDecimalDigit)
      | _, r => ([], r)
    match a.percentage, rest with
    | true, '%' :: r => some (whole ++ part, r.dropWhile isBlank)
    | true, _ => none
    | false, r => some (whole ++ part, r.dropWhile isBlank)

/-- The arguments up to the closing parenthesis, with nothing after it. -/
def readArguments : List Argument → List Char → Option (List (List Char))
  | [], _ => none
  | [a], cs =>
    match a.read cs with
    | some (x, [')']) => some [x]
    | _ => none
  | a :: as, cs =>
    match a.read cs with
    | some (x, ',' :: rest) => (readArguments as rest).map (x :: ·)
    | _ => none

/-- The arguments of a call of `name`. -/
def call? (name : String) (arguments : List Argument) (cs : List Char) :
    Option (List (List Char)) :=
  let opening := name.toList ++ ['(']
  if opening.isPrefixOf cs then readArguments arguments (cs.drop opening.length) else none

/-- A plain number. -/
def plain : Argument := ⟨false, false⟩

/-- A percentage. -/
def percent : Argument := ⟨false, true⟩

/-- The integer that digits write. -/
def natural (cs : List Char) : Nat := Numeral.ofDigits (cs.filterMap digitValue?)

/-- The binary number that digits with a point write. -/
def decimal (cs : List Char) : Binary64 := (Numeral.real? (String.ofList cs)).getD 0

/-- The integer part of `x`. -/
def wholePart (x : Binary64) : Int := ((x.toRat?).map Binary64.truncate).getD 0

/-- A part between zero and one on the scale to 255. -/
def scalePart (x : Binary64) : Int := wholePart (x * 255 + .nearest (1 / 2))

/-- A percentage on the scale to 255. -/
def percentPart (cs : List Char) : Int :=
  wholePart (.nearest ((natural cs * 255 : Nat) : Rat) / 100 + .nearest (1 / 2))

/-- One part of a colour with the extremes `low` and `high`, at an angle given in turns. -/
def huePart (low high angle : Binary64) : Binary64 :=
  let turn := angle.mod 1
  if turn < .nearest (1 / 6) then low + (high - low) * turn * 6
  else if turn < .nearest (1 / 2) then high
  else if turn < .nearest (2 / 3) then low + (high - low) * (.nearest (2 / 3) - turn) * 6
  else low

/-- The parts of a colour given by hue, lightness and saturation. -/
def ofLightness (hue light saturation : Binary64) : Binary64 × Binary64 × Binary64 :=
  if saturation == 0 then (light, light, light)
  else
    let high :=
      if light ≤ .nearest (1 / 2) then light * (1 + saturation)
      else light + saturation - light * saturation
    let low := 2 * light - high
    let third : Binary64 := .nearest (1 / 3)
    (huePart low high (hue + third), huePart low high hue, huePart low high (hue - third))

/-- The parts of a colour given by hue, saturation and value. -/
def ofBrightness (hue saturation value : Binary64) : Binary64 × Binary64 × Binary64 :=
  if saturation == 0 then (value, value, value)
  else
    let sector := wholePart (hue * 6)
    let rest := hue * 6 - .nearest sector
    let p := value * (1 - saturation)
    let q := value * (1 - saturation * rest)
    let t := value * (1 - saturation * (1 - rest))
    match sector % 6 with
    | 0 => (value, t, p)
    | 1 => (q, value, p)
    | 2 => (p, value, t)
    | 3 => (p, q, value)
    | 4 => (t, p, value)
    | _ => (value, p, q)

/-- The colour whose parts lie between zero and one. -/
def ofParts (parts : Binary64 × Binary64 × Binary64) : Color :=
  ⟨scalePart parts.1, scalePart parts.2.1, scalePart parts.2.2, none⟩

/-- Hue in degrees, then two percentages. -/
def angleCall? (name : String) (cs : List Char) : Option (Binary64 × Binary64 × Binary64) :=
  match call? name [⟨true, false⟩, ⟨true, true⟩, ⟨true, true⟩] cs with
  | some [h, x, y] => some (decimal h / 360, decimal x / 100, decimal y / 100)
  | _ => none

/-- The colour that a text in lower case without a line break at the end writes. -/
def ofChars? (cs : List Char) : Option Color :=
  match cs with
  | '#' :: digits =>
    if digits.all fun c => (hexValue? c).isSome then ofHexDigits (digits.filterMap hexValue?)
    else none
  | cs =>
    match call? "rgb" [plain, plain, plain] cs, call? "rgb" [percent, percent, percent] cs,
        angleCall? "hsl" cs, (angleCall? "hsv" cs).or (angleCall? "hsb" cs),
        call? "rgba" [plain, plain, plain, plain] cs with
    | some [r, g, b], _, _, _, _ => some ⟨natural r, natural g, natural b, none⟩
    | _, some [r, g, b], _, _, _ => some ⟨percentPart r, percentPart g, percentPart b, none⟩
    | _, _, some (h, s, l), _, _ => some (ofParts (ofLightness h l s))
    | _, _, _, some (h, s, v), _ => some (ofParts (ofBrightness h s v))
    | _, _, _, _, some [r, g, b, a] =>
      some ⟨natural r, natural g, natural b, some (natural a : Nat)⟩
    | _, _, _, _, _ => none

/-- The text without one line break at its end. -/
def dropLineBreak (cs : List Char) : List Char :=
  if cs.getLast? = some '\n' then cs.dropLast else cs

/-- The colour that a text writes. -/
def parse (s : String) : Except Fault Color :=
  if maxLength < s.length then .error (.value .colorTooLong)
  else
    let name := s.lowerCase
    match colorNames.lookup name with
    | some n => .ok (ofPacked n)
    | none =>
      match ofChars? (dropLineBreak name.toList) with
      | some c => .ok c
      | none => .error (.value (.unknownColor name))

/-- The hexadecimal digits of `n` in upper case, filled up with zeros to two characters, the sign
counted. -/
def hexByte (n : Int) : String :=
  let ds := (Nat.toDigits 16 n.natAbs).map Char.toUpper
  if n < 0 then "-" ++ String.ofList (List.replicate (1 - ds.length) '0' ++ ds)
  else String.ofList (List.replicate (2 - ds.length) '0' ++ ds)

/-- The notation of the text filter: the parts in hexadecimal after `0x`. -/
def filterText (c : Color) : String :=
  "0x" ++ hexByte c.red ++ hexByte c.green ++ hexByte c.blue

/-- The notation of subtitle styles: transparency, blue, green and red in hexadecimal. -/
def subtitleText (c : Color) (transparency : Int) : String :=
  "&H" ++ hexByte transparency ++ hexByte c.blue ++ hexByte c.green ++ hexByte c.red

end Color

/-- A colour as subtitle styles write it. Blanks around the text do not count. -/
def subtitleColor (text : String) (transparency : Int) : Except Fault String :=
  (Color.parse text.strip).map fun c => c.subtitleText transparency

/-- A colour as the preview service takes it: what follows a hash sign is passed on unread, any
other colour has to be known and is passed on by its text. -/
def serviceColor (text : String) : Except Fault String :=
  let s := text.strip
  match s.toList with
  | '#' :: digits => .ok ("rgb:" ++ (String.ofList digits).lowerCase)
  | _ => (Color.parse s).map fun _ => s.lowerCase

/-- `serviceColor` of a value that may be no text. -/
def serviceColorOf : Value → Except Fault String
  | .string s => serviceColor s
  | v => .error (.member v.typeName "strip")

end Montage
