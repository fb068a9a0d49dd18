import Montage.Text.Printable

/-!
# Quoted text

A text between quotes, on one line, with every unprintable character spelled out. Apostrophes are
the quotes unless the text holds an apostrophe and no quotation mark.

## Main definitions

* `Montage.Text.hexText`: hexadecimal digits of a set width.
* `Montage.Text.quoteChar`: the spelling of one character.
* `Montage.Text.quoted`: a quoted text.
-/

namespace Montage.Text

/-- The hexadecimal digits of `n` in lower case, filled up with zeros to `width`. -/
def hexDigits (width n : Nat) : List Char :=
  let ds := Nat.toDigits 16 n
  List.replicate (width - ds.length) '0' ++ ds

/-- The spelling of `c` between two quotes `q`. -/
def quoteChar (q c : Char) : List Char :=
  if c = q || c = '\\' then ['\\', c]
  else if c = '\n' then ['\\', 'n']
  else if c = '\r' then ['\\', 'r']
  else if c = '\t' then ['\\', 't']
  else if isPrintable c then [c]
  else if c.toNat < 0x100 then '\\' :: 'x' :: hexDigits 2 c.toNat
  else if c.toNat < 0x10000 then '\\' :: 'u' :: hexDigits 4 c.toNat
  else '\\' :: 'U' :: hexDigits 8 c.toNat

/-- The quotation mark that a text is put between. -/
def quoteMark (cs : List Char) : Char :=
  if cs.contains '\x27' && !cs.contains '\x22' then '\x22' else '\x27'

/-- The text between quotes. -/
def quoted (s : String) : String :=
  let q := quoteMark s.toList
  String.ofList (q :: s.toList.flatMap (quoteChar q) ++ [q])

end Montage.Text
