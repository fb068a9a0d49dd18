import Montage.Tools

/-!
# Words of a command line

A word is written for a shell as it is if all its characters are harmless, and between apostrophes
otherwise. Inside apostrophes only the apostrophe itself has to be spelled out.

## Main definitions

* `Montage.ShellWord.quoted`: the written form of a word.
* `Montage.shellLine`: the written form of a command.
-/

namespace Montage

namespace ShellWord

/-- A character that means only itself to a shell. -/
def isHarmless (c : Char) : Bool :=
  c.isAlphanum || "_@%+=:,./-".toList.contains c

/-- The spelling of a character between apostrophes. -/
def spelled (c : Char) : List Char :=
  if c = '\x27' then ['\x27', '\x22', '\x27', '\x22', '\x27'] else [c]

/-- The written form of a word. -/
def quoted (s : String) : String :=
  if s.toList.isEmpty then "''"
  else if s.toList.all isHarmless then s
  else String.ofList ('\x27' :: s.toList.flatMap spelled ++ ['\x27'])

/-- The written form of a value in the place of a word. What counts as nothing is an empty word. -/
def ofValue : Value → Except Fault String
  | .string s => .ok (quoted s)
  | v =>
    if v.isTruthy then
      .error (.type (.other ("expected string or bytes-like object, got '" ++ v.typeName ++ "'")))
    else .ok "''"

end ShellWord

/-- The written form of a command. -/
def shellLine (command : Command) : Except Fault String :=
  (command.mapM ShellWord.ofValue).map fun words => " ".intercalate words

end Montage
