import Montage.Value

/-!
# Reading JSON

The reader takes one value with blanks around it and nothing else. Beyond the standard it reads the
three special numbers by their names. Of several fields under one key the last counts, in the place
of the first. A text that is no value is refused with the place where reading stopped.

## Main definitions

* `Montage.Json.parse`: the value of a text.
-/

namespace Montage.Json

/-- Why reading stopped, and before which rest of the text. -/
inductive Issue
  | unexpected (what : String) (rest : List Char)
  /-- A number that is not read. -/
  | number (cause : Fault)

/-- The blanks between the parts of a value. -/
def isSpace (c : Char) : Bool := c = ' ' || c = '\t' || c = '\n' || c = '\r'

/-- The text from its first character that is no blank on. -/
def skip (cs : List Char) : List Char := cs.dropWhile isSpace

/-- The value of a hexadecimal digit. -/
def hexValue? (c : Char) : Option Nat :=
  if c.isDigit then some (c.toNat - 0x30)
  else if 'a' ≤ c ∧ c ≤ 'f' then some (c.toNat - 0x57)
  else if 'A' ≤ c ∧ c ≤ 'F' then some (c.toNat - 0x37)
  else none

/-- The number of four hexadecimal digits at the head of a text, which may not end after them, and
what follows. -/
def hex4? : List Char → Option (Nat × List Char)
  | a :: b :: c :: d :: r :: rest => do
    some (0x1000 * (← hexValue? a) + 0x100 * (← hexValue? b) + 0x10 * (← hexValue? c) +
      (← hexValue? d), r :: rest)
  | _ => none

/-- The first half of a pair that stands for one character. -/
def isLead (n : Nat) : Bool := 0xD800 ≤ n && n ≤ 0xDBFF

/-- The second half of such a pair. -/
def isTrail (n : Nat) : Bool := 0xDC00 ≤ n && n ≤ 0xDFFF

/-- The character of a code; half a pair on its own stands for an unknown character. -/
def charOf (n : Nat) : Char := if 0xD800 ≤ n ∧ n ≤ 0xDFFF then '\uFFFD' else Char.ofNat n

/-- The character written by a code at the head of a text, and what follows. -/
def codeChar? (cs : List Char) : Option (Char × List Char) := do
  let (n, rest) ← hex4? cs
  match isLead n, rest with
  | true, '\\' :: 'u' :: more =>
    match hex4? more with
    | some (m, rest') =>
      if isTrail m then some (Char.ofNat (0x10000 + 0x400 * (n - 0xD800) + (m - 0xDC00)), rest')
      else some (charOf n, rest)
    | none => some (charOf n, rest)
  | _, rest => some (charOf n, rest)

/-- The character that a letter after a backslash stands for. -/
def escaped? : Char → Option Char
  | '\x22' => some '\x22'
  | '\\' => some '\\'
  | '/' => some '/'
  | 'b' => some '\x08'
  | 'f' => some '\x0c'
  | 'n' => some '\n'
  | 'r' => some '\r'
  | 't' => some '\t'
  | _ => none

/-- The rest of a string after its quotation mark, which begins at `opening`. Every round takes at
least one character. -/
def stringFor (opening : List Char) : Nat → List Char → Except Issue (List Char × List Char)
  | 0, _ => .error (.unexpected "Unterminated string starting at" opening)
  | _, [] => .error (.unexpected "Unterminated string starting at" opening)
  | fuel + 1, c :: cs =>
    if c = '\x22' then .ok ([], cs)
    else if c = '\\' then
      match cs with
      | [] => .error (.unexpected "Unterminated string starting at" opening)
      | 'u' :: code =>
        match codeChar? code with
        | none => .error (.unexpected "Invalid \\uXXXX escape" cs)
        | some (d, rest) => (stringFor opening fuel rest).map fun (ds, r) => (d :: ds, r)
      | e :: rest =>
        match escaped? e with
        | none => .error (.unexpected "Invalid \\escape" (c :: cs))
        | some d => (stringFor opening fuel rest).map fun (ds, r) => (d :: ds, r)
    else if c.toNat < 0x20 then .error (.unexpected "Invalid control character at" (c :: cs))
    else (stringFor opening fuel cs).map fun (ds, r) => (c :: ds, r)

/-- A string whose quotation mark has been seen at `opening`, before `cs`. -/
def stringAt (opening : List Char) (fuel : Nat) (cs : List Char) :
    Except Issue (String × List Char) :=
  (stringFor opening fuel cs).map fun (ds, r) => (String.ofList ds, r)

/-- The decimal number that digits write. -/
def digits (cs : List Char) : List Nat := cs.map fun c => c.toNat - 0x30

/-- The digits at the head of a text. -/
def run (cs : List Char) : List Char := cs.takeWhile Char.isDigit

/-- The digits of an integer at the head of a text; a zero stands alone. -/
def whole : List Char → List Char
  | '0' :: _ => ['0']
  | cs => run cs

/-- The point and the digits after it at the head of a text. -/
def fraction : List Char → List Char
  | '.' :: cs => if (run cs).isEmpty then [] else '.' :: run cs
  | _ => []

/-- The exponent at the head of a text. -/
def exponent : List Char → List Char
  | e :: cs =>
    if e = 'e' || e = 'E' then
      let mark := match cs with
        | '+' :: _ => ['+']
        | '-' :: _ => ['-']
        | _ => []
      let ds := run (cs.drop mark.length)
      if ds.isEmpty then [] else e :: mark ++ ds
    else []
  | [] => []

/-- The unsigned number at the head of a text. -/
def unsigned (negative : Bool) (cs : List Char) : Option (Except Fault Number × Nat) :=
  let w := whole cs
  if w.isEmpty then none
  else
    let f := fraction (cs.drop w.length)
    let e := exponent (cs.drop (w.length + f.length))
    let size := w.length + f.length + e.length
    if f.isEmpty && e.isEmpty then
      if Numeral.maxDigits < w.length then
        some (.error (.value (.tooManyDigits w.length)), size)
      else
        let n := Numeral.ofDigits (digits w)
        some (.ok (.int (if negative then -(n : Int) else n)), size)
    else
      let x := ((Numeral.real? (String.ofList (w ++ f ++ e))).getD 0)
      some (.ok (.real (if negative then -x else x)), size)

/-- The names of values that are no containers. -/
def names : List (String × Value) :=
  [("null", .null), ("true", .bool true), ("false", .bool false), ("NaN", .real .nan),
    ("Infinity", .real (.infinite false)), ("-Infinity", .real (.infinite true))]

/-- A name or a number at the head of a text. -/
def plain (cs : List Char) : Except Issue (Value × List Char) :=
  match names.find? fun n => n.1.toList.isPrefixOf cs with
  | some (name, v) => .ok (v, cs.drop name.length)
  | none =>
    let (negative, body) := match cs with
      | '-' :: r => (true, r)
      | r => (false, r)
    match unsigned negative body with
    | some (.ok n, size) => .ok (.number n, body.drop size)
    | some (.error f, _) => .error (.number f)
    | none => .error (.unexpected "Expecting value" cs)

mutual

/-- The value at the head of a text. Twice the length of the text is fuel enough, for every round
and for every character of a string. -/
def valueFor : Nat → List Char → Except Issue (Value × List Char)
  | 0, cs => .error (.unexpected "Expecting value" cs)
  | fuel + 1, cs =>
    match cs with
    | '\x22' :: rest => (stringAt cs fuel rest).map fun (s, r) => (.string s, r)
    | '[' :: rest =>
      match skip rest with
      | ']' :: r => .ok (.list [], r)
      | r => (itemsFor fuel r).map fun (vs, r) => (.list vs, r)
    | '\x7b' :: rest =>
      match skip rest with
      | '\x7d' :: r => .ok (.object [], r)
      | r => (fieldsFor fuel r).map fun (fs, r) => (.object (Fields.ofList fs), r)
    | cs => plain cs

/-- The items of a list up to its closing bracket. -/
def itemsFor : Nat → List Char → Except Issue (List Value × List Char)
  | 0, cs => .error (.unexpected "Expecting value" cs)
  | fuel + 1, cs => do
    let (v, rest) ← valueFor fuel cs
    match skip rest with
    | ']' :: r => .ok ([v], r)
    | ',' :: r => (itemsFor fuel (skip r)).map fun (vs, r) => (v :: vs, r)
    | r => .error (.unexpected "Expecting ',' delimiter" r)

/-- The fields of an object up to its closing brace. -/
def fieldsFor : Nat → List Char → Except Issue (List (String × Value) × List Char)
  | 0, cs => .error (.unexpected "Expecting value" cs)
  | fuel + 1, cs =>
    match cs with
    | '\x22' :: rest => do
      let (key, rest) ← stringAt cs fuel rest
      match skip rest with
      | ':' :: r =>
        let (v, rest) ← valueFor fuel (skip r)
        match skip rest with
        | '\x7d' :: r => .ok ([(key, v)], r)
        | ',' :: r => (fieldsFor fuel (skip r)).map fun (fs, r) => ((key, v) :: fs, r)
        | r => .error (.unexpected "Expecting ',' delimiter" r)
      | r => .error (.unexpected "Expecting ':' delimiter" r)
    | cs => .error (.unexpected "Expecting property name enclosed in double quotes" cs)

end

/-- The number of the line that a text ends in, and that of the column after it. -/
def lineColumn (before : List Char) : Nat × Nat :=
  (before.count '\n' + 1, (before.reverse.takeWhile (· ≠ '\n')).length + 1)

/-- The fault that reading the text `cs` ran into. -/
def Issue.fault (cs : List Char) : Issue → Fault
  | unexpected what rest =>
    let place := cs.length - rest.length
    let (line, column) := lineColumn (cs.take place)
    .malformedJson (what ++ ": line " ++ digitText line ++ " column " ++ digitText column ++
      " (char " ++ digitText place ++ ")")
  | number cause => cause

/-- The value that a whole text writes. -/
def whole? (cs : List Char) : Except Issue Value := do
  if cs.head? = some '\uFEFF' then
    .error (.unexpected "Unexpected UTF-8 BOM (decode using utf-8-sig)" cs)
  else
    let (v, rest) ← valueFor (2 * cs.length + 2) (skip cs)
    match skip rest with
    | [] => .ok v
    | rest => .error (.unexpected "Extra data" rest)

/-- The value of a text, or the fault that it writes none. -/
def parse (s : String) : Except Fault Value := (whole? s.toList).mapError (Issue.fault s.toList)

end Montage.Json
