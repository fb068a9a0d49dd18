import Montage.Yaml.Scalar

/-!
# Reading YAML

The reader takes one document of mappings and sequences, in blocks or between brackets, and of
quoted and plain scalars. It walks over the text with a cursor that knows its line and column, for
the columns tell which parts belong together. Tags, anchors and literal blocks are refused.

## Main definitions

* `Montage.Yaml.Cursor`: a place in the text.
* `Montage.Yaml.parse`: the value of a document.
-/

namespace Montage.Yaml

/-- A place in a text: what follows, and the line and column. -/
structure Cursor where
  rest : List Char
  line : Nat
  column : Nat
  deriving DecidableEq, Inhabited

/-- A refusal of a text that is no document. -/
abbrev Refusal := String

namespace Cursor

/-- The start of a text. -/
def start (cs : List Char) : Cursor := ⟨cs, 0, 0⟩

/-- The cursor one character further. -/
def next (c : Cursor) : Cursor :=
  match c.rest with
  | [] => c
  | '\n' :: cs => ⟨cs, c.line + 1, 0⟩
  | _ :: cs => ⟨cs, c.line, c.column + 1⟩

/-- The cursor so many characters further. -/
def drop (c : Cursor) : Nat → Cursor
  | 0 => c
  | n + 1 => c.next.drop n

/-- The cursor after the characters that fulfil a condition. -/
def skipWhile (holds : Char → Bool) (c : Cursor) : Cursor :=
  c.drop (c.rest.takeWhile holds).length

/-- The next character. -/
def peek (c : Cursor) : Option Char := c.rest.head?

end Cursor

/-- A blank or the end of the text. -/
def isGap : Option Char → Bool
  | none => true
  | some c => c = ' ' || c = '\t' || c = '\n' || c = '\r'

/-- The cursor at the next token: after blanks, line ends and comments. Every round takes a
character. -/
def skipFor : Nat → Cursor → Cursor
  | 0, c => c
  | fuel + 1, c =>
    match c.peek with
    | some ' ' | some '\n' => skipFor fuel c.next
    | some '#' => skipFor fuel (c.skipWhile (· ≠ '\n'))
    | _ => c

/-- The cursor at the next token. -/
def skip (c : Cursor) : Cursor := skipFor (c.rest.length + 1) c

/-- The text goes on with a mark that begins or ends a document. -/
def atMark (c : Cursor) : Bool :=
  c.column = 0 &&
    match c.rest with
    | '-' :: '-' :: '-' :: r => isGap r.head?
    | '.' :: '.' :: '.' :: r => isGap r.head?
    | _ => false

/-- There is no more of the document. -/
def atEnd (c : Cursor) : Bool := c.rest.isEmpty || atMark c

/-- An entry of a sequence begins. -/
def atDash (c : Cursor) : Bool :=
  match c.rest with
  | '-' :: r => isGap r.head?
  | _ => false

/-- A key on lines of its own begins. -/
def atQuestion (c : Cursor) : Bool :=
  match c.rest with
  | '?' :: r => isGap r.head?
  | _ => false

/-- The value after a key begins. Between brackets the colon alone tells. -/
def atColon (flow : Bool) (c : Cursor) : Bool :=
  match c.rest with
  | ':' :: r => flow || isGap r.head?
  | _ => false

/-- Characters that cannot begin a plain scalar, unless something follows. -/
def isIndicator (c : Char) : Bool := "-?:,[]\x7b\x7d#&*!|>\x27\x22%@\x60".toList.contains c

/-- A plain scalar begins. -/
def atPlain (flow : Bool) (c : Cursor) : Bool :=
  match c.rest with
  | [] => false
  | ch :: r =>
    !isGap (some ch) &&
      (!isIndicator ch || (!isGap r.head? && (ch = '-' || (!flow && (ch = '?' || ch = ':')))))

/-- The characters of a plain scalar up to a blank, a colon before a blank or, between brackets, a
bracket or comma. -/
def plainChunk (flow : Bool) : List Char → List Char
  | [] => []
  | ch :: r =>
    let closes := flow && ",[]\x7b\x7d".toList.contains ch
    let colon := ch = ':' &&
      (isGap r.head? || (flow && r.head?.any fun d => ",[]\x7b\x7d".toList.contains d))
    if isGap (some ch) || colon || closes || (flow && ch = '?') then [] else ch :: plainChunk flow r

/-- What stands for the blanks and line ends between two parts of a scalar: one blank for a line
end, and a line end for every empty line. -/
def folded (gap : List Char) : List Char :=
  match gap.count '\n' with
  | 0 => gap
  | 1 => [' ']
  | n + 2 => List.replicate (n + 1) '\n'

/-- A plain scalar, after the characters `gap`. Lines up to column `margin` end it. Every round
takes a character. -/
def plainFor (flow : Bool) (margin : Nat) : Nat → List Char → Cursor → List Char × Cursor
  | 0, _, c => ([], c)
  | fuel + 1, gap, c =>
    let chunk := if c.peek = some '#' then [] else plainChunk flow c.rest
    if chunk.isEmpty then ([], c)
    else
      let here := c.drop chunk.length
      let space := here.rest.takeWhile fun d => d = ' ' || d = '\n'
      let there := here.drop space.length
      let ends := space.isEmpty || (!flow && there.column < margin) ||
        (there.line ≠ here.line && atMark there)
      let (more, last) := if ends then ([], here) else plainFor flow margin fuel space there
      (folded gap ++ chunk ++ more, if more.isEmpty then here else last)

/-- A plain scalar and the cursor behind its last character. -/
def plain (flow : Bool) (margin : Nat) (c : Cursor) : List Char × Cursor :=
  plainFor flow margin (c.rest.length + 1) [] c

/-- What stands for blanks inside quotes. -/
def foldedQuote (gap : List Char) : List Char := folded (if gap.contains '\n' then
  gap.filter (· = '\n') else gap)

/-- A blank inside quotes. -/
def isQuoteBlank (c : Char) : Bool := c = ' ' || c = '\t' || c = '\n'

/-- The rest of a scalar between apostrophes. Every round takes a character. -/
def singleFor : Nat → Cursor → Except Refusal (List Char × Cursor)
  | 0, _ => .error "unclosed quote"
  | fuel + 1, c =>
    match c.rest with
    | [] => .error "unclosed quote"
    | '\x27' :: '\x27' :: _ => (singleFor fuel (c.drop 2)).map fun (t, e) => ('\x27' :: t, e)
    | '\x27' :: _ => .ok ([], c.next)
    | ch :: _ =>
      if isQuoteBlank ch then
        let gap := c.rest.takeWhile isQuoteBlank
        (singleFor fuel (c.drop gap.length)).map fun (t, e) => (foldedQuote gap ++ t, e)
      else (singleFor fuel c.next).map fun (t, e) => (ch :: t, e)

/-- The characters that letters after a backslash stand for. -/
def escapes : List (Char × Char) :=
  [('0', '\x00'), ('a', '\x07'), ('b', '\x08'), ('t', '\t'), ('\t', '\t'), ('n', '\n'),
    ('v', '\x0b'), ('f', '\x0c'), ('r', '\r'), ('e', '\x1b'), (' ', ' '), ('\x22', '\x22'),
    ('\\', '\\'), ('/', '/'), ('N', '\u0085'), ('_', '\u00a0'), ('L', '\u2028'), ('P', '\u2029')]

/-- How many hexadecimal digits follow a letter after a backslash. -/
def escapeWidths : List (Char × Nat) := [('x', 2), ('u', 4), ('U', 8)]

/-- The character that hexadecimal digits write. -/
def codeOf (ds : List Char) (width : Nat) : Except Refusal Char :=
  if ds.length = width && ds.all fun d => d ≠ '_' && isDigitOf 16 d then
    .ok (Char.ofNat (ofDigits 16 ds))
  else .error "bad escape"

/-- The rest of a scalar between quotation marks. Every round takes a character. -/
def doubleFor : Nat → Cursor → Except Refusal (List Char × Cursor)
  | 0, _ => .error "unclosed quote"
  | fuel + 1, c =>
    match c.rest with
    | [] => .error "unclosed quote"
    | '\x22' :: _ => .ok ([], c.next)
    | '\\' :: '\n' :: r =>
      let gap := (r.takeWhile isQuoteBlank)
      let breaks := gap.filter (· = '\n')
      (doubleFor fuel (c.drop (2 + gap.length))).map fun (t, e) => (breaks ++ t, e)
    | '\\' :: ch :: r =>
      match escapes.lookup ch, escapeWidths.lookup ch with
      | some d, _ => (doubleFor fuel (c.drop 2)).map fun (t, e) => (d :: t, e)
      | none, some width => do
        let d ← codeOf (r.take width) width
        (doubleFor fuel (c.drop (2 + width))).map fun (t, e) => (d :: t, e)
      | none, none => .error "unknown escape"
    | ch :: _ =>
      if isQuoteBlank ch then
        let gap := c.rest.takeWhile isQuoteBlank
        (doubleFor fuel (c.drop gap.length)).map fun (t, e) => (foldedQuote gap ++ t, e)
      else (doubleFor fuel c.next).map fun (t, e) => (ch :: t, e)

/-- A value as the key of a mapping. -/
def keyText : Value → Except Refusal String
  | .string s => .ok s
  | .null => .ok "null"
  | .bool b => .ok (if b then "true" else "false")
  | .number n => .ok n.text
  | _ => .error "unhashable key"

mutual

/-- A scalar, or a container between brackets. Lines up to column `margin` end a plain scalar. -/
def atomFor : Nat → Bool → Nat → Cursor → Except Refusal (Value × Cursor)
  | 0, _, _, _ => .error "nothing to read"
  | fuel + 1, flow, margin, c =>
    match c.peek with
    | some '[' => (itemsFor fuel (skip c.next)).map fun (vs, e) => (.list vs, e)
    | some '\x7b' =>
      (entriesFor fuel (skip c.next)).map fun (fs, e) => (.object (Fields.ofList fs), e)
    | some '\x27' =>
      (singleFor (c.rest.length + 1) c.next).map fun (t, e) => (.string (String.ofList t), e)
    | some '\x22' =>
      (doubleFor (c.rest.length + 1) c.next).map fun (t, e) => (.string (String.ofList t), e)
    | _ =>
      if atPlain flow c then
        let (t, e) := plain flow margin c
        .ok (resolve (String.ofList t), e)
      else .error "no value begins here"

/-- The value after a colon between brackets, which may be missing. -/
def flowValueFor : Nat → Cursor → Except Refusal (Value × Cursor)
  | 0, _ => .error "nothing to read"
  | fuel + 1, c =>
    match c.peek with
    | some ',' | some ']' | some '\x7d' => .ok (.null, c)
    | _ => atomFor fuel true 0 c

/-- The rest of a sequence between brackets. An item with a colon is a mapping of its own. -/
def itemsFor : Nat → Cursor → Except Refusal (List Value × Cursor)
  | 0, _ => .error "unclosed sequence"
  | fuel + 1, c => do
    if c.peek = some ']' then return ([], c.next)
    let (v, e) ← atomFor fuel true 0 c
    let line := e.line
    let e := skip e
    let (v, e) ← if atColon true e && e.line = line && c.line = line then do
        let (w, e) ← flowValueFor fuel (skip e.next)
        pure (Value.object [(← keyText v, w)], e)
      else pure (v, e)
    let e := skip e
    match e.peek with
    | some ']' => return ([v], e.next)
    | some ',' => (itemsFor fuel (skip e.next)).map fun (vs, e) => (v :: vs, e)
    | _ => .error "expected a comma or a bracket"

/-- The rest of a mapping between braces. -/
def entriesFor : Nat → Cursor → Except Refusal (List (String × Value) × Cursor)
  | 0, _ => .error "unclosed mapping"
  | fuel + 1, c => do
    if c.peek = some '\x7d' then return ([], c.next)
    let (k, e) ← atomFor fuel true 0 c
    let e := skip e
    let (v, e) ← if atColon true e then flowValueFor fuel (skip e.next) else pure (Value.null, e)
    let key ← keyText k
    let e := skip e
    match e.peek with
    | some '\x7d' => return ([(key, v)], e.next)
    | some ',' => (entriesFor fuel (skip e.next)).map fun (fs, e) => ((key, v) :: fs, e)
    | _ => .error "expected a comma or a brace"

end

/-- Nothing but a comment follows on the line. -/
def lineEnds (c : Cursor) : Bool :=
  let d := c.skipWhile (· = ' ')
  match d.peek with
  | none | some '\n' | some '#' => true
  | _ => false

/-- The cursor after a value, from which nothing more may follow on the line. -/
def closed (r : Except Refusal (Value × Cursor)) : Except Refusal (Value × Cursor) := do
  let (v, e) ← r
  if lineEnds e then return (v, skip e) else .error "something follows a value"

mutual

/-- The node of a block that lies below an entry at column `parent`, which is none for a whole
document. A sequence may begin in the column of the `key` that it belongs to. -/
def blockFor : Nat → Option Nat → Bool → Cursor → Except Refusal (Value × Cursor)
  | 0, _, _, _ => .error "nothing to read"
  | fuel + 1, parent, key, c =>
    let c := skip c
    let margin := match parent with
      | some p => p + 1
      | none => 0
    if atEnd c then .ok (.null, c)
    else if atDash c && (margin ≤ c.column || (key && parent = some c.column)) then
      (sequenceFor fuel c.column c).map fun (vs, e) => (.list vs, e)
    else if c.column < margin then .ok (.null, c)
    else if atQuestion c then
      (mappingFor fuel c.column c).map fun (fs, e) => (.object (Fields.ofList fs), e)
    else do
      let (v, e) ← atomFor (2 * c.rest.length + 2) false margin c
      let colon := e.skipWhile (· = ' ')
      if atColon false colon then
        if e.line = c.line then
          (mappingFor fuel c.column c).map fun (fs, e) => (.object (Fields.ofList fs), e)
        else .error "a key has several lines"
      else closed (.ok (v, e))

/-- The entries of a sequence at a column. -/
def sequenceFor : Nat → Nat → Cursor → Except Refusal (List Value × Cursor)
  | 0, _, _ => .error "nothing to read"
  | fuel + 1, column, c => do
    let (v, e) ← blockFor fuel (some column) false c.next
    if atEnd e || e.column < column then return ([v], e)
    else if column < e.column then .error "a line is indented too far"
    else if atDash e then (sequenceFor fuel column e).map fun (vs, e) => (v :: vs, e)
    else return ([v], e)

/-- The entries of a mapping at a column. -/
def mappingFor : Nat → Nat → Cursor → Except Refusal (List (String × Value) × Cursor)
  | 0, _, _ => .error "nothing to read"
  | fuel + 1, column, c => do
    let (k, colon) ← keyFor fuel column c
    if !atColon false colon then .error "a key without a colon"
    else
      let key ← keyText k
      let (v, e) ← if atQuestion c then blockFor fuel (some column) false colon.next
        else entryFor fuel column colon.next
      if atEnd e || e.column < column then return ([(key, v)], e)
      else if column < e.column || atDash e then .error "a line does not fit into a mapping"
      else (mappingFor fuel column e).map fun (fs, e) => ((key, v) :: fs, e)

/-- A key at a column, and the cursor at its colon. -/
def keyFor : Nat → Nat → Cursor → Except Refusal (Value × Cursor)
  | 0, _, _ => .error "nothing to read"
  | fuel + 1, column, c =>
    if atQuestion c then do
      let (k, e) ← blockFor fuel (some column) false c.next
      if e.column = column then return (k, e) else .error "a key without a colon"
    else do
      let (k, e) ← atomFor (2 * c.rest.length + 2) false (column + 1) c
      if e.line = c.line then return (k, e.skipWhile (· = ' '))
      else .error "a key has several lines"

/-- The value of a key at a column: on the same line, or in a block below. -/
def entryFor : Nat → Nat → Cursor → Except Refusal (Value × Cursor)
  | 0, _, _ => .error "nothing to read"
  | fuel + 1, column, c =>
    if lineEnds c then blockFor fuel (some column) true c
    else
      let c := c.skipWhile (· = ' ')
      closed (do
        let (v, e) ← atomFor (2 * c.rest.length + 2) false (column + 1) c
        if atColon false (e.skipWhile (· = ' ')) then .error "a value with a colon"
        else return (v, e))

end

/-- A character that may stand in a document. -/
def isAllowed (c : Char) : Bool :=
  let n := c.toNat
  n = 0x9 || n = 0xA || n = 0xD || (0x20 ≤ n && n ≤ 0x7E) || n = 0x85 ||
    (0xA0 ≤ n && n ≠ 0xFFFE && n ≠ 0xFFFF)

/-- The value of a document. -/
def document (cs : List Char) : Except Refusal Value := do
  if !cs.all isAllowed then .error "a character is not allowed"
  let cs := if cs.head? = some '\uFEFF' then cs.drop 1 else cs
  let c := skip (.start cs)
  let c := if atMark c && c.peek = some '-' then c.drop 3 else c
  let (v, e) ← blockFor (2 * cs.length + 2) none false c
  let e := skip e
  if e.rest.isEmpty then return v
  else if atMark e && e.peek = some '.' && (skip (e.drop 3)).rest.isEmpty then return v
  else .error "something follows the document"

/-- The value of a text, or the fault that it is no document. -/
def parse (s : String) : Except Fault Value := (document s.toList).mapError .malformedYaml

end Montage.Yaml
