import Montage.Yaml.Scalar

/-!
# Writing YAML

Values are written as blocks, with the keys of a mapping in order. A text stands plain if it then
reads back as a text; otherwise between apostrophes, or between quotation marks if characters have
to be spelled out. A text that goes beyond the width of a line is continued on the next one.

## Main definitions

* `Montage.Yaml.Analysis`: in which ways a text may be written.
* `Montage.Yaml.write`: a value as a document.
-/

namespace Montage.Yaml

/-- Beyond this column a text is continued on the next line. -/
def lineWidth : Nat := 80

/-- A line end. -/
def isBreak (c : Char) : Bool := c = '\n' || c = '\u0085' || c = '\u2028' || c = '\u2029'

/-- A blank or a line end. -/
def isSpaceChar (c : Char) : Bool := c = '\x00' || c = ' ' || c = '\t' || c = '\r' || isBreak c

/-- In which ways a text may be written. -/
structure Analysis where
  isEmpty : Bool
  hasBreaks : Bool
  allowsPlain : Bool
  allowsSingle : Bool
  deriving DecidableEq, Inhabited

/-- The character at the head of a text, after a blank or not, keeps it from standing plain. -/
def isMarker (first afterSpace : Bool) (c : Char) (rest : List Char) : Bool :=
  let followed := rest.head?.all isSpaceChar
  if first then
    "#,[]\x7b\x7d&*!|>\x27\x22%@\x60".toList.contains c ||
      (followed && (c = '?' || c = ':' || c = '-'))
  else (c = ':' && followed) || (c = '#' && afterSpace)

/-- Some character of a text keeps it from standing plain. -/
def hasMarker (first afterSpace : Bool) : List Char → Bool
  | [] => false
  | c :: cs => isMarker first afterSpace c cs || hasMarker false (isSpaceChar c) cs

/-- The text holds a blank next to a line end: after it, or before it. -/
def hasPair (first second : Char → Bool) : List Char → Bool
  | a :: b :: cs => (first a && second b) || hasPair first second (b :: cs)
  | _ => false

/-- A text begins with the mark of a document. -/
def hasMark (cs : List Char) : Bool :=
  "---".toList.isPrefixOf cs || "...".toList.isPrefixOf cs

/-- A character that has to be spelled out. -/
def isSpecial (c : Char) : Bool := !(c = '\n' || (0x20 ≤ c.toNat && c.toNat ≤ 0x7E))

/-- In which ways a text may be written. -/
def analyze (cs : List Char) : Analysis :=
  if cs.isEmpty then ⟨true, false, true, true⟩
  else
    let edge (c : Option Char) : Bool := c.any fun d => d = ' ' || isBreak d
    let breaks := cs.any isBreak
    let breakSpace := hasPair isBreak (· = ' ') cs
    let special := cs.any isSpecial || hasPair (· = ' ') isBreak cs
    ⟨false, breaks,
      !(edge cs.head? || edge cs.getLast? || breaks || special || hasMark cs ||
        hasMarker true true cs),
      !(breakSpace || special)⟩

/-- What has been written of a line: the text, and the column. -/
structure Pen where
  text : List Char
  column : Nat
  deriving Inhabited

namespace Pen

/-- Write characters on the line. -/
def put (p : Pen) (cs : List Char) : Pen := ⟨p.text ++ cs, p.column + cs.length⟩

/-- Go to a column of the next line. -/
def wrap (p : Pen) (indent : Nat) : Pen :=
  ⟨p.text ++ '\n' :: List.replicate indent ' ', indent⟩

end Pen

/-- The words of a text, and the blanks or line ends between them. -/
def runs : List Char → List (List Char)
  | [] => []
  | c :: cs =>
    match runs cs with
    | [] => [[c]]
    | w :: ws =>
      let same := w.head?.any fun d =>
        (c = ' ' && d = ' ') || (isBreak c && isBreak d) ||
          (c ≠ ' ' && !isBreak c && d ≠ ' ' && !isBreak d)
      if same then (c :: w) :: ws else [c] :: w :: ws

/-- Write a run of blanks: a single one beyond the width of a line becomes a new line. -/
def putBlanks (split : Bool) (indent : Nat) (p : Pen) (run : List Char) : Pen :=
  if run.length = 1 && lineWidth < p.column && split then p.wrap indent else p.put run

/-- Write a plain text. -/
def putPlain (split : Bool) (indent : Nat) (p : Pen) (cs : List Char) : Pen :=
  (runs cs).foldl (fun p run =>
    if run.head? = some ' ' then putBlanks split indent p run else p.put run) p

/-- Write a run of a text between apostrophes. The blanks at its ends stay as they are, and a run of
line ends gets one more. -/
def putSingleRun (split : Bool) (indent : Nat) (edge : Bool) (p : Pen) (run : List Char) : Pen :=
  match run.head? with
  | some ' ' => putBlanks (split && !edge) indent p run
  | some c =>
    if isBreak c then
      ⟨p.text ++ (if c = '\n' then ['\n'] else []) ++ run ++ List.replicate indent ' ', indent⟩
    else p.put (run.flatMap fun c => if c = '\x27' then ['\x27', '\x27'] else [c])
  | none => p

/-- Write the runs of a text between apostrophes, of which `count` there are in all. -/
def putSingleRuns (split : Bool) (indent count i : Nat) (p : Pen) : List (List Char) → Pen
  | [] => p
  | run :: rest =>
    putSingleRuns split indent count (i + 1)
      (putSingleRun split indent (i = 0 || i + 1 = count) p run) rest

/-- Write a text between apostrophes. -/
def putSingle (split : Bool) (indent : Nat) (p : Pen) (cs : List Char) : Pen :=
  (putSingleRuns split indent (runs cs).length 0 (p.put ['\x27']) (runs cs)).put ['\x27']

/-- The letters that stand for characters after a backslash. -/
def escapeLetters : List (Char × Char) :=
  [('\x00', '0'), ('\x07', 'a'), ('\x08', 'b'), ('\t', 't'), ('\n', 'n'), ('\x0b', 'v'),
    ('\x0c', 'f'), ('\r', 'r'), ('\x1b', 'e'), ('\x22', '\x22'), ('\\', '\\'), ('\u0085', 'N'),
    ('\u00a0', '_'), ('\u2028', 'L'), ('\u2029', 'P')]

/-- Hexadecimal digits in upper case, filled up with zeros to `width`. -/
def codeDigits (width n : Nat) : List Char :=
  let ds := (Nat.toDigits 16 n).map Char.toUpper
  List.replicate (width - ds.length) '0' ++ ds

/-- The spelling of a character between quotation marks. -/
def spelled (c : Char) : List Char :=
  match escapeLetters.lookup c with
  | some l => ['\\', l]
  | none =>
    if c.toNat ≤ 0xFF then '\\' :: 'x' :: codeDigits 2 c.toNat
    else if c.toNat ≤ 0xFFFF then '\\' :: 'u' :: codeDigits 4 c.toNat
    else '\\' :: 'U' :: codeDigits 8 c.toNat

/-- A character that stands for itself between quotation marks. -/
def isOpen (c : Char) : Bool := 0x20 ≤ c.toNat && c.toNat ≤ 0x7E && c ≠ '\x22' && c ≠ '\\'

/-- Break off a line between quotation marks. A blank at the start of the next line is marked. -/
def breakOff (indent : Nat) (p : Pen) (next : Option Char) : Pen :=
  let p := (p.put ['\\']).wrap indent
  if next = some ' ' then p.put ['\\'] else p

/-- Write a text between quotation marks, of which `pending` is not written yet. After the character
number `i` of `count` the line may be broken off, at a blank or behind a spelled character. -/
def putDouble (split : Bool) (indent count i : Nat) (pending : List Char) (p : Pen) :
    List Char → Pen
  | [] => p.put pending
  | c :: cs =>
    let inside := 0 < i && i + 1 < count && split
    if isOpen c then
      let wraps := inside && (c = ' ' || pending.isEmpty) && lineWidth < p.column + pending.length
      if wraps then
        putDouble split indent count (i + 1) [c] (breakOff indent (p.put pending) (some c)) cs
      else putDouble split indent count (i + 1) (pending ++ [c]) p cs
    else
      let p := p.put (pending ++ spelled c)
      let p := if inside && lineWidth + 1 < p.column then breakOff indent p cs.head? else p
      putDouble split indent count (i + 1) [] p cs

/-- A text as a scalar. As a key it stays on one line; `plain` tells that it reads back as a text.
-/
def putText (key : Bool) (indent : Nat) (p : Pen) (s : String) : Pen :=
  let cs := s.toList
  let a := analyze cs
  if isText s && a.allowsPlain && !(key && (a.isEmpty || a.hasBreaks)) then
    putPlain (!key) indent p cs
  else if a.allowsSingle && !(key && a.hasBreaks) then putSingle (!key) indent p cs
  else (putDouble (!key) indent cs.length 0 [] (p.put ['\x22']) cs).put ['\x22']

/-- A number in decimal form always has a point. -/
def realText (x : Binary64) : String :=
  match x with
  | .nan => ".nan"
  | .infinite negative => if negative then "-.inf" else ".inf"
  | x =>
    let cs := x.text.toList
    if cs.contains 'e' && !cs.contains '.' then
      String.ofList (cs.takeWhile (· ≠ 'e') ++ ".0".toList ++ cs.dropWhile (· ≠ 'e'))
    else x.text

/-- A value that is no container with content, on the line. -/
def putScalar (key : Bool) (indent : Nat) (p : Pen) : Value → Pen
  | .null => p.put "null".toList
  | .bool b => p.put (if b then "true" else "false").toList
  | .number (.int n) => p.put (intText n).toList
  | .number (.real x) => p.put (realText x).toList
  | .string s => putText key indent p s
  | .list _ => p.put "[]".toList
  | .object _ => p.put "\x7b\x7d".toList

/-- The longest key that stands before its colon on one line. -/
def maxKey : Nat := 123

/-- A key that stands before its colon on one line. -/
def isSimpleKey (s : String) : Bool := s ≠ "" && s.length < maxKey && !s.toList.any isBreak

/-- A blank margin. -/
def margin (indent : Nat) : List Char := List.replicate indent ' '

/-- Entries of a mapping, each under its key, in the order of the keys. -/
def inOrder (lines : List (String × List Char)) : List Char :=
  (lines.mergeSort fun a b => a.1 ≤ b.1).flatMap Prod.snd

/-- A value on the rest of a line, which ends before `column`. -/
def onLine (indent column : Nat) (v : Value) : List Char :=
  ' ' :: ((putScalar false indent ⟨[], column + 1⟩ v).text ++ ['\n'])

mutual

/-- A value behind the mark of an entry, which ends before `column`; the entries of a container
stand at `indent`. -/
def behindMark (indent column : Nat) : Value → List Char
  | .list vs =>
    if vs.isEmpty then onLine indent column (.list []) else ' ' :: (entries indent vs).drop indent
  | .object fs =>
    if fs.isEmpty then onLine indent column (.object [])
    else ' ' :: (inOrder (fields indent fs)).drop indent
  | v => onLine indent column v

/-- A value behind a key at `indent` and its colon, which ends before `column`. -/
def behindKey (indent column : Nat) : Value → List Char
  | .list vs =>
    if vs.isEmpty then onLine (indent + 2) column (.list []) else '\n' :: entries indent vs
  | .object fs =>
    if fs.isEmpty then onLine (indent + 2) column (.object [])
    else '\n' :: inOrder (fields (indent + 2) fs)
  | v => onLine (indent + 2) column v

/-- The entries of a sequence at a column. -/
def entries (indent : Nat) : List Value → List Char
  | [] => []
  | v :: vs =>
    margin indent ++ '-' :: behindMark (indent + 2) (indent + 1) v ++ entries indent vs

/-- Each entry of a mapping at a column, under its key. -/
def fields (indent : Nat) : List (String × Value) → List (String × List Char)
  | [] => []
  | (k, v) :: fs =>
    let line :=
      if isSimpleKey k then
        let key := putText true indent ⟨[], indent⟩ k
        margin indent ++ key.text ++ ':' :: behindKey indent (key.column + 1) v
      else
        margin indent ++ '?' :: onLine (indent + 2) (indent + 1) (.string k) ++
          margin indent ++ ':' :: behindMark (indent + 2) (indent + 1) v
    (k, line) :: fields indent fs

end

/-- A value as a document. -/
def write (v : Value) : String :=
  String.ofList (match v with
    | .list (w :: ws) => entries 0 (w :: ws)
    | .object (f :: fs) => inOrder (fields 0 (f :: fs))
    | v => (putScalar false 0 ⟨[], 0⟩ v).text ++ ['\n'])

end Montage.Yaml
