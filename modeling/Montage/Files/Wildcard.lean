import Montage.Files.Storage
import Montage.Text.Search

/-!
# Wildcard search

Patterns for names with stars, question marks and character sets, and the search of a directory and
all directories in it for the paths that a pattern of components matches. Matching distinguishes
case.

## Main definitions

* `Montage.Wildcard`: the pieces of a pattern for one name.
* `Wildcard.matches`: the names that a pattern covers.
* `Storage.search`: the paths below a directory that a pattern matches, in order.
-/

namespace Montage

/-- One piece of a pattern. -/
inductive Wildcard
  | star
  | one
  | char (c : Char)
  /-- One character inside the ranges, or outside them. -/
  | set (negated : Bool) (ranges : List (Char × Char))
  deriving DecidableEq, Inhabited

namespace Wildcard

/-- The ranges that the inside of brackets lists. A hyphen between two characters spans a range; one
whose end lies before its start is empty. -/
def ranges : List Char → List (Char × Char)
  | c :: '-' :: d :: rest => if c ≤ d then (c, d) :: ranges rest else ranges rest
  | c :: rest => (c, c) :: ranges rest
  | [] => []

/-- The inside of brackets as a set. An exclamation mark in front negates it. -/
def ofBrackets : List Char → Wildcard
  | '!' :: body => set true (ranges body)
  | body => set false (ranges body)

/-- The inside of brackets that open before `cs`, and what follows them. A closing bracket that is
the first character of the set belongs to it. -/
def brackets? (cs : List Char) : Option (List Char × List Char) :=
  let (mark, rest) := match cs with
    | '!' :: r => (['!'], r)
    | r => ([], r)
  let (first, rest) := match rest with
    | ']' :: r => ([']'], r)
    | r => ([], r)
  let body := rest.takeWhile (· ≠ ']')
  match rest.dropWhile (· ≠ ']') with
  | _ :: after => some (mark ++ first ++ body, after)
  | [] => none

/-- The pieces of a pattern; every round takes at least one character, so its length is `fuel`
enough. -/
def parseFor : Nat → List Char → List Wildcard
  | 0, _ => []
  | _, [] => []
  | fuel + 1, '*' :: cs => star :: parseFor fuel cs
  | fuel + 1, '?' :: cs => one :: parseFor fuel cs
  | fuel + 1, '[' :: cs =>
    match brackets? cs with
    | some (body, rest) => ofBrackets body :: parseFor fuel rest
    | none => char '[' :: parseFor fuel cs
  | fuel + 1, c :: cs => char c :: parseFor fuel cs

/-- The pieces of a pattern. -/
def parse (pattern : String) : List Wildcard := parseFor pattern.length pattern.toList

/-- The character is covered by a piece that stands for one. -/
def covers : Wildcard → Char → Bool
  | star, _ => true
  | one, _ => true
  | char c, d => c = d
  | set negated rs, d => rs.any (fun r => r.1 ≤ d && d ≤ r.2) != negated

/-- The whole text is covered by the pieces. -/
def covered : List Wildcard → List Char → Bool
  | [], cs => cs.isEmpty
  | star :: ps, cs => (Text.tails cs).any (covered ps)
  | p :: ps, cs =>
    match cs with
    | [] => false
    | c :: cs => p.covers c && covered ps cs

/-- The name is covered by the pattern. -/
def matchesName (pattern name : String) : Bool := covered (parse pattern) name.toList

/-- The pattern has a piece that is no plain character. -/
def isPattern (text : String) : Bool := text.toList.any fun c => c = '*' || c = '?' || c = '['

/-- A star directly after another one. -/
def hasDoubleStar : List Char → Bool
  | '*' :: '*' :: _ => true
  | _ :: cs => hasDoubleStar cs
  | [] => false

end Wildcard

namespace Storage

/-- The places, as shown and as resolved, that the components of a pattern lead to from a place. -/
def select (s : Storage) (shown place : List String) :
    List String → List (List String × Place)
  | [] => [(shown, place)]
  | part :: parts =>
    let next : List (String × Place) :=
      if Wildcard.isPattern part then
        ((s.children place).filter (Wildcard.matchesName part)).map fun n => (n, place ++ [n])
      else match s.follow place [part] with
        | .at p => [(part, p)]
        | _ => []
    let fits (p : Place) : Bool :=
      if parts.isEmpty then (s.entry? p).isSome else s.entry? p = some .directory
    (next.filter fun n => fits n.2).flatMap fun n => select s (shown ++ [n.1]) n.2 parts

/-- `xs` comes before `ys`, component by component. -/
def before (xs ys : List String) : Bool :=
  match xs, ys with
  | [], _ => true
  | _ :: _, [] => false
  | x :: xs, y :: ys => if x = y then before xs ys else x < y

/-- The paths that the components of a pattern lead to from the directory `dir` or one below it,
ordered by their components. A pattern has to be relative, and stars that pass over directories
cannot stand inside a component. -/
def search (s : Storage) (dir : Path) (pattern : String) : Except Fault (List Path) := do
  let p := Path.ofString pattern
  if p.root ≠ "" then .error (.unsupported "Non-relative patterns are unsupported")
  else if p.parts.any fun part => part ≠ "**" && Wildcard.hasDoubleStar part.toList then
    .error (.value .wildcardInside)
  else
    match s.locate dir with
    | .at place =>
      if s.entry? place ≠ some .directory then .ok []
      else
        let found := (s.directoriesBelow place).flatMap fun d =>
          s.select d (place ++ d) p.parts
        let paths := (found.map (·.1)).eraseDups.mergeSort before
        .ok (paths.map fun d => { dir with parts := dir.parts ++ d })
    | _ => .ok []

end Storage

end Montage
