import Montage.Fault

/-!
# Paths

A path is a root, which a relative path does not have, and a list of components. Empty components
and single dots are dropped when a path is read; double dots stay.

## Main definitions

* `Montage.Path`: the paths; `Path.ofString` reads one and `Path.text` writes it.
* `Path.name`, `stem`, `suffix`: the last component and its two parts.
* `Path.withName?`: the path with another last component.
-/

namespace Montage

/-- A root, empty for a relative path, and components. -/
structure Path where
  root : String
  parts : List String
  deriving DecidableEq, Inhabited

namespace Path

/-- The text cut at every `sep`. -/
def splitAt (sep : Char) : List Char → List (List Char)
  | [] => [[]]
  | c :: cs =>
    match splitAt sep cs with
    | [] => [[]]
    | w :: ws => if c = sep then [] :: w :: ws else (c :: w) :: ws

/-- The components that a text names. -/
def components (cs : List Char) : List String :=
  ((splitAt '/' cs).map String.ofList).filter fun w => w ≠ "" && w ≠ "."

/-- The root that a text starts with: two slashes, but not three, are a root of their own. -/
def rootOf : List Char → String
  | '/' :: '/' :: '/' :: _ => "/"
  | '/' :: '/' :: _ => "//"
  | '/' :: _ => "/"
  | _ => ""

/-- The path that a text names. -/
def ofString (s : String) : Path := ⟨rootOf s.toList, components s.toList⟩

/-- The written form; nothing at all is written as a dot. -/
def text (p : Path) : String :=
  if p.root = "" && p.parts.isEmpty then "." else p.root ++ "/".intercalate p.parts

/-- The last component, empty if there is none. -/
def name (p : Path) : String := p.parts.getLast?.getD ""

/-- A name cut before its last dot, unless the dot leads or ends it. -/
def cutName (name : String) : String × String :=
  let cs := name.toList
  let tail := (cs.reverse.takeWhile (· ≠ '.')).reverse
  let head := cs.take (cs.length - tail.length - 1)
  if tail.length = cs.length || tail.isEmpty || head.isEmpty then (name, "")
  else (String.ofList head, String.ofList ('.' :: tail))

/-- The last component without its suffix. -/
def stem (p : Path) : String := (cutName p.name).1

/-- The last dot of the last component and what follows it. -/
def suffix (p : Path) : String := (cutName p.name).2

/-- The path with another last component. -/
def withName? (p : Path) (name : String) : Except Fault Path :=
  if p.parts.isEmpty then .error (.value (.noFileName p.text))
  else .ok { p with parts := p.parts.dropLast ++ [name] }

/-- The path that leads one component further. -/
def child (p : Path) (name : String) : Path := { p with parts := p.parts ++ [name] }

/-- The path that leads further by the components of `q`; an absolute `q` replaces the path. -/
def join (p q : Path) : Path := if q.root = "" then { p with parts := p.parts ++ q.parts } else q

end Path

end Montage
