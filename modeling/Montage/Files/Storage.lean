import Montage.Files.Path

/-!
# Stored files

The files that edits read and write. A storage is a list of entries, each under the components of
its place; the top is always a directory. Every operation resolves a path first: each component but
the last has to be a directory, and a double dot leads back up.

## Main definitions

* `Montage.Storage`: the entries.
* `Storage.locate`: the place that a path leads to.
* `Storage.exists?`, `read`, `write`, `makeDirs`, `remove`, `copy`: the operations.
* `Storage.writtenSince`, `Storage.removedSince`: what has changed.
-/

namespace Montage

/-- What is stored in one place. -/
inductive Entry
  | text (content : String)
  /-- A font that can be loaded. -/
  | font
  /-- A file that can be executed. -/
  | program (content : String)
  | directory
  deriving DecidableEq, Inhabited

/-- The text of a file; that of a font is not looked at. -/
def Entry.content? : Entry → Option String
  | text t | program t => some t
  | font => some ""
  | directory => none

/-- The components that lead to an entry. -/
abbrev Place := List String

/-- A place in writing. -/
def placeText (place : Place) : String := "/".intercalate place

/-- The entries, in the order in which their places were first filled. -/
structure Storage where
  entries : List (Place × Entry)
  deriving DecidableEq, Inhabited

namespace Storage

/-- Nothing is stored. -/
def empty : Storage := ⟨[]⟩

/-- The entry in a place. -/
def entry? (s : Storage) (place : Place) : Option Entry :=
  if place = [] then some .directory else s.entries.lookup place

/-- Put an entry in its place, in the list of entries. -/
def replace (place : Place) (e : Entry) : List (Place × Entry) → List (Place × Entry)
  | [] => [(place, e)]
  | (p, d) :: rest => if p = place then (p, e) :: rest else (p, d) :: replace place e rest

/-- The storage with an entry put in its place. -/
def put (s : Storage) (place : Place) (e : Entry) : Storage := ⟨replace place e s.entries⟩

/-- The storage without the entry in a place. -/
def delete (s : Storage) (place : Place) : Storage := ⟨s.entries.filter fun e => e.1 ≠ place⟩

/-- Where a path leads. -/
inductive Location
  | at (place : Place)
  /-- A component on the way does not exist. -/
  | nowhere
  /-- A component on the way is no directory. -/
  | blocked
  /-- A component, or the whole path, is longer than names may be. -/
  | tooLong
  deriving DecidableEq, Inhabited

/-- The longest name of one component, in bytes. -/
def maxName : Nat := 255

/-- The longest path, in bytes. -/
def maxPath : Nat := 4095

/-- Follow components from a place. -/
def follow (s : Storage) (place : Place) : List String → Location
  | [] => .at place
  | part :: parts =>
    match s.entry? place with
    | some .directory =>
      if maxName < part.utf8ByteSize then .tooLong
      else if part.contains '\x00' then .nowhere
      else if part = ".." then
        if place = [] then .nowhere else follow s place.dropLast parts
      else follow s (place ++ [part]) parts
    | some _ => .blocked
    | none => .nowhere

/-- Where a path leads. Only relative paths lead into the storage. -/
def locate (s : Storage) (p : Path) : Location :=
  if maxPath < p.text.utf8ByteSize then .tooLong
  else if p.root ≠ "" then .nowhere
  else follow s [] p.parts

/-- The entry that a path leads to. -/
def lookup (s : Storage) (p : Path) : Option Entry :=
  match s.locate p with
  | .at place => s.entry? place
  | _ => none

/-- Whether there is an entry. The question itself fails for a name that is too long. -/
def exists? (s : Storage) (p : Path) : Except Fault Bool :=
  match s.locate p with
  | .tooLong => .error (.system (.nameTooLong p.text))
  | _ => .ok (s.lookup p).isSome

/-- There is a directory. -/
def isDirectory (s : Storage) (p : Path) : Bool := s.lookup p = some .directory

/-- The place of a file that is to be read or written; `shown` names it in a fault. -/
def filePlace (s : Storage) (p : Path) (shown : String) : Except Fault Place :=
  match s.locate p with
  | .tooLong => .error (.system (.nameTooLong shown))
  | .blocked => .error (.system (.notDirectory shown))
  | .nowhere => .error (.system (.noEntry shown))
  | .at place =>
    if s.entry? place = some .directory then .error (.system (.isDirectory shown)) else .ok place

/-- The text of a file. -/
def read (s : Storage) (p : Path) (shown : String) : Except Fault String := do
  match s.entry? (← s.filePlace p shown) with
  | some (.text t) | some (.program t) => .ok t
  | some .font => .error (.value .notText)
  | _ => .error (.system (.noEntry shown))

/-- A text in which every line ends with a line feed. -/
def unifyLines : List Char → List Char
  | '\r' :: '\n' :: cs => '\n' :: unifyLines cs
  | '\r' :: cs => '\n' :: unifyLines cs
  | c :: cs => c :: unifyLines cs
  | [] => []

/-- The text of a file, in which every line ends with a line feed. -/
def readLines (s : Storage) (p : Path) : Except Fault String :=
  (s.read p p.text).map fun t => String.ofList (unifyLines t.toList)

/-- The storage after a text is written to a file, whose directory has to exist. -/
def write (s : Storage) (p : Path) (shown text : String) : Except Fault Storage := do
  let place ← s.filePlace p shown
  if s.entry? place.dropLast = some .directory then
    match s.entry? place with
    | some (.program _) => .ok (s.put place (.program text))
    | _ => .ok (s.put place (.text text))
  else if (s.entry? place.dropLast).isSome then .error (.system (.notDirectory shown))
  else .error (.system (.noEntry shown))

/-- Create the directories `parts` one inside the other, below those `done`. -/
def makeDirsFrom (s : Storage) (p : Path) (before : List String) :
    List String → Except Fault Storage
  | [] => .ok s
  | part :: parts =>
    let here : Path := ⟨p.root, before ++ [part]⟩
    match s.locate here with
    | .tooLong => .error (.system (.nameTooLong here.text))
    | .blocked => .error (.system (.notDirectory here.text))
    | .nowhere => .error (.system (.noEntry here.text))
    | .at place =>
      match s.entry? place with
      | some .directory => makeDirsFrom s p (before ++ [part]) parts
      | some _ =>
        if parts.isEmpty then .error (.system (.entryExists here.text))
        else .error (.system (.notDirectory p.text))
      | none => makeDirsFrom (s.put place .directory) p (before ++ [part]) parts

/-- The storage in which a path and all that leads to it are directories. -/
def makeDirs (s : Storage) (p : Path) : Except Fault Storage :=
  s.makeDirsFrom p [] p.parts

/-- The storage without a file. A file that is not there is no fault; a directory is. -/
def remove (s : Storage) (p : Path) : Except Fault Storage :=
  match s.locate p with
  | .tooLong => .error (.system (.nameTooLong p.text))
  | .blocked => .error (.system (.notDirectory p.text))
  | .nowhere => .ok s
  | .at place =>
    match s.entry? place with
    | some .directory => .error (.system (.isDirectory p.text))
    | _ => .ok (s.delete place)

/-- The storage after the content of one file is copied to another. -/
def copy (s : Storage) (source target : Path) : Except Fault Storage := do
  let place ← s.filePlace source source.text
  match s.entry? place with
  | none | some .directory => .error (.system (.noEntry source.text))
  | some e =>
    let dest ← s.filePlace target target.text
    if (s.entry? dest.dropLast) ≠ some .directory then .error (.system (.noEntry target.text))
    else match e, s.entry? dest with
      | .program t, some (.program _) => .ok (s.put dest (.program t))
      | .text t, some (.program _) => .ok (s.put dest (.program t))
      | .program t, _ => .ok (s.put dest (.text t))
      | e, _ => .ok (s.put dest e)

/-- The names in a directory. -/
def children (s : Storage) (place : Place) : List String :=
  s.entries.filterMap fun e =>
    if e.1.dropLast = place && !e.1.isEmpty then e.1.getLast? else none

/-- The directories at a place and below it, as the components that lead there. -/
def directoriesBelow (s : Storage) (place : Place) : List Place :=
  [] :: s.entries.filterMap fun e =>
    if e.2 = .directory && place.isPrefixOf e.1 && place ≠ e.1 then some (e.1.drop place.length)
    else none

/-- A storage with these entries, each below directories that are made for it. -/
def ofList (files : List (Path × Entry)) : Storage :=
  files.foldl (fun s f =>
    let parents := (List.range f.1.parts.length).map fun n => f.1.parts.take n
    let s := parents.foldl (fun s d =>
      if d = [] || (s.entry? d).isSome then s else s.put d .directory) s
    if f.1.parts = [] then s else s.put f.1.parts f.2) empty

/-- The files with text that are not in an earlier storage with this text. -/
def writtenSince (s before : Storage) : List (String × String) :=
  s.entries.filterMap fun e =>
    if (before.entries.lookup e.1).bind Entry.content? = e.2.content? then none
    else e.2.content?.map fun t => (placeText e.1, t)

/-- The files of an earlier storage that are gone, sorted. -/
def removedSince (s before : Storage) : List String :=
  (before.entries.filterMap fun e =>
    if e.2 = .directory || (s.entries.lookup e.1).isSome then none
    else some (placeText e.1)).mergeSort (· ≤ ·)

end Storage

end Montage
