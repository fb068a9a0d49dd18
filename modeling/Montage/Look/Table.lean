import Montage.Look.Catalog

/-!
# Looking up looks

A name is looked up by its key: first among the looks, then, as a further name, among the looks
again. Grades from the settings stand in place of built-in ones of the same key.

## Main definitions

* `Montage.Looks`: the grades of an engine; effects and filters are the built-in ones.
* `Looks.grade?`, `Montage.effect?`, `Montage.filter?`: the look of a name.
-/

namespace Montage

/-- Looks by their keys. -/
abbrev LookTable (α : Type) := List (String × α)

namespace LookTable

variable {α : Type}

/-- The table with a look put under a key. -/
def set (t : LookTable α) (key : String) (look : α) : LookTable α :=
  match t with
  | [] => [(key, look)]
  | (k, l) :: rest => if k = key then (k, look) :: rest else (k, l) :: set rest key look

/-- The look under the key of a name, or under what that key stands for. -/
def find? (t : LookTable α) (aliases : List (String × String)) (name : Value) : Option α :=
  let key := normalizeName name
  (t.lookup key).or (t.lookup ((aliases.lookup key).getD ""))

/-- A table of looks by their names. -/
def ofNamed (name : α → String) (looks : List α) : LookTable α :=
  looks.foldl (fun t l => set t (normalizeName (.string (name l))) l) []

end LookTable

/-- The colour grades of an engine. -/
structure Looks where
  grades : LookTable Grade
  deriving Inhabited

namespace Looks

/-- The built-in grades. -/
def builtIn : Looks := ⟨LookTable.ofNamed Grade.name Montage.grades⟩

/-- The built-in grades and those of the settings. -/
def of (overrides : Fields) : Except Fault Looks := do
  let grades ← overrides.foldlM (fun (t : LookTable Grade) o => do
    return t.set (normalizeName (.string o.1)) (← Grade.ofValue o.1 o.2)) builtIn.grades
  return ⟨grades⟩

/-- The grade of a name. -/
def grade? (l : Looks) (name : Value) : Option Grade := LookTable.find? l.grades gradeAliases name

/-- The names of all grades, sorted. -/
def gradeNames (l : Looks) : List String := (l.grades.map (·.2.name)).mergeSort (· ≤ ·)

end Looks

/-- The effects by their keys. -/
def effectTable : LookTable Effect := LookTable.ofNamed Effect.name effects

/-- The plain filters by their keys. -/
def filterTable : LookTable Effect := LookTable.ofNamed Effect.name filters

/-- The effect of a name. -/
def effect? (name : Value) : Option Effect := LookTable.find? effectTable effectAliases name

/-- The plain filter of a name. -/
def filter? (name : Value) : Option Effect := LookTable.find? filterTable filterAliases name

/-- The keys of a table, sorted. -/
def LookTable.keys {α : Type} (t : LookTable α) : List String :=
  (t.map (·.1)).mergeSort (· ≤ ·)

/-- What stands under a name: a look, or the neutral one in its place with a notice. -/
structure Found (α : Type) where
  look : α
  notices : List String
  deriving Inhabited

namespace Found

/-- A look if there is one, else the neutral one. -/
def of {α : Type} (look? : Option α) (neutral : α) (notice : String) : Found α :=
  match look? with
  | some look => ⟨look, []⟩
  | none => ⟨neutral, [notice]⟩

/-- A look stands under the name. -/
def isKnown {α : Type} (f : Found α) : Bool := f.notices.isEmpty

end Found

/-- The grade of a name, else the neutral one. -/
def Looks.grade (l : Looks) (name : Value) : Found Grade :=
  .of (l.grade? name) neutralGrade
    ("Unknown colour preset '" ++ name.text ++ "', using neutral grade")

/-- The effect of a name, else the neutral one. -/
def effectNamed (name : Value) : Found Effect :=
  .of (effect? name) neutralEffect
    ("Unknown effect preset '" ++ name.text ++ "', using neutral adjustment")

/-- The plain filter of a name, else the neutral one. -/
def filterNamed (name : Value) : Found Effect :=
  .of (filter? name) neutralEffect
    ("Unknown filter type '" ++ name.text ++ "', using neutral adjustment")

end Montage
