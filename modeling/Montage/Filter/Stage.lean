import Montage.Filter.Escape
import Montage.Value

/-!
# Filter stages

A stage is one filter of the renderer with positional and named options, limited to a window of
time if it has a gate. An option is either a trusted expression, which is written as it is and
quoted where it has to be, or a literal value, which is escaped.

## Main definitions

* `Montage.OptionValue`, `Montage.Gate`, `Montage.Stage`: the parts.
* `Stage.text`: the written form; `Montage.chainText` writes several stages.
-/

namespace Montage

/-- The value of an option. -/
inductive OptionValue
  /-- An expression that the renderer evaluates. -/
  | expression (text : String)
  | literal (v : Value)
  deriving Inhabited

/-- An expression with one of these has to stand between quotes. -/
def needsQuotes (c : Char) : Bool := c = ':' || c = ',' || c = ';' || c = '[' || c = ']'

/-- A binary number with at most six decimal places, an integer without any. -/
def realText (x : Binary64) : String :=
  match x.isInteger, x.toRat? with
  | true, some v => intText (Binary64.truncate v)
  | _, _ => (x.roundPlaces 6).text

namespace OptionValue

/-- A text option. -/
abbrev string (s : String) : OptionValue := literal (.string s)

/-- A number option. -/
abbrev number (n : Number) : OptionValue := literal (.number n)

/-- A floating-point option. -/
abbrev real (x : Binary64) : OptionValue := literal (.real x)

/-- An integer option. -/
abbrev int (n : Int) : OptionValue := literal (.int n)

/-- The written form. -/
def text : OptionValue → String
  | expression t => if t.toList.any needsQuotes then "'" ++ t ++ "'" else t
  | literal (.bool b) => if b then "1" else "0"
  | literal (.number (.int n)) => intText n
  | literal (.number (.real x)) => realText x
  | literal v => String.ofList (Escape.value v.text.toList)

/-- There is something to write. -/
def isGiven : OptionValue → Bool
  | literal .null => false
  | _ => true

end OptionValue

/-- The times from `start` on, and before `finish` if that lies after the start. -/
structure Gate where
  start : Number
  finish : Option Number
  deriving DecidableEq, Inhabited

namespace Gate

/-- The end that the gate really has. -/
def limit? (g : Gate) : Option Number := g.finish.filter (g.start < ·)

/-- The condition on the time, as the renderer evaluates it. -/
def predicate (g : Gate) : String :=
  match g.limit? with
  | some e => "between(t," ++ realText g.start.toReal ++ "," ++ realText e.toReal ++ ")"
  | none => "gte(t," ++ realText g.start.toReal ++ ")"

/-- The option that applies the condition to a filter. -/
def text (g : Gate) : String := "enable='" ++ g.predicate ++ "'"

/-- The gate, or the fault that a bound cannot be written. -/
def checked (g : Gate) : Except Fault Gate := do
  let _ ← g.start.toReal?
  match g.limit? with
  | some e => let _ ← e.toReal?; .ok g
  | none => .ok g

end Gate

/-- One filter with its options. -/
structure Stage where
  name : String
  args : List OptionValue
  options : List (String × OptionValue)
  gate : Option Gate
  deriving Inhabited

namespace Stage

/-- A filter with positional options only. -/
def ofArgs (name : String) (args : List OptionValue) : Stage := ⟨name, args, [], none⟩

/-- A filter with named options only. -/
def of (name : String) (options : List (String × OptionValue)) : Stage := ⟨name, [], options, none⟩

/-- The stage without the options that are not given. -/
def compact (s : Stage) : Stage := { s with options := s.options.filter fun o => o.2.isGiven }

/-- The value of a named option. -/
def option? (s : Stage) (key : String) : Option OptionValue := s.options.lookup key

/-- The options in writing, the gate last. -/
def parts (s : Stage) : List String :=
  s.args.map OptionValue.text ++ s.options.map (fun o => o.1 ++ "=" ++ o.2.text) ++
    s.gate.toList.map Gate.text

/-- The written form. -/
def text (s : Stage) : String :=
  if s.parts.isEmpty then s.name else s.name ++ "=" ++ ":".intercalate s.parts

end Stage

/-- The written form of stages that follow one another. -/
def chainText (stages : List Stage) : String := ",".intercalate (stages.map Stage.text)

end Montage
