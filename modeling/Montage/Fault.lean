import Montage.Number.Notation
import Montage.Text.Quoted

/-!
# Faults

What goes wrong with a value or a file, as opposed to an edit that is refused: a text that is no
number, a number out of range, a missing key, a value of the wrong type, a file that cannot be
read. A fault is kept as its cause; `message` words it.

## Main definitions

* `Montage.Fault`: the causes, by family.
* `Fault.message`: the wording.
-/

namespace Montage

open Text (quoted)

/-- A value of the right type that does not serve. -/
inductive ValueFault
  /-- The text is no decimal number. -/
  | notReal (text : String)
  /-- The text is no integer. -/
  | notInteger (text : String)
  /-- An integer of so many digits is not read. -/
  | tooManyDigits (count : Nat)
  /-- What is not a number has no integer part. -/
  | integerOfNan
  /-- A window starts before zero. -/
  | windowStart (start : String)
  /-- A window ends at or before its start. -/
  | windowOrder (start finish : String)
  /-- No colour is written like this. -/
  | unknownColor (spec : String)
  | colorTooLong
  /-- The path has no last component to replace. -/
  | noFileName (path : String)
  /-- A quotient was split into too few or too many parts. -/
  | partCount (wanted got : Nat)
  /-- The value is no member of the named choice. -/
  | notMember (value choice : String)
  | noStrategy
  /-- A configuration file has a suffix that names no known format. -/
  | unknownFormat (suffix : String)
  /-- The wildcard for directories stands inside a component. -/
  | wildcardInside
  /-- The element of a list of pairs is no pair. -/
  | notPair (index length : Nat)
  /-- The content of a file is no text. -/
  | notText
  /-- Anything else, in its own words. -/
  | other (text : String)
  deriving DecidableEq, Inhabited

/-- A number beyond what the operation can represent. -/
inductive RangeFault
  | integerBeyondReal
  | integerOfInfinity
  | quotientBeyondReal
  deriving DecidableEq, Inhabited

/-- A value of the wrong type. The strings name types. -/
inductive TypeFault
  | notReal (type : String)
  | notInteger (type : String)
  | notIterable (type : String)
  | noIndex (type : String)
  | textIndex
  | listIndex
  | notComparable (operator left right : String)
  | unhashable (type : String)
  | notPath (type : String)
  | noLength (type : String)
  /-- An element of a sequence of pairs is no sequence. -/
  | pairElement (index : Nat)
  /-- Anything else, in its own words. -/
  | other (text : String)
  deriving DecidableEq, Inhabited

/-- A file or a program that cannot be used. -/
inductive SystemFault
  | noEntry (path : String)
  | entryExists (path : String)
  | isDirectory (path : String)
  | notDirectory (path : String)
  | nameTooLong (path : String)
  /-- A program that is not installed. -/
  | noProgram (name : String)
  | denied (name : String)
  /-- A file that the caller named and that is not there. -/
  | absent (role path : String)
  /-- A program that ended with a status other than zero. -/
  | exited (command : String) (status : Int)
  /-- Anything else, in its own words. -/
  | other (text : String)
  deriving DecidableEq, Inhabited

/-- Why an operation on values or files could not go on. -/
inductive Fault
  | value (cause : ValueFault)
  | range (cause : RangeFault)
  | key (name : String)
  /-- A sequence of the named sort has no such element. -/
  | position (sort : String)
  | type (cause : TypeFault)
  /-- A value of this type has no such member. -/
  | member (type name : String)
  | system (cause : SystemFault)
  /-- A callback gave up with this text. -/
  | callback (text : String)
  /-- The request is outside what the operation does. -/
  | unsupported (text : String)
  /-- A text is not of the structured format it should have. -/
  | malformedJson (text : String)
  | malformedYaml (text : String)
  deriving DecidableEq, Inhabited

namespace ValueFault

/-- The wording of the fault. -/
def message : ValueFault → String
  | notReal t => "could not convert string to float: " ++ quoted t
  | notInteger t => "invalid literal for int() with base 10: " ++ quoted t
  | tooManyDigits n =>
    "Exceeds the limit (4300 digits) for integer string conversion: value has " ++ digitText n ++
      " digits; use sys.set_int_max_str_digits() to increase the limit"
  | integerOfNan => "cannot convert float NaN to integer"
  | windowStart start => "Time window start must be >= 0, got " ++ start
  | windowOrder start finish =>
    "Time window end (" ++ finish ++ ") must exceed start (" ++ start ++ ")"
  | unknownColor spec => "unknown color specifier: " ++ quoted spec
  | colorTooLong => "color specifier is too long"
  | noFileName path => "PosixPath(" ++ quoted path ++ ") has an empty name"
  | partCount wanted got =>
    if got < wanted then
      "not enough values to unpack (expected " ++ digitText wanted ++ ", got " ++ digitText got ++
        ")"
    else "too many values to unpack (expected " ++ digitText wanted ++ ")"
  | notMember value choice => value ++ " is not a valid " ++ choice
  | noStrategy => "FallbackChain needs at least one strategy"
  | unknownFormat suffix => "Unsupported config format: " ++ suffix
  | wildcardInside => "Invalid pattern: '**' can only be an entire path component"
  | notPair index length =>
    "dictionary update sequence element #" ++ digitText index ++ " has length " ++
      digitText length ++ "; 2 is required"
  | notText => "'utf-8' codec can't decode byte: invalid start byte"
  | other text => text

end ValueFault

namespace RangeFault

/-- The wording of the fault. -/
def message : RangeFault → String
  | integerBeyondReal => "int too large to convert to float"
  | integerOfInfinity => "cannot convert float infinity to integer"
  | quotientBeyondReal => "integer division result too large for a float"

end RangeFault

namespace TypeFault

/-- The wording of the fault. -/
def message : TypeFault → String
  | notReal t => "float() argument must be a string or a real number, not '" ++ t ++ "'"
  | notInteger t =>
    "int() argument must be a string, a bytes-like object or a real number, not '" ++ t ++ "'"
  | notIterable t => "'" ++ t ++ "' object is not iterable"
  | noIndex t => "'" ++ t ++ "' object is not subscriptable"
  | textIndex => "string indices must be integers, not 'str'"
  | listIndex => "list indices must be integers or slices, not str"
  | notComparable op l r =>
    "'" ++ op ++ "' not supported between instances of '" ++ l ++ "' and '" ++ r ++ "'"
  | unhashable t => "unhashable type: '" ++ t ++ "'"
  | notPath t => "expected str, bytes or os.PathLike object, not " ++ t
  | noLength t => "object of type '" ++ t ++ "' has no len()"
  | pairElement index =>
    "cannot convert dictionary update sequence element #" ++ digitText index ++ " to a sequence"
  | other text => text

end TypeFault

namespace SystemFault

/-- The wording of the fault. -/
def message : SystemFault → String
  | noEntry p => "[Errno 2] No such file or directory: " ++ quoted p
  | entryExists p => "[Errno 17] File exists: " ++ quoted p
  | isDirectory p => "[Errno 21] Is a directory: " ++ quoted p
  | notDirectory p => "[Errno 20] Not a directory: " ++ quoted p
  | nameTooLong p => "[Errno 36] File name too long: " ++ quoted p
  | noProgram name => name
  | denied name => name
  | absent role p => role ++ " not found: " ++ p
  | exited command status =>
    "Command '" ++ command ++ "' returned non-zero exit status " ++ intText status ++ "."
  | other text => text

end SystemFault

namespace Fault

/-- The wording of the fault. -/
def message : Fault → String
  | value c => c.message
  | range c => c.message
  | key name => quoted name
  | position sort => sort ++ " index out of range"
  | type c => c.message
  | member t name => "'" ++ t ++ "' object has no attribute '" ++ name ++ "'"
  | system c => c.message
  | callback t => t
  | unsupported t => t
  | malformedJson t => t
  | malformedYaml t => t

/-- The fault is of a value of the wrong form, as opposed to one out of range or one that is asked
for what it does not have. -/
def isOfForm : Fault → Bool
  | value _ | key _ | type _ => true
  | _ => false

end Fault

end Montage
