import Montage.Catalog.Check

/-!
# Cleaning of texts and identifiers

Texts that a user writes are cleaned before they reach a renderer: control characters and angle
brackets are dropped, blanks around the text too, and the length is bounded. The identifier of a
resource on the preview service is not cleaned but checked.

## Main definitions

* `Montage.sanitize`: the cleaned text.
* `Montage.checkPublicId`: the identifiers that the preview service takes.
* `Montage.sanitizeParams`: the parameters of an edit with their texts cleaned.
-/

namespace Montage

/-- The controls that a text may not hold: all of ASCII but tab, line feed and carriage return. -/
def isDroppedControl (c : Char) : Bool :=
  c.toNat ≤ 0x08 || c.toNat = 0x0B || c.toNat = 0x0C || (0x0E ≤ c.toNat && c.toNat ≤ 0x1F) ||
    c.toNat = 0x7F

/-- A character that a text may hold. -/
def isKept (c : Char) : Bool := !isDroppedControl c && c ≠ '<' && c ≠ '>'

/-- The longest text. -/
def maxTextLength : Nat := 500

/-- The characters of a text that may stay, without blanks around them. -/
def cleaned (cs : List Char) : List Char := Text.strip (cs.filter isKept)

/-- The cleaned text, cut to its length limit. -/
def sanitize (s : String) : String := String.ofList ((cleaned s.toList).take maxTextLength)

/-- The cleaned text cut to `limit` characters; a negative limit cuts so many off the end. -/
def sanitizeTo (limit : Int) (s : String) : String :=
  let cs := cleaned s.toList
  String.ofList (if 0 ≤ limit then cs.take limit.toNat else cs.take (cs.length - limit.natAbs))

/-- The longest identifier of a resource. -/
def maxIdLength : Nat := 200

/-- A character of an identifier. -/
def isIdChar (c : Char) : Bool :=
  c.isAlphanum || c = '_' || c = '/' || c = '-' || c = '.'

/-- The characters make up an identifier, which one line break may follow. -/
def isIdText (cs : List Char) : Bool :=
  let body := if cs.getLast? = some '\n' then cs.dropLast else cs
  !body.isEmpty && body.all isIdChar

/-- The identifier that a value is, or the refusal of any other value. -/
def checkPublicId : Value → Except EditError String
  | .string s =>
    if s = "" then .error (.malformed "Public id is required")
    else if maxIdLength < s.length then
      .error (.malformed ("Public id must be at most " ++ digitText maxIdLength ++ " characters"))
    else if isIdText s.toList then .ok s
    else .error (.malformed ("Public id contains invalid characters: " ++ Text.quoted s))
  | _ => .error (.malformed "Public id is required")

/-- A caption with its text cleaned; a caption without one gets the empty text. -/
def sanitizeCue : Value → Except Fault Value
  | .object fs =>
    .ok (.object (Fields.set fs "text"
      (.string (sanitize ((Fields.get? fs "text").getD (.string "")).text))))
  | v => .error (.type (.other ("'" ++ v.typeName ++ "' object is not a mapping")))

/-- The parameters of an edit with the texts in them cleaned. -/
def sanitizeParams (kind : Kind) (fs : Fields) : Except Fault Fields := do
  if kind.isText then
    match fs.get "text" with
    | .string s => .ok (fs.set "text" (.string (sanitize s)))
    | _ => .ok fs
  else if kind = .addCaptions then
    let key := if fs.has "captions" then "captions" else "segments"
    match fs.get key with
    | .list cues => return fs.set key (.list (← cues.mapM sanitizeCue))
    | _ => .ok fs
  else .ok fs

end Montage
