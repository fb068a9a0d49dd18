import Montage.Number.Basic
import Montage.Number.Numeral

/-!
# Values

The data that requests, settings and files are made of before they have a type: null, truth values,
numbers, texts, lists, and objects whose fields keep their order.

## Main definitions

* `Montage.Value`, `Montage.Fields`: the values.
* `Value.text`, `Value.quoted`: how a value reads inside a message.
* `Value.toReal`, `Value.toInt`: a number out of a number, a truth value or a numeral.
* `Fields.pick?`: the first present value under several keys.
-/

namespace Montage

/-- A value without a type. -/
inductive Value
  | null
  | bool (b : Bool)
  | number (n : Number)
  | string (s : String)
  | list (items : List Value)
  | object (fields : List (String × Value))
  deriving Inhabited

/-- Named values in order. -/
abbrev Fields := List (String × Value)

namespace Value

/-- An integer value. -/
abbrev int (n : Int) : Value := number (.int n)

/-- A floating-point value. -/
abbrev real (x : Binary64) : Value := number (.real x)

/-- The name of the value's type. -/
def typeName : Value → String
  | null => "NoneType"
  | bool _ => "bool"
  | number (.int _) => "int"
  | number (.real _) => "float"
  | string _ => "str"
  | list _ => "list"
  | object _ => "dict"

mutual

/-- The value as it stands inside another one: a text between quotes. -/
def quoted : Value → String
  | null => "None"
  | bool b => if b then "True" else "False"
  | number n => n.text
  | string s => Text.quoted s
  | list items => "[" ++ ", ".intercalate (quotedItems items) ++ "]"
  | object fields => "\x7b" ++ ", ".intercalate (quotedFields fields) ++ "\x7d"

/-- The items of a list, each as it stands there. -/
def quotedItems : List Value → List String
  | [] => []
  | v :: vs => quoted v :: quotedItems vs

/-- The fields of an object, each as it stands there. -/
def quotedFields : List (String × Value) → List String
  | [] => []
  | (k, v) :: fs => (Text.quoted k ++ ": " ++ quoted v) :: quotedFields fs

end

/-- The value in a message: a text stands for itself. -/
def text : Value → String
  | string s => s
  | v => v.quoted

/-- Everything but null, false, zeros and what is empty. -/
def isTruthy : Value → Bool
  | null => false
  | bool b => b
  | number n => !n.isZero
  | string s => s ≠ ""
  | list items => !items.isEmpty
  | object fields => !fields.isEmpty

mutual

/-- The values are equal: numbers and truth values by what they count, objects by their fields in
any order. -/
def same : Value → Value → Bool
  | null, null => true
  | string s, string t => s = t
  | bool b, bool c => b = c
  | bool b, number n => n == .int (if b then 1 else 0)
  | number n, bool b => n == .int (if b then 1 else 0)
  | number m, number n => m == n
  | list vs, list ws => sameItems vs ws
  | object fs, object gs => fs.length = gs.length && sameFields fs gs
  | _, _ => false

/-- The items of two lists are equal, one by one. -/
def sameItems : List Value → List Value → Bool
  | [], [] => true
  | v :: vs, w :: ws => same v w && sameItems vs ws
  | _, _ => false

/-- Every field has an equal one among `gs`. -/
def sameFields : List (String × Value) → List (String × Value) → Bool
  | [], _ => true
  | (k, v) :: fs, gs =>
    (match gs.lookup k with
      | some w => same v w
      | none => false) && sameFields fs gs

end

/-- Neither null nor the empty text. -/
def isPresent : Value → Bool
  | null => false
  | string s => s ≠ ""
  | _ => true

/-- The number, if the value is one; truth values are none. -/
def number? : Value → Option Number
  | number n => some n
  | _ => none

/-- The text, if the value is one. -/
def string? : Value → Option String
  | string s => some s
  | _ => none

/-- The number that the value counts as: truth values are one and zero. -/
def count? : Value → Option Number
  | number n => some n
  | bool b => some (.int (if b then 1 else 0))
  | _ => none

/-- The binary number that the value is or writes. -/
def toReal : Value → Except Fault Binary64
  | number n => n.toReal?
  | bool b => .ok (if b then 1 else 0)
  | string s => Numeral.real s
  | v => .error (.type (.notReal v.typeName))

/-- The integer that the value is or writes; a fraction is cut off. -/
def toInt : Value → Except Fault Int
  | number n => n.toInt
  | bool b => .ok (if b then 1 else 0)
  | string s => Numeral.integer s
  | v => .error (.type (.notInteger v.typeName))

/-- The fields of an object; of any other value the `name` is asked in vain. -/
def fields (name : String) : Value → Except Fault (List (String × Value))
  | object fs => .ok fs
  | v => .error (.member v.typeName name)

/-- The items that a value yields one after another: those of a list, the characters of a text, the
keys of an object. -/
def items : Value → Except Fault (List Value)
  | list vs => .ok vs
  | string s => .ok (s.toList.map fun c => string (String.ofList [c]))
  | object fs => .ok (fs.map fun f => string f.1)
  | v => .error (.type (.notIterable v.typeName))

/-- How many items the value has. -/
def length : Value → Except Fault Nat
  | list vs => .ok vs.length
  | string s => .ok s.length
  | object fs => .ok fs.length
  | v => .error (.type (.noLength v.typeName))

/-- The value can be looked up in a table. -/
def isHashable : Value → Bool
  | list _ => false
  | object _ => false
  | _ => true

/-- A text, if there is one. -/
def ofString? : Option String → Value
  | none => null
  | some s => string s

/-- A number, if there is one. -/
def ofNumber? : Option Number → Value
  | none => null
  | some n => number n

/-- A list of texts. -/
def strings (ss : List String) : Value := list (ss.map string)

end Value

namespace Fields

/-- The value under a key. -/
def get? (fs : Fields) (key : String) : Option Value := fs.lookup key

/-- The value under a key, or null. -/
def get (fs : Fields) (key : String) : Value := (get? fs key).getD .null

/-- The key is there, whatever its value. -/
def has (fs : Fields) (key : String) : Bool := (get? fs key).isSome

/-- The value put under a key: in place of the one there, else at the end. -/
def set (fs : Fields) (key : String) (v : Value) : Fields :=
  match fs with
  | [] => [(key, v)]
  | (k, w) :: rest => if k = key then (k, v) :: rest else (k, w) :: set rest key v

/-- All fields of `gs` put into `fs`, one after another. -/
def merge (fs gs : Fields) : Fields := gs.foldl (fun acc f => set acc f.1 f.2) fs

/-- The fields under distinct keys: a later value replaces an earlier one in its place. -/
def ofList (fs : List (String × Value)) : Fields := merge [] fs

/-- The first of the keys under which a value is present, and that value. -/
def pick? (fs : Fields) (keys : List String) : Option (String × Value) :=
  keys.findSome? fun key => match get? fs key with
    | some v => if v.isPresent then some (key, v) else none
    | none => none

/-- The first present value under the keys. -/
def first? (fs : Fields) (keys : List String) : Option Value := (pick? fs keys).map (·.2)

end Fields

end Montage
