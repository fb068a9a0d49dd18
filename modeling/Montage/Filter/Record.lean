import Montage.Filter.Expression

/-!
# Filters from fields

Filter values, stages, gates and expressions read from named fields. In a value an expression of the
renderer is told apart from plain text: it is an object with the one field `expr`.

## Main definitions

* `OptionValue.ofValue`, `OptionValue.toValue`: filter values.
* `Stage.ofFields`, `Gate.ofFields`, `Expression.ofFields`: what they make up.
-/

namespace Montage

namespace OptionValue

/-- The filter value that a value describes. -/
def ofValue : Value → OptionValue
  | .object [("expr", .string t)] => expression t
  | v => literal v

/-- A filter value as a value. -/
def toValue : OptionValue → Value
  | expression t => .object [("expr", .string t)]
  | literal v => v

/-- Reading a filter value that was written yields it again. -/
theorem ofValue_toValue_expression (t : String) : ofValue (toValue (expression t)) = expression t :=
  rfl

end OptionValue

/-- The list under a key, empty where there is none. -/
def Fields.listed (fs : Fields) (key : String) : List Value :=
  match fs.get key with
  | .list vs => vs
  | _ => []

/-- The gate in some fields, which has to be writable. Without a start it opens at zero. -/
def Gate.ofFields (fs : Fields) : Except Fault Gate :=
  Gate.checked ⟨((fs.get "start").count?).getD (.real 0), (fs.get "end").count?⟩

/-- The gate that a value describes, if it is an object. -/
def Gate.ofValue? : Value → Except Fault (Option Gate)
  | .object fs => (Gate.ofFields fs).map some
  | _ => .ok none

/-- The stage that a value describes. Options that are not given are left out. -/
def Stage.ofValue (v : Value) : Stage :=
  let fs : Fields := match v with
    | .object fields => fields
    | _ => []
  let options := match fs.get "options" with
    | .object os => os.map fun o => (o.1, OptionValue.ofValue o.2)
    | _ => []
  Stage.compact ⟨((fs.get "name").string?).getD "", (fs.listed "args").map OptionValue.ofValue,
    options, none⟩

/-- The expression in some fields. -/
def Expression.ofFields (fs : Fields) : Except Fault Expression := do
  return {
    video := (fs.listed "video").map Stage.ofValue
    audio := (fs.listed "audio").map Stage.ofValue
    gate := ← Gate.ofValue? (fs.get "gate")
    warnings := (fs.listed "warnings").map Value.text
    scratch := [] }

end Montage
