import Montage.Value

/-!
# Time windows

An edit can be limited to a window of time: from a start on, up to an end if there is one.

## Main definitions

* `Montage.Window`: the windows.
* `Window.of`: a window with checked bounds.
* `Window.ofFields`: the window that the fields of a request ask for.
-/

namespace Montage

/-- The times from `start` on and before `finish`. -/
structure Window where
  start : Number
  finish : Option Number
  deriving DecidableEq, Inhabited

namespace Window

/-- The window with these bounds. It starts at zero or later and is not empty. -/
def of (start : Number) (finish : Option Number) : Except Fault Window :=
  if start < 0 then .error (.value (.windowStart start.text))
  else match finish with
    | none => .ok ⟨start, none⟩
    | some e =>
      if e ≤ start then .error (.value (.windowOrder start.text e.text)) else .ok ⟨start, some e⟩

/-- The window ends. -/
def isBounded (w : Window) : Bool := w.finish.isSome

/-- The time under a key, if it is there and not null. -/
def time? (fs : Fields) (key : String) : Except Fault (Option Binary64) :=
  match fs.get key with
  | .null => .ok none
  | v => v.toReal.map some

/-- The window with these bounds, if one of them is given. Without a start it starts at zero, the
positive one. -/
def between (start finish : Option Binary64) : Except Fault (Option Window) :=
  match start, finish with
  | none, none => .ok none
  | _, _ =>
    let from_ := match start with
      | some x => if x.isZero then .finite 0 else x
      | none => .finite 0
    (of (.real from_) (finish.map .real)).map some

/-- The window from `startTime` to `endTime`, if one of them is given. -/
def ofFields (fs : Fields) : Except Fault (Option Window) := do
  let start ← time? fs "startTime"
  between start (← time? fs "endTime")

end Window

end Montage
