import Montage.Number.Numeral
import Montage.Text.Digit

/-!
# Command lines

A command line is a list of words. Some are switches, which may take a value from the same word or
from the next one; the others are operands. After two dashes alone every word is an operand. A long
switch may be cut short as long as no other one starts alike, and short ones without a value may
share a dash.

## Main definitions

* `Montage.CommandLine.Grammar`: the switches and operands of a command.
* `Grammar.words`: the words of a command line with the parts that they play.
* `Grammar.read`: what a command line gives, or why it is not read.
-/

namespace Montage.CommandLine

/-- Why a command line is not acted on. -/
inductive Stop
  /-- It asks for help. -/
  | help
  /-- It is malformed. -/
  | misuse
  deriving DecidableEq, Inhabited

/-- What goes with a switch. -/
inductive Payload
  | nothing
  | text
  | real
  | oneOf (choices : List String)
  deriving DecidableEq, Inhabited

/-- A switch: its spellings, of which the last one names it, and what goes with it. -/
structure Switch where
  spellings : List String
  payload : Payload
  required : Bool
  deriving DecidableEq, Inhabited

namespace Switch

/-- The name of the switch. -/
def name (s : Switch) : String := s.spellings.getLast?.getD ""

/-- The switch takes a value. -/
def takesValue (s : Switch) : Bool := s.payload ≠ .nothing

/-- The value serves for the switch. -/
def accepts (s : Switch) (value : String) : Bool :=
  match s.payload with
  | .nothing | .text => true
  | .real => (Numeral.real? value).isSome
  | .oneOf choices => choices.contains value

end Switch

/-- The operands of a command. -/
inductive Operands
  | none
  | one
  /-- One or more. -/
  | many
  /-- One, and with it all words that follow. -/
  | remainder
  deriving DecidableEq, Inhabited

/-- The switches and operands of a command. -/
structure Grammar where
  switches : List Switch
  operands : Operands
  deriving Inhabited

/-- The switch that asks for help, which every command has. -/
def helpSwitch : Switch := ⟨["-h", "--help"], .nothing, false⟩

/-- A switch as it stands in a word. -/
structure Use where
  switch : Switch
  /-- The switch stands alone behind one dash. -/
  short : Bool
  /-- What follows in the same word, and whether it follows an equals sign. -/
  attached : Option (Bool × List Char)
  deriving Inhabited

/-- The part that a word plays. -/
inductive Role
  | operand
  /-- Two dashes alone. -/
  | separator
  | switch (use : Use)
  /-- It looks like a switch and is none. -/
  | unknown
  deriving Inhabited

/-- A word with the part that it plays. -/
structure Word where
  text : String
  role : Role
  deriving Inhabited

namespace Word

/-- The word is an operand. -/
def isOperand (w : Word) : Bool :=
  match w.role with
  | .operand => true
  | _ => false

/-- The word ends the switches. -/
def isSeparator (w : Word) : Bool :=
  match w.role with
  | .separator => true
  | _ => false

end Word

/-- The text before the first equals sign and the one after it. -/
def cutAtEquals : List Char → Option (List Char × List Char)
  | [] => none
  | c :: cs =>
    if c = '=' then some ([], cs) else (cutAtEquals cs).map fun r => (c :: r.1, r.2)

/-- Cutting at an equals sign loses nothing but the sign. -/
theorem append_of_cutAtEquals {cs before after : List Char}
    (h : cutAtEquals cs = some (before, after)) : cs = before ++ '=' :: after := by
  induction cs generalizing before with
  | nil => simp [cutAtEquals] at h
  | cons c cs ih =>
    unfold cutAtEquals at h
    split at h
    · simp_all
    · obtain ⟨r, hr, he⟩ := Option.map_eq_some_iff.1 h
      obtain ⟨rfl, rfl⟩ := Prod.mk.inj he
      simp [ih hr]

/-- Nothing is left, or a last line break. -/
def isLineEnd (cs : List Char) : Bool := cs.isEmpty || cs = ['\n']

/-- The text of a negative number, without its sign. Such a word is an operand. -/
def isMagnitude (cs : List Char) : Bool :=
  let isDecimal (c : Char) : Bool := (Text.digitValue? c).isSome
  let after := cs.dropWhile isDecimal
  match after with
  | '.' :: more =>
    (more.head?.map isDecimal).getD false && isLineEnd (more.dropWhile isDecimal)
  | _ => (cs.head?.map isDecimal).getD false && isLineEnd after

namespace Grammar

/-- The switch with exactly this spelling. -/
def switch? (g : Grammar) (spelling : List Char) : Option Switch :=
  g.switches.find? fun s => s.spellings.any fun t => t.toList = spelling

/-- The spellings of all switches. -/
def spellings (g : Grammar) : List (Switch × List Char) :=
  g.switches.flatMap fun s => s.spellings.map fun t => (s, t.toList)

/-- The use of a switch that a word spells out, alone or before an equals sign. -/
def exactUse? (g : Grammar) (short : Bool) (cs : List Char) : Option Use :=
  match g.switch? cs, cutAtEquals cs with
  | some s, _ => some ⟨s, short, none⟩
  | none, some (before, after) => (g.switch? before).map fun s => ⟨s, short, some (true, after)⟩
  | none, none => none

/-- The uses of long switches that a word can be short for. -/
def longUses (g : Grammar) (cs : List Char) : List Use :=
  let (start, attached) := match cutAtEquals cs with
    | some (before, after) => (before, some (true, after))
    | none => (cs, none)
  (g.spellings.filter fun s => start.isPrefixOf s.2).map fun s => ⟨s.1, false, attached⟩

/-- The uses of switches that a word with one dash can stand for. -/
def shortUses (g : Grammar) (cs : List Char) : List Use :=
  g.spellings.filterMap fun s =>
    if s.2 = cs.take 2 then some ⟨s.1, true, some (false, cs.drop 2)⟩
    else if cs.isPrefixOf s.2 then some ⟨s.1, true, none⟩
    else none

/-- The part that a word plays before the switches end. -/
def role (g : Grammar) (text : String) : Except Stop Role :=
  match text.toList with
  | '-' :: c :: cs =>
    let short := c ≠ '-'
    match g.exactUse? short ('-' :: c :: cs) with
    | some use => .ok (.switch use)
    | none =>
      match if short then g.shortUses ('-' :: c :: cs) else g.longUses ('-' :: c :: cs) with
      | [use] => .ok (.switch use)
      | _ :: _ :: _ => .error .misuse
      | [] =>
        if isMagnitude (c :: cs) || cs.contains ' ' then .ok .operand else .ok .unknown
  | _ => .ok .operand

/-- The words of a command line with the parts that they play. -/
def words (g : Grammar) : List String → Except Stop (List Word)
  | [] => .ok []
  | text :: rest =>
    if text = "--" then .ok (⟨text, .separator⟩ :: rest.map fun t => ⟨t, .operand⟩)
    else do
      let role ← g.role text
      return ⟨text, role⟩ :: (← g.words rest)

end Grammar

/-- What a command line gives. -/
structure Given where
  /-- The switches by their names, with their values, the last one first. -/
  values : List (String × String)
  operands : List String
  /-- The words that have no place. -/
  strays : List String
  deriving DecidableEq, Inhabited

namespace Given

/-- Nothing is given. -/
def empty : Given := ⟨[], [], []⟩

/-- The value of a switch, if it is given. -/
def value? (g : Given) (name : String) : Option String := g.values.lookup name

/-- Take a switch with its value into account. -/
def add (g : Given) (s : Switch) (value : String) : Except Stop Given :=
  if s = helpSwitch then .error .help
  else if s.accepts value then .ok { g with values := (s.name, value) :: g.values }
  else .error .misuse

/-- Take several switches into account. -/
def addAll (g : Given) : List (Switch × String) → Except Stop Given
  | [] => .ok g
  | (s, value) :: rest => do (← g.add s value).addAll rest

/-- One more word without a place. -/
def stray (g : Given) (text : String) : Given := { g with strays := g.strays ++ [text] }

end Given

/-- The switches in one word: those that are complete, one that waits for its value, and letters
that name no switch. -/
structure Cluster where
  complete : List (Switch × String)
  waiting : Option Switch
  stray : Option String
  deriving Inhabited

/-- The cluster with one more switch in front. -/
def Cluster.after (s : Switch) (c : Cluster) : Cluster :=
  { c with complete := (s, "") :: c.complete }

namespace Grammar

/-- The switches in a word with one dash, of which the first is followed at once by the letters. -/
def cluster (g : Grammar) (s : Switch) : List Char → Except Stop Cluster
  | [] => if s.takesValue then .ok ⟨[], some s, none⟩ else .ok ⟨[(s, "")], none, none⟩
  | c :: cs =>
    if s.takesValue then .ok ⟨[(s, String.ofList (c :: cs))], none, none⟩
    else if c = '-' then .error .misuse
    else
      match g.switch? ['-', c], cs with
      | none, _ => .ok ⟨[(s, "")], none, some (String.ofList ('-' :: c :: cs))⟩
      | some t, '=' :: value =>
        if t.takesValue then .ok ⟨[(s, ""), (t, String.ofList value)], none, none⟩
        else .error .misuse
      | some t, cs => (g.cluster t cs).map (Cluster.after s)

/-- The switches in a word. -/
def clusterOf (g : Grammar) (use : Use) : Except Stop Cluster :=
  match use.attached with
  | none => g.cluster use.switch []
  | some (true, value) =>
    if use.switch.takesValue then .ok ⟨[(use.switch, String.ofList value)], none, none⟩
    else .error .misuse
  | some (false, letters) => g.cluster use.switch letters

/-- Take the switches of a word into account, with a value from the words that follow if one is
needed. -/
def apply (g : Grammar) (given : Given) (use : Use) (rest : List Word) :
    Except Stop (Given × Bool) := do
  let c ← g.clusterOf use
  let (uses, taken) ← match c.waiting, rest with
    | none, _ => pure (c.complete, false)
    | some s, w :: _ =>
      if w.isOperand then pure (c.complete ++ [(s, w.text)], true) else .error .misuse
    | some _, [] => .error .misuse
  let given ← given.addAll uses
  return (match c.stray with
    | some text => given.stray text
    | none => given, taken)

end Grammar

/-- The operands at the start of some words and the words behind them. The separator is no operand,
unless all that follows is taken as it is. -/
def Operands.take (o : Operands) (ws : List Word) : Option (List Word × List Word) :=
  match o, ws.dropWhile Word.isSeparator with
  | .none, _ | _, [] => Option.none
  | .one, w :: rest =>
    if w.isOperand then some ([w], rest.dropWhile Word.isSeparator) else Option.none
  | .many, w :: rest =>
    let mine (w : Word) : Bool := w.isOperand || w.isSeparator
    if w.isOperand then
      some (w :: (rest.takeWhile mine).filter Word.isOperand, rest.dropWhile mine)
    else Option.none
  | .remainder, w :: _ => if w.isOperand then some (ws, []) else Option.none

/-- Dropping words leaves no more of them. -/
theorem length_dropWhile_le (f : Word → Bool) (ws : List Word) :
    (ws.dropWhile f).length ≤ ws.length := (List.dropWhile_sublist f).length_le

/-- Taking operands leaves fewer words. -/
theorem Operands.length_of_take {o : Operands} {ws taken rest : List Word}
    (h : o.take ws = some (taken, rest)) : rest.length < ws.length := by
  have bound := length_dropWhile_le Word.isSeparator ws
  unfold Operands.take at h
  split at h
  · simp at h
  · simp at h
  · rename_i w tail hw
    split at h
    · simp only [Option.some.injEq, Prod.mk.injEq] at h
      have := length_dropWhile_le Word.isSeparator tail
      rw [hw] at bound
      simp only [List.length_cons] at bound
      rw [← h.2]
      omega
    · simp at h
  · rename_i w tail hw
    dsimp only at h
    split at h
    · simp only [Option.some.injEq, Prod.mk.injEq] at h
      have := length_dropWhile_le (fun w => w.isOperand || w.isSeparator) tail
      rw [hw] at bound
      simp only [List.length_cons] at bound
      rw [← h.2]
      omega
    · simp at h
  · rename_i w tail hw
    split at h
    · simp only [Option.some.injEq, Prod.mk.injEq] at h
      rw [hw] at bound
      simp only [List.length_cons] at bound
      rw [← h.2]
      simp only [List.length_nil]
      omega
    · simp at h

namespace Grammar

/-- Read words with the operands `o` still to come. -/
def readWords (g : Grammar) (o : Operands) (given : Given) (ws : List Word) :
    Except Stop (Operands × Given) :=
  match ws with
  | [] => .ok (o, given)
  | w :: rest =>
    match w.role with
    | .unknown => g.readWords o (given.stray w.text) rest
    | .switch use => do
      let (given, taken) ← g.apply given use rest
      if taken then g.readWords o given rest.tail else g.readWords o given rest
    | _ =>
      match taking : o.take (w :: rest) with
      | some (operands, behind) =>
        have : behind.length < rest.length + 1 := Operands.length_of_take taking
        g.readWords .none { given with operands := operands.map Word.text } behind
      | none => g.readWords o (given.stray w.text) rest
termination_by ws.length

/-- The required switches are given. -/
def isComplete (g : Grammar) (given : Given) : Bool :=
  g.switches.all fun s => !s.required || (given.value? s.name).isSome

/-- What a command line gives, with all that is required. -/
def read (g : Grammar) (args : List String) : Except Stop Given := do
  let g := { g with switches := helpSwitch :: g.switches }
  let (missing, given) ← g.readWords g.operands .empty (← g.words args)
  if missing = .one || missing = .many || !g.isComplete given then .error .misuse else .ok given

end Grammar

end Montage.CommandLine
