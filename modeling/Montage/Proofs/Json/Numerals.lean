import Mathlib.Data.List.Basic
import Mathlib.Data.List.Find
import Mathlib.Data.List.TakeWhile
import Montage.Json.Reader
import Montage.Json.Writer
import Montage.Proofs.Number.Spelling

/-!
# Numbers that JSON reads back

The reader of a number takes as much of the text as is one. What follows a number in a longer text
begins with no character of a written number, so each part of it, its digits, its fraction and its
exponent, ends in the same place as if nothing followed. It is then enough that a number is read
back from its own text, which holds for the integers that are not too long.

## Main definitions

* `Json.IsReadBack`: the numbers that are read back from their own text.
* `Json.EndsNumber`: the texts that may follow a number.

## Main statements

* `Json.plain_append`: a number is read alike in a longer text.
* `Json.isReadBack_int`: the integers that are read back.
-/
namespace Montage.Json

variable {c : Char} {rest cs : List Char}

/-! ## A number in a longer text -/

/-- What follows a number is not taken for a part of it. -/
def EndsNumber (rest : List Char) : Prop := ∀ c ∈ rest.head?, numeralChar c = false

theorem EndsNumber.ne (h : EndsNumber (c :: rest)) {d : Char} (hd : numeralChar d = true) :
    c ≠ d := by
  rintro rfl
  simp [h c rfl] at hd

theorem EndsNumber.not_isDigit (h : EndsNumber rest) : ∀ c ∈ rest.head?, c.isDigit = false := by
  intro c hc
  refine Bool.eq_false_iff.mpr fun hdigit => ?_
  simpa [numeralChar_of_isDigit hdigit] using h c hc

theorem run_append (h : EndsNumber rest) : run (cs ++ rest) = run cs := by
  induction cs with
  | nil =>
      cases rest with
      | nil => rfl
      | cons c rest => simp [run, h.not_isDigit c rfl]
  | cons c cs ih =>
      rw [run, run] at ih
      rw [run, run, List.cons_append, List.takeWhile_cons, List.takeWhile_cons, ih]

theorem length_run_le (cs : List Char) : (run cs).length ≤ cs.length :=
  (List.takeWhile_sublist _).length_le

theorem whole_cons : whole (c :: cs) = if c = '0' then ['0'] else run (c :: cs) := by
  by_cases hc : c = '0'
  · rw [if_pos hc, hc]
    rfl
  · rw [if_neg hc, whole]
    rintro _ ⟨rfl, -⟩
    exact hc rfl

theorem whole_append (h : EndsNumber rest) : whole (cs ++ rest) = whole cs := by
  cases cs with
  | nil =>
      have hrun : run ([] ++ rest) = run [] := run_append h
      cases rest with
      | nil => rfl
      | cons c rest =>
          rw [List.nil_append, whole_cons, if_neg (h.ne rfl)]
          exact hrun
  | cons c cs => rw [List.cons_append, whole_cons, whole_cons, ← List.cons_append, run_append h]

theorem length_whole_le (cs : List Char) : (whole cs).length ≤ cs.length := by
  unfold whole
  split
  · simp
  · exact length_run_le _

theorem fraction_cons : fraction (c :: cs) =
    if c = '.' then if (run cs).isEmpty then [] else '.' :: run cs else [] := by
  by_cases hc : c = '.'
  · rw [if_pos hc, hc]
    rfl
  · rw [if_neg hc, fraction]
    rintro _ ⟨rfl, -⟩
    exact hc rfl

theorem fraction_append (h : EndsNumber rest) : fraction (cs ++ rest) = fraction cs := by
  cases cs with
  | nil =>
      cases rest with
      | nil => rfl
      | cons c rest =>
          rw [List.nil_append, fraction_cons, if_neg (h.ne rfl)]
          rfl
  | cons c cs => rw [List.cons_append, fraction_cons, fraction_cons, run_append h]

theorem length_fraction_le (cs : List Char) : (fraction cs).length ≤ cs.length := by
  cases cs with
  | nil => exact Nat.le_refl 0
  | cons c cs =>
      rw [fraction_cons]
      split
      · split
        · exact Nat.zero_le _
        · exact Nat.succ_le_succ (length_run_le cs)
      · exact Nat.zero_le _

/-- The sign at the head of a text. -/
def mark : List Char → List Char
  | '+' :: _ => ['+']
  | '-' :: _ => ['-']
  | _ => []

theorem mark_cons : mark (c :: cs) =
    if c = '+' then ['+'] else if c = '-' then ['-'] else [] := by
  by_cases hplus : c = '+'
  · rw [if_pos hplus, hplus]
    rfl
  · by_cases hminus : c = '-'
    · rw [if_neg hplus, if_pos hminus, hminus]
      rfl
    · rw [if_neg hplus, if_neg hminus, mark]
      · rintro _ ⟨rfl, -⟩
        exact hplus rfl
      · rintro _ ⟨rfl, -⟩
        exact hminus rfl

theorem mark_append (h : EndsNumber rest) : mark (cs ++ rest) = mark cs := by
  cases cs with
  | nil =>
      cases rest with
      | nil => rfl
      | cons c rest =>
          rw [List.nil_append, mark_cons, if_neg (h.ne rfl), if_neg (h.ne rfl)]
          rfl
  | cons c cs => rw [List.cons_append, mark_cons, mark_cons]

theorem length_mark_le (cs : List Char) : (mark cs).length ≤ cs.length := by
  unfold mark
  split <;> simp

theorem exponent_cons : exponent (c :: cs) =
    if c = 'e' || c = 'E' then
      if (run (cs.drop (mark cs).length)).isEmpty then []
      else c :: mark cs ++ run (cs.drop (mark cs).length)
    else [] := rfl

theorem exponent_append (h : EndsNumber rest) : exponent (cs ++ rest) = exponent cs := by
  cases cs with
  | nil =>
      cases rest with
      | nil => rfl
      | cons c rest =>
          have hc : (c = 'e' || c = 'E') = false := by
            simp [h.ne (d := 'e') rfl, h.ne (d := 'E') rfl]
          rw [List.nil_append, exponent_cons, hc]
          rfl
  | cons e cs =>
      rw [List.cons_append, exponent_cons, exponent_cons, mark_append h,
        List.drop_append_of_le_length (length_mark_le cs), run_append h]

theorem length_exponent_le (cs : List Char) : (exponent cs).length ≤ cs.length := by
  cases cs with
  | nil => exact Nat.le_refl 0
  | cons c cs =>
      have hmark := length_mark_le cs
      have hrun := length_run_le (cs.drop (mark cs).length)
      rw [List.length_drop] at hrun
      rw [exponent_cons]
      split
      · split
        · exact Nat.zero_le _
        · rw [List.cons_append, List.length_cons, List.length_cons, List.length_append]
          omega
      · exact Nat.zero_le _

/-- **An unsigned number** is read alike whatever follows it. -/
theorem unsigned_append {negative : Bool} (h : EndsNumber rest) :
    unsigned negative (cs ++ rest) = unsigned negative cs := by
  have hfraction := length_fraction_le (cs.drop (whole cs).length)
  have hwhole := length_whole_le cs
  rw [List.length_drop] at hfraction
  simp only [unsigned, whole_append h]
  rw [List.drop_append_of_le_length hwhole, fraction_append h,
    List.drop_append_of_le_length (by omega), exponent_append h]

theorem le_length_of_unsigned {negative : Bool} {x : Except Fault Number} {size : Nat}
    (h : unsigned negative cs = some (x, size)) : size ≤ cs.length := by
  have hwhole := length_whole_le cs
  have hfraction := length_fraction_le (cs.drop (whole cs).length)
  have hexponent := length_exponent_le
    (cs.drop ((whole cs).length + (fraction (cs.drop (whole cs).length)).length))
  rw [List.length_drop] at hfraction hexponent
  have hsize : size = (whole cs).length + (fraction (cs.drop (whole cs).length)).length +
      (exponent (cs.drop ((whole cs).length +
        (fraction (cs.drop (whole cs).length)).length))).length := by
    simp only [unsigned] at h
    split at h
    · cases h
    · split at h
      · split at h <;> exact (Prod.mk.inj (Option.some.inj h)).2.symm
      · exact (Prod.mk.inj (Option.some.inj h)).2.symm
  omega

theorem isPrefixOf_append {name cs : List Char} (hname : ∀ c ∈ name, numeralChar c = true)
    (h : EndsNumber rest) : name.isPrefixOf (cs ++ rest) = name.isPrefixOf cs := by
  induction name generalizing cs with
  | nil => rfl
  | cons c name ih =>
      obtain ⟨hc, hname⟩ := List.forall_mem_cons.mp hname
      cases cs with
      | nil =>
          cases rest with
          | nil => rfl
          | cons d rest => simp [List.isPrefixOf, (h.ne hc).symm]
      | cons d cs => rw [List.cons_append, List.isPrefixOf, List.isPrefixOf, ih hname]

/-- Whether a minus sign is at the head of a text, and what follows. -/
def signed : List Char → Bool × List Char
  | '-' :: cs => (true, cs)
  | cs => (false, cs)

theorem signed_cons_of_ne (h : c ≠ '-') : signed (c :: cs) = (false, c :: cs) := by
  rw [signed]
  rintro _ ⟨rfl, -⟩
  exact h rfl

theorem signed_append (hne : cs ≠ []) :
    signed (cs ++ rest) = ((signed cs).1, (signed cs).2 ++ rest) := by
  obtain ⟨c, cs, rfl⟩ := List.exists_cons_of_ne_nil hne
  by_cases hc : c = '-'
  · rw [hc]
    rfl
  · rw [List.cons_append, signed_cons_of_ne hc, signed_cons_of_ne hc]
    rfl

theorem plain_eq (cs : List Char) : plain cs =
    match names.find? fun n => n.1.toList.isPrefixOf cs with
    | some (name, v) => .ok (v, cs.drop name.length)
    | none => match unsigned (signed cs).1 (signed cs).2 with
      | some (.ok n, size) => .ok (.number n, (signed cs).2.drop size)
      | some (.error f, _) => .error (.number f)
      | none => .error (.unexpected "Expecting value" cs) := rfl

/-- **A number** that is all of a text is read alike before a text that ends it. -/
theorem plain_append {n : Number} (h : plain cs = .ok (.number n, [])) (hrest : EndsNumber rest) :
    plain (cs ++ rest) = .ok (.number n, rest) := by
  have hne : cs ≠ [] := by
    rintro rfl
    cases h
  have hnames : ∀ name ∈ names, IsNumeral name.1 := by decide
  have hfind : (names.find? fun n => n.1.toList.isPrefixOf (cs ++ rest)) =
      names.find? fun n => n.1.toList.isPrefixOf cs :=
    List.find?_congr fun name hname => isPrefixOf_append (hnames name hname) hrest
  rw [plain_eq] at h ⊢
  rw [hfind]
  split at h
  · next name v hname =>
    obtain ⟨rfl, hdrop⟩ := Prod.mk.inj (Except.ok.inj h)
    have hfound : name.toList.isPrefixOf cs = true := by simpa using List.find?_some hname
    have hle := (List.isPrefixOf_iff_prefix.mp hfound).length_le
    rw [String.length_toList] at hle
    rw [List.drop_append_of_le_length hle, hdrop]
    rfl
  · rw [signed_append hne, unsigned_append hrest]
    split at h
    · next m size hunsigned =>
      obtain ⟨hm, hdrop⟩ := Prod.mk.inj (Except.ok.inj h)
      rw [hunsigned]
      dsimp only
      rw [List.drop_append_of_le_length (le_length_of_unsigned hunsigned), hdrop, hm]
      rfl
    · cases h
    · cases h

/-! ## Numbers that are read back -/

/-- The number is read back from its text. -/
def IsReadBack (n : Number) : Prop := plain (numberText n).toList = .ok (.number n, [])

/-- No name begins with a digit, be it after a minus sign. -/
theorem isPrefixOf_name {name : String × Value} (hname : name ∈ names)
    (h : (signed cs).2.head?.any Char.isDigit = true) : name.1.toList.isPrefixOf cs = false := by
  have hnames : ∀ name ∈ names, name.1.toList ≠ [] ∧
      (signed name.1.toList).2.head?.any (fun c => !c.isDigit) = true := by decide
  obtain ⟨hne, hletter⟩ := hnames name hname
  refine Bool.eq_false_iff.mpr fun hprefix => ?_
  obtain ⟨rest, rfl⟩ := List.isPrefixOf_iff_prefix.mp hprefix
  rw [signed_append hne] at h
  cases hcs : (signed name.1.toList).2 with
  | nil => simp [hcs] at hletter
  | cons c cs =>
      have hdigit : c.isDigit = true := by simpa [hcs] using h
      simp [hcs, hdigit] at hletter

/-- A text that begins with a digit after its sign is read as the number that it writes. -/
theorem isReadBack_of_unsigned {n : Number} (cs : List Char) (htext : (numberText n).toList = cs)
    (hhead : (signed cs).2.head?.any Char.isDigit = true)
    (h : unsigned (signed cs).1 (signed cs).2 = some (.ok n, (signed cs).2.length)) :
    IsReadBack n := by
  have hfind : (names.find? fun n => n.1.toList.isPrefixOf cs) = none :=
    List.find?_eq_none.mpr fun name hname => by simp [isPrefixOf_name hname hhead]
  rw [IsReadBack, htext, plain_eq, hfind, h]
  simp

theorem head?_toDigits {m : Nat} (h : 0 < m) : (Nat.toDigits 10 m).head? ≠ some '0' := by
  induction m using Nat.strong_induction_on with
  | _ m ih =>
      rw [Nat.toDigits_eq_if (by decide)]
      split_ifs with hm
      · have hdigit : ∀ k < 10, 0 < k → Nat.digitChar k ≠ '0' := by decide
        exact fun hhead => hdigit m hm h (Option.some.inj hhead)
      · rw [List.head?_append_of_ne_nil _ Nat.toDigits_ne_nil]
        exact ih (m / 10) (by omega) (by omega)

theorem ofDigits_toDigits (m : Nat) : Numeral.ofDigits (digits (Nat.toDigits 10 m)) = m := by
  have hdigit : ∀ k < 10, (Nat.digitChar k).toNat - 0x30 = k := by decide
  induction m using Nat.strong_induction_on with
  | _ m ih =>
      rw [Nat.toDigits_eq_if (by decide)]
      split_ifs with hm
      · simp [digits, Numeral.ofDigits, hdigit m hm]
      · have hlast := hdigit (m % 10) (Nat.mod_lt m (by decide))
        have hfirst := ih (m / 10) (by omega)
        rw [Numeral.ofDigits, digits] at hfirst
        rw [Numeral.ofDigits, digits, List.map_append, List.foldl_append, hfirst]
        simp only [List.map_cons, List.map_nil, List.foldl_cons, List.foldl_nil, hlast]
        omega

theorem whole_toDigits (m : Nat) : whole (Nat.toDigits 10 m) = Nat.toDigits 10 m := by
  obtain rfl | hm := Nat.eq_zero_or_pos m
  · rfl
  · obtain ⟨c, cs, hcs⟩ := List.exists_cons_of_ne_nil (Nat.toDigits_ne_nil (n := m) (b := 10))
    have hhead := head?_toDigits hm
    have hall : ∀ d ∈ Nat.toDigits 10 m, d.isDigit = true := fun d hd =>
      Nat.isDigit_of_mem_toDigits (by decide) (by decide) hd
    rw [hcs] at hhead hall ⊢
    rw [whole_cons, if_neg fun hc => hhead (congrArg some hc), run, List.takeWhile_eq_self_iff]
    exact hall

theorem unsigned_toDigits (negative : Bool) {m : Nat}
    (h : (Nat.toDigits 10 m).length ≤ Numeral.maxDigits) :
    unsigned negative (Nat.toDigits 10 m) =
      some (.ok (.int (if negative then -(m : Int) else m)), (Nat.toDigits 10 m).length) := by
  have hne : (Nat.toDigits 10 m).isEmpty = false := by simp [Nat.toDigits_ne_nil]
  have hfraction : fraction [] = [] := rfl
  have hexponent : exponent [] = [] := rfl
  simp [unsigned, whole_toDigits, hne, ofDigits_toDigits, hfraction, hexponent, h.not_gt]

/-- **An integer** whose digits may be read is read back. -/
theorem isReadBack_int {n : Int} (h : (Nat.toDigits 10 n.natAbs).length ≤ Numeral.maxDigits) :
    IsReadBack (.int n) := by
  obtain ⟨c, cs, hcs⟩ := List.exists_cons_of_ne_nil (Nat.toDigits_ne_nil (n := n.natAbs) (b := 10))
  have hc : c.isDigit = true :=
    Nat.isDigit_of_mem_toDigits (by decide) (by decide) (hcs ▸ List.mem_cons_self)
  have hunsigned (negative : Bool) := unsigned_toDigits negative h
  rw [hcs] at hunsigned
  have htext : numberText (.int n) = intText n := rfl
  by_cases hn : n < 0
  · have hread := hunsigned true
    rw [if_pos rfl, show -(n.natAbs : Int) = n by omega] at hread
    refine isReadBack_of_unsigned ('-' :: c :: cs) ?_ hc hread
    rw [htext, intText, if_pos hn, digitText, hcs]
    simp
  · have hread := hunsigned false
    have hsigned : signed (c :: cs) = (false, c :: cs) := signed_cons_of_ne fun hminus => by
      rw [hminus] at hc
      cases hc
    rw [if_neg Bool.false_ne_true, show (n.natAbs : Int) = n by omega] at hread
    refine isReadBack_of_unsigned (c :: cs) ?_ ?_ ?_
    · rw [htext, intText, if_neg hn, digitText, hcs, String.toList_ofList]
    · rw [hsigned]
      exact hc
    · rw [hsigned]
      exact hread

theorem isReadBack_half : IsReadBack (.real (.nearest (1 / 2))) :=
  isReadBack_of_unsigned "0.5".toList (by decide +kernel) (by decide) (by decide +kernel)

end Montage.Json
