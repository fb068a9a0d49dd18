import Montage.Proofs.Json.Numerals
import Montage.Proofs.Json.Writing
import Montage.Proofs.Outcome
import Montage.Proofs.Value

/-!
# JSON that is read back

A written value is read with whatever follows it left over, so that the parts of a container are
read one after the other. The proof follows the value: a string is read back character by
character, a number as a whole, and the parts of a list or an object up to its closing bracket. The
blanks of a layout are skipped, so that a value may be written over several lines or on one.

## Main definitions

* `Json.Keeps`: the values whose numbers are read back and whose objects have each name once.
* `Json.Layout.IsLoose`: the layouts of blanks and commas.
* `Json.Reads`: the value is read back from the head of a text.
* `Json.ReadsPart`: the same of an item or a field, up to what ends it.

## Main statements

* `Json.stringFor_flatMap`: a string is read back.
* `Json.read_parts`: the parts of a container are read back.
* `Json.parse_write`: a value that is kept is read back in every loose layout.
* `Json.parse_pages`, `Json.parse_line`: so it is over several lines and on one.
-/
namespace Montage.Json

variable {c r : Char} {rest opening : List Char} {fuel n : Nat}

/-! ## Texts -/

theorem hexDigits_succ {width : Nat} (h : 0 < width) :
    Text.hexDigits (width + 1) n =
      Text.hexDigits width (n / 0x10) ++ [Nat.digitChar (n % 0x10)] := by
  rw [Text.hexDigits, Nat.toDigits_eq_if (by decide)]
  split
  · next hn =>
    have hsmall : Nat.toDigits 16 (n / 16) = ['0'] := by rw [Nat.div_eq_of_lt hn]; rfl
    obtain ⟨width, rfl⟩ := Nat.exists_eq_succ_of_ne_zero h.ne'
    simp [Text.hexDigits, hsmall, Nat.mod_eq_of_lt hn, List.replicate_succ']
  · simp [Text.hexDigits]

theorem hexDigits_four (h : n < 0x10000) : Text.hexDigits 4 n =
    [Nat.digitChar (n / 0x1000), Nat.digitChar (n / 0x100 % 0x10), Nat.digitChar (n / 0x10 % 0x10),
      Nat.digitChar (n % 0x10)] := by
  have hone : Text.hexDigits 1 (n / 0x10 / 0x10 / 0x10) = [Nat.digitChar (n / 0x1000)] := by
    rw [Text.hexDigits, Nat.div_div_eq_div_mul, Nat.div_div_eq_div_mul,
      Nat.toDigits_of_lt_base (by omega)]
    rfl
  rw [hexDigits_succ (by decide), hexDigits_succ (by decide), hexDigits_succ (by decide), hone,
    Nat.div_div_eq_div_mul]
  rfl

theorem hexValue?_digitChar : ∀ k < 0x10, hexValue? (Nat.digitChar k) = some k := by decide

/-- **Four digits** are read as the number that they were written for. -/
theorem hex4?_hexDigits (h : n < 0x10000) :
    hex4? (Text.hexDigits 4 n ++ r :: rest) = some (n, r :: rest) := by
  have hvalue : 0x1000 * (n / 0x1000) + 0x100 * (n / 0x100 % 0x10) + 0x10 * (n / 0x10 % 0x10) +
      n % 0x10 = n := by omega
  rw [hexDigits_four h]
  simp only [List.cons_append, List.nil_append, hex4?]
  rw [hexValue?_digitChar _ (by omega), hexValue?_digitChar _ (by omega),
    hexValue?_digitChar _ (by omega), hexValue?_digitChar _ (by omega)]
  simp only [Option.bind_eq_bind, Option.bind_some, hvalue]

theorem toNat_valid (c : Char) : c.toNat < 0xD800 ∨ 0xDFFF < c.toNat ∧ c.toNat < 0x110000 := c.valid

/-- **A code of sixteen bits** is read as the character that it was written for. -/
theorem codeChar?_hexDigits (h : c.toNat < 0x10000) :
    codeChar? (Text.hexDigits 4 c.toNat ++ r :: rest) = some (c, r :: rest) := by
  have hvalid := toNat_valid c
  have hlead : isLead c.toNat = false := by
    simp only [isLead, Bool.and_eq_false_iff, decide_eq_false_iff_not]
    omega
  rw [codeChar?, hex4?_hexDigits h]
  simp only [Option.bind_eq_bind, Option.bind_some, hlead]
  rw [charOf, if_neg (by omega), Char.ofNat_toNat]

/-- **A pair of codes** is read as the character that it was written for. -/
theorem codeChar?_pair {lead trail : Nat} (hlead : isLead lead = true)
    (htrail : isTrail trail = true)
    (hcode : 0x10000 + 0x400 * (lead - 0xD800) + (trail - 0xDC00) = c.toNat) :
    codeChar? (Text.hexDigits 4 lead ++ '\\' :: 'u' :: (Text.hexDigits 4 trail ++ r :: rest)) =
      some (c, r :: rest) := by
  have hleads : lead < 0x10000 := by
    simp only [isLead, Bool.and_eq_true, decide_eq_true_eq] at hlead
    omega
  have htrails : trail < 0x10000 := by
    simp only [isTrail, Bool.and_eq_true, decide_eq_true_eq] at htrail
    omega
  rw [codeChar?, hex4?_hexDigits hleads]
  simp only [Option.bind_eq_bind, Option.bind_some, hlead]
  rw [hex4?_hexDigits htrails]
  simp only [htrail, if_true, hcode, Char.ofNat_toNat]

theorem stringFor_escape16 (code : List Char) : stringFor opening (fuel + 1) ('\\' :: 'u' :: code) =
    match codeChar? code with
    | none => .error (.unexpected "Invalid \\uXXXX escape" ('u' :: code))
    | some (d, rest) => (stringFor opening fuel rest).map fun (ds, r) => (d :: ds, r) := by
  rw [stringFor]
  rfl

/-- **One character** of a string is read as it was written. -/
theorem stringFor_stringChar : stringFor opening (fuel + 1) (stringChar c ++ r :: rest) =
    (stringFor opening fuel (r :: rest)).map fun (ds, more) => (c :: ds, more) := by
  unfold stringChar
  iterate 7
    split
    · next hc =>
      rw [hc]
      rfl
  split
  · next h₁ h₂ _ _ _ _ _ hprintable =>
    rw [List.singleton_append, stringFor.eq_def]
    dsimp only
    rw [if_neg h₁, if_neg h₂, if_neg (by omega)]
  · split
    · next hsmall =>
      rw [escape16, List.cons_append, List.cons_append, stringFor_escape16,
        codeChar?_hexDigits hsmall]
    · next hlarge =>
      have hvalid := toNat_valid c
      rw [escape16, List.cons_append, List.cons_append, List.cons_append, List.cons_append,
        stringFor_escape16, escape16, List.append_assoc, List.cons_append, List.cons_append,
        codeChar?_pair]
      · simp only [isLead, Bool.and_eq_true, decide_eq_true_eq]
        omega
      · simp only [isTrail, Bool.and_eq_true, decide_eq_true_eq]
        omega
      · omega

theorem length_stringChar_pos : 0 < (stringChar c).length := by
  unfold stringChar
  iterate 9
    split
    · exact Nat.zero_lt_succ _
  exact Nat.zero_lt_succ _

/-- **A string** is read as it was written. -/
theorem stringFor_flatMap {cs : List Char} (h : cs.length < fuel) :
    stringFor opening fuel (cs.flatMap stringChar ++ '\x22' :: rest) = .ok (cs, rest) := by
  induction cs generalizing fuel with
  | nil =>
      obtain ⟨fuel, rfl⟩ := Nat.exists_eq_succ_of_ne_zero h.ne'
      rfl
  | cons c cs ih =>
      obtain ⟨fuel, rfl⟩ := Nat.exists_eq_succ_of_ne_zero (Nat.ne_zero_of_lt h)
      obtain ⟨r, more, hmore⟩ : ∃ r more, cs.flatMap stringChar ++ '\x22' :: rest = r :: more :=
        List.exists_cons_of_ne_nil (by simp)
      have hrest := ih (Nat.lt_of_succ_lt_succ h)
      rw [hmore] at hrest
      rw [List.flatMap_cons, List.append_assoc, hmore, stringFor_stringChar, hrest]
      rfl

theorem stringAt_flatMap {s : String} (h : s.toList.length < fuel) :
    stringAt opening fuel (s.toList.flatMap stringChar ++ '\x22' :: rest) = .ok (s, rest) := by
  rw [stringAt, stringFor_flatMap h]
  exact congrArg (fun t => Except.ok (t, rest)) String.ofList_toList

theorem length_le_length_flatMap (cs : List Char) : cs.length ≤ (cs.flatMap stringChar).length := by
  induction cs with
  | nil => exact Nat.le_refl 0
  | cons c cs ih =>
      have hpos := length_stringChar_pos (c := c)
      rw [List.flatMap_cons, List.length_append, List.length_cons]
      omega

/-! ## Values -/

/-- A value that JSON keeps: its numbers are read back, and the fields of each object in it have
different names. -/
inductive Keeps : Value → Prop
  | null : Keeps .null
  | bool (b : Bool) : Keeps (.bool b)
  | number {n : Number} (reads : IsReadBack n) : Keeps (.number n)
  | string (s : String) : Keeps (.string s)
  | list {items : List Value} (keeps : ∀ v ∈ items, Keeps v) : Keeps (.list items)
  | object {fields : Fields} (names : (fields.map Prod.fst).Nodup)
      (keeps : ∀ f ∈ fields, Keeps f.2) : Keeps (.object fields)

@[simp] theorem keeps_number_iff {n : Number} : Keeps (.number n) ↔ IsReadBack n :=
  ⟨fun h => by cases h; assumption, .number⟩

@[simp] theorem keeps_list_iff {items : List Value} :
    Keeps (.list items) ↔ ∀ v ∈ items, Keeps v :=
  ⟨fun h => by cases h; assumption, .list⟩

@[simp] theorem keeps_object_iff {fields : Fields} :
    Keeps (.object fields) ↔ (fields.map Prod.fst).Nodup ∧ ∀ f ∈ fields, Keeps f.2 :=
  ⟨fun h => by cases h; exact ⟨by assumption, by assumption⟩, fun ⟨hnames, h⟩ => .object hnames h⟩

attribute [simp] Keeps.null Keeps.bool Keeps.string

/-- The layout has only blanks, and a comma between two parts. -/
structure Layout.IsLoose (l : Layout) : Prop where
  margin : ∀ depth, ∀ c ∈ (l.margin depth).toList, isSpace c = true
  gap : ∀ depth, ∃ blanks, (l.gap depth).toList = ',' :: blanks ∧ ∀ c ∈ blanks, isSpace c = true

/-- The value is read back from its text, whatever follows. The length of the text is fuel
enough. -/
def Reads (l : Layout) (v : Value) : Prop := ∀ depth fuel rest, EndsNumber rest →
  (write l depth v).toList.length ≤ fuel →
    valueFor fuel ((write l depth v).toList ++ rest) = .ok (v, rest)

theorem skip_append {blanks : List Char} (h : ∀ c ∈ blanks, isSpace c = true) :
    skip (blanks ++ rest) = skip rest := by
  induction blanks with
  | nil => rfl
  | cons c blanks ih =>
      obtain ⟨hc, hblanks⟩ := List.forall_mem_cons.mp h
      rw [skip, List.cons_append, List.dropWhile_cons, if_pos hc]
      exact ih hblanks

theorem skip_cons (h : isSpace c = false) : skip (c :: rest) = c :: rest := by
  rw [skip, List.dropWhile_cons, if_neg (by simp [h])]

theorem isSpace_of_numeralChar (h : numeralChar c = true) : isSpace c = false := by
  refine Bool.eq_false_iff.mpr fun hspace => ?_
  simp only [isSpace, Bool.or_eq_true, decide_eq_true_eq] at hspace
  rcases hspace with ((rfl | rfl) | rfl) | rfl <;> cases h

theorem toList_stringText (s : String) :
    (stringText s).toList = '\x22' :: (s.toList.flatMap stringChar ++ ['\x22']) := by
  rw [stringText, String.toList_ofList]
  rfl

theorem reads_null {l : Layout} : Reads l .null := by
  intro depth fuel rest _ hfuel
  have htext : (write l depth .null).toList = ['n', 'u', 'l', 'l'] := by
    rw [write]
    rfl
  rw [htext] at hfuel ⊢
  obtain ⟨fuel, rfl⟩ := Nat.exists_eq_succ_of_ne_zero (Nat.ne_zero_of_lt hfuel)
  rfl

theorem reads_bool {l : Layout} (b : Bool) : Reads l (.bool b) := by
  intro depth fuel rest _ hfuel
  have htext : (write l depth (.bool b)).toList =
      if b then ['t', 'r', 'u', 'e'] else ['f', 'a', 'l', 's', 'e'] := by
    rw [write]
    cases b <;> rfl
  rw [htext] at hfuel ⊢
  obtain ⟨fuel, rfl⟩ := Nat.exists_eq_succ_of_ne_zero
    (show fuel ≠ 0 by rintro rfl; cases b <;> simp at hfuel)
  cases b <;> rfl

theorem valueFor_of_numeralChar (h : numeralChar c = true) :
    valueFor (fuel + 1) (c :: rest) = plain (c :: rest) := by
  rw [valueFor] <;>
    · rintro _ ⟨rfl, -⟩
      cases h

theorem reads_number {l : Layout} {n : Number} (h : IsReadBack n) : Reads l (.number n) := by
  intro depth fuel rest hrest hfuel
  rw [write] at hfuel ⊢
  cases hcs : (numberText n).toList with
  | nil =>
      rw [IsReadBack, hcs] at h
      cases h
  | cons c cs =>
      have hc : numeralChar c = true := isNumeral_numberText n c (by simp [hcs])
      rw [hcs] at hfuel
      obtain ⟨fuel, rfl⟩ := Nat.exists_eq_succ_of_ne_zero (Nat.ne_zero_of_lt hfuel)
      rw [List.cons_append, valueFor_of_numeralChar hc, ← List.cons_append, ← hcs]
      exact plain_append h hrest

theorem reads_string {l : Layout} (s : String) : Reads l (.string s) := by
  intro depth fuel rest _ hfuel
  rw [write, toList_stringText] at hfuel ⊢
  obtain ⟨fuel, rfl⟩ := Nat.exists_eq_succ_of_ne_zero (Nat.ne_zero_of_lt hfuel)
  have hlength := length_le_length_flatMap s.toList
  simp only [List.length_cons, List.length_append, List.length_nil] at hfuel
  rw [List.cons_append, List.append_assoc, List.singleton_append, valueFor,
    stringAt_flatMap (by omega)]
  rfl

/-- The first character of a value that is read back is no blank, closes no list and is no mark of
the order of bytes. -/
theorem Reads.exists_head {l : Layout} {v : Value} (h : Reads l v) (depth : Nat) :
    ∃ c cs, (write l depth v).toList = c :: cs ∧ isSpace c = false ∧ c ≠ ']' ∧ c ≠ '\uFEFF' := by
  have hread := h depth _ [] nofun (Nat.le_refl _)
  rw [List.append_nil] at hread
  cases hcs : (write l depth v).toList with
  | nil =>
      rw [hcs] at hread
      cases hread
  | cons c cs =>
      rw [hcs] at hread
      refine ⟨c, cs, rfl, Bool.eq_false_iff.mpr fun hspace => ?_, ?_, ?_⟩
      · simp only [isSpace, Bool.or_eq_true, decide_eq_true_eq] at hspace
        rcases hspace with ((rfl | rfl) | rfl) | rfl <;> cases hread
      · rintro rfl
        cases hread
      · rintro rfl
        cases hread

theorem endsNumber_cons (h : numeralChar c = false) : EndsNumber (c :: rest) := by
  intro d hd
  rwa [← Option.some.inj hd]

theorem endsNumber_of_blanks {blanks : List Char} (h : ∀ c ∈ blanks, isSpace c = true)
    (hr : numeralChar r = false) : EndsNumber (blanks ++ r :: rest) := by
  cases blanks with
  | nil => exact endsNumber_cons hr
  | cons c blanks =>
      refine endsNumber_cons (Bool.eq_false_iff.mpr fun hnumeral => ?_)
      simpa [isSpace_of_numeralChar hnumeral] using h c List.mem_cons_self

/-- What is put together of parts begins with the first one. -/
theorem exists_toList_intercalate (s t : String) (ts : List String) :
    ∃ more, (s.intercalate (t :: ts)).toList = t.toList ++ more := by
  cases ts with
  | nil => exact ⟨[], by simp⟩
  | cons u ts =>
      rw [String.intercalate_cons_of_ne_nil (List.cons_ne_nil u ts), String.append_assoc,
        String.toList_append]
      exact ⟨_, rfl⟩

/-- The text is that of one part of a container: read with `read` up to the closing bracket, or up
to a comma and then further. -/
structure ReadsPart {α : Type} (read : Nat → List Char → Except Issue (List α × List Char))
    (closing : Char) (text : String) (a : α) : Prop where
  head : ∃ c cs, text.toList = c :: cs ∧ isSpace c = false ∧ c ≠ closing
  last : ∀ fuel rest more, EndsNumber rest → text.toList.length ≤ fuel →
    skip rest = closing :: more → read (fuel + 1) (text.toList ++ rest) = .ok ([a], more)
  next : ∀ fuel rest more, EndsNumber rest → text.toList.length ≤ fuel →
    skip rest = ',' :: more → read (fuel + 1) (text.toList ++ rest) =
      (read fuel (skip more)).map fun x => (a :: x.1, x.2)

/-- **The parts of a container** are read up to its closing bracket. -/
theorem read_parts {α : Type} {read : Nat → List Char → Except Issue (List α × List Char)}
    {closing : Char} {l : Layout} (hl : l.IsLoose) {depth outer : Nat} {texts : List String}
    {as : List α} (hparts : List.Forall₂ (ReadsPart read closing) texts as) (hne : texts ≠ [])
    (hclosing : isSpace closing = false) (hends : numeralChar closing = false)
    (hfuel : ((l.gap depth).intercalate texts).toList.length < fuel) :
    read fuel (((l.gap depth).intercalate texts).toList ++
      ((l.margin outer).toList ++ closing :: rest)) = .ok (as, rest) := by
  induction hparts generalizing fuel with
  | nil => exact absurd rfl hne
  | @cons text a texts as hpart hparts ih =>
      obtain ⟨fuel, rfl⟩ := Nat.exists_eq_succ_of_ne_zero (Nat.ne_zero_of_lt hfuel)
      cases hparts with
      | nil =>
          rw [String.intercalate_singleton] at hfuel ⊢
          refine hpart.last fuel _ rest (endsNumber_of_blanks (hl.margin outer) hends) (by omega) ?_
          rw [skip_append (hl.margin outer), skip_cons hclosing]
      | @cons text' a' texts as hpart' hparts =>
          obtain ⟨blanks, hgap, hblanks⟩ := hl.gap depth
          rw [String.intercalate_cons_of_ne_nil (List.cons_ne_nil _ _), String.toList_append,
            String.toList_append, hgap] at hfuel ⊢
          simp only [List.length_append, List.length_cons] at hfuel
          have hagain := ih (List.cons_ne_nil _ _) (show _ < fuel by omega)
          obtain ⟨c, cs, hcs, hc, -⟩ := hpart'.head
          obtain ⟨more, hmore⟩ := exists_toList_intercalate (l.gap depth) text' texts
          rw [hcs, List.cons_append] at hmore
          rw [hmore, List.cons_append] at hagain
          rw [hmore, List.append_assoc, List.append_assoc, List.cons_append,
            hpart.next fuel _ (blanks ++ _) (endsNumber_cons (by decide)) (by omega)
              (skip_cons (by decide)),
            skip_append hblanks, List.cons_append, skip_cons hc, hagain]
          rfl

/-- One item is read, and then what follows it. -/
theorem itemsFor_item {l : Layout} {v : Value} (hv : Reads l v) {depth : Nat}
    (hrest : EndsNumber rest) (hfuel : (write l depth v).toList.length ≤ fuel) :
    itemsFor (fuel + 1) ((write l depth v).toList ++ rest) =
      match skip rest with
      | ']' :: r => .ok ([v], r)
      | ',' :: r => (itemsFor fuel (skip r)).map fun (vs, r) => (v :: vs, r)
      | r => .error (.unexpected "Expecting ',' delimiter" r) := by
  rw [itemsFor, hv depth fuel rest hrest hfuel]
  rfl

theorem forall₂_writeItems {l : Layout} {items : List Value} (h : ∀ v ∈ items, Reads l v)
    (depth : Nat) : List.Forall₂ (ReadsPart itemsFor ']') (writeItems l depth items) items := by
  induction items with
  | nil =>
      rw [writeItems]
      exact .nil
  | cons v items ih =>
      obtain ⟨hv, hitems⟩ := List.forall_mem_cons.mp h
      obtain ⟨c, cs, hcs, hc, hbracket, -⟩ := hv.exists_head depth
      rw [writeItems]
      refine .cons ⟨⟨c, cs, hcs, hc, hbracket⟩, ?_, ?_⟩ (ih hitems)
      · intro fuel rest more hrest hfuel hskip
        rw [itemsFor_item hv hrest hfuel, hskip]
        rfl
      · intro fuel rest more hrest hfuel hskip
        rw [itemsFor_item hv hrest hfuel, hskip]
        rfl

/-- The text of a field. -/
theorem toList_field {l : Layout} {key : String} {v : Value} {depth : Nat} :
    (stringText key ++ ": " ++ write l depth v).toList =
      '\x22' :: (key.toList.flatMap stringChar ++
        '\x22' :: ':' :: ' ' :: (write l depth v).toList) := by
  rw [String.toList_append, String.toList_append, toList_stringText]
  simp

/-- One field is read, and then what follows it. -/
theorem fieldsFor_field {l : Layout} {key : String} {v : Value} (hv : Reads l v) {depth : Nat}
    (hrest : EndsNumber rest)
    (hfuel : (stringText key ++ ": " ++ write l depth v).toList.length ≤ fuel) :
    fieldsFor (fuel + 1) ((stringText key ++ ": " ++ write l depth v).toList ++ rest) =
      match skip rest with
      | '\x7d' :: r => .ok ([(key, v)], r)
      | ',' :: r => (fieldsFor fuel (skip r)).map fun (fs, r) => ((key, v) :: fs, r)
      | r => .error (.unexpected "Expecting ',' delimiter" r) := by
  have hlength := length_le_length_flatMap key.toList
  rw [toList_field] at hfuel ⊢
  simp only [List.length_cons, List.length_append] at hfuel
  have hread := hv depth fuel rest hrest (by omega)
  obtain ⟨c, cs, hcs, hc, -⟩ := hv.exists_head depth
  rw [hcs] at hread ⊢
  rw [List.cons_append, List.append_assoc, fieldsFor]
  simp only [List.cons_append] at hread ⊢
  rw [stringAt_flatMap (by omega)]
  dsimp only [bind, Except.bind]
  rw [skip_cons (by decide)]
  change ((valueFor fuel (skip (' ' :: c :: (cs ++ rest)))).bind _) = _
  rw [skip, List.dropWhile_cons, if_pos (by decide), ← skip, skip_cons hc, hread]
  rfl

theorem forall₂_writeFields {l : Layout} {fields : Fields} (h : ∀ f ∈ fields, Reads l f.2)
    (depth : Nat) :
    List.Forall₂ (ReadsPart fieldsFor '\x7d') (writeFields l depth fields) fields := by
  induction fields with
  | nil =>
      rw [writeFields]
      exact .nil
  | cons f fields ih =>
      obtain ⟨hf, hfields⟩ := List.forall_mem_cons.mp h
      rw [writeFields]
      refine .cons ⟨⟨'\x22', _, toList_field, by decide, by decide⟩, ?_, ?_⟩ (ih hfields)
      · intro fuel rest more hrest hfuel hskip
        rw [fieldsFor_field hf hrest hfuel, hskip]
        rfl
      · intro fuel rest more hrest hfuel hskip
        rw [fieldsFor_field hf hrest hfuel, hskip]
        rfl

/-- The text of a container with something in it. -/
theorem toList_enclosed {l : Layout} {depth : Nat} {opening closing : String}
    {texts : List String} (hne : texts ≠ []) :
    (enclosed l depth opening closing texts).toList = opening.toList ++
      ((l.margin (depth + 1)).toList ++ (((l.gap (depth + 1)).intercalate texts).toList ++
        ((l.margin depth).toList ++ closing.toList))) := by
  rw [enclosed, if_neg (by simpa using hne)]
  simp

/-- **A container** is not closed after its opening bracket and blanks, and its parts are read. -/
theorem exists_read_enclosed {α : Type}
    {read : Nat → List Char → Except Issue (List α × List Char)} {left right : Char} {l : Layout}
    (hl : l.IsLoose) {depth : Nat} {opening closing : String} {texts : List String} {as : List α}
    (hparts : List.Forall₂ (ReadsPart read right) texts as) (hne : texts ≠ [])
    (hopening : opening.toList = [left]) (hclosing : closing.toList = [right])
    (hspace : isSpace right = false) (hends : numeralChar right = false)
    (hfuel : (enclosed l depth opening closing texts).toList.length ≤ fuel) :
    ∃ n within c cs, fuel = n + 1 ∧
      (enclosed l depth opening closing texts).toList ++ rest = left :: within ∧
        skip within = c :: cs ∧ c ≠ right ∧ read n (c :: cs) = .ok (as, rest) := by
  rw [toList_enclosed hne, hopening, hclosing] at hfuel ⊢
  simp only [List.length_append, List.length_singleton] at hfuel
  obtain ⟨fuel, rfl⟩ := Nat.exists_eq_succ_of_ne_zero (show fuel ≠ 0 by omega)
  have hread : read fuel (((l.gap (depth + 1)).intercalate texts).toList ++
      ((l.margin depth).toList ++ right :: rest)) = .ok (as, rest) :=
    read_parts hl hparts hne hspace hends (by omega)
  obtain ⟨text, texts, rfl⟩ := List.exists_cons_of_ne_nil hne
  obtain ⟨a, as', hpart, -, -⟩ := List.forall₂_cons_left_iff.mp hparts
  obtain ⟨c, cs, hcs, hc, hbracket⟩ := hpart.head
  obtain ⟨more, hmore⟩ := exists_toList_intercalate (l.gap (depth + 1)) text texts
  rw [hcs, List.cons_append] at hmore
  rw [hmore, List.cons_append] at hread
  refine ⟨fuel, (l.margin (depth + 1)).toList ++ c :: (cs ++ more ++ ((l.margin depth).toList ++
    right :: rest)), c, _, rfl, ?_, ?_, hbracket, hread⟩
  · simp [hmore]
  · rw [skip_append (hl.margin _), skip_cons hc]

theorem reads_list {l : Layout} (hl : l.IsLoose) {items : List Value}
    (h : ∀ v ∈ items, Reads l v) : Reads l (.list items) := by
  intro depth fuel rest _ hfuel
  rw [write] at hfuel ⊢
  cases items with
  | nil =>
      have htext : (enclosed l depth "[" "]" (writeItems l (depth + 1) [])).toList =
          ['[', ']'] := by simp [writeItems, enclosed]
      rw [htext] at hfuel ⊢
      obtain ⟨fuel, rfl⟩ := Nat.exists_eq_succ_of_ne_zero (Nat.ne_zero_of_lt hfuel)
      rfl
  | cons v items =>
      have hne : writeItems l (depth + 1) (v :: items) ≠ [] := by
        rw [writeItems]
        exact List.cons_ne_nil _ _
      obtain ⟨fuel, within, c, cs, rfl, htext, hskip, hc, hread⟩ :
          ∃ n within c cs, fuel = n + 1 ∧
            (enclosed l depth "[" "]" (writeItems l (depth + 1) (v :: items))).toList ++ rest =
              '[' :: within ∧ skip within = c :: cs ∧ c ≠ ']' ∧
                itemsFor n (c :: cs) = .ok (v :: items, rest) :=
        exists_read_enclosed hl (forall₂_writeItems h (depth + 1)) hne rfl rfl (by decide)
          (by decide) hfuel
      rw [htext, valueFor, hskip]
      split
      · next r heq => exact absurd (List.cons.inj heq).1 hc
      · rw [hread]
        rfl

theorem reads_object {l : Layout} (hl : l.IsLoose) {fields : Fields}
    (hnames : (fields.map Prod.fst).Nodup) (h : ∀ f ∈ fields, Reads l f.2) :
    Reads l (.object fields) := by
  intro depth fuel rest _ hfuel
  rw [write] at hfuel ⊢
  cases fields with
  | nil =>
      have htext : (enclosed l depth "\x7b" "\x7d" (writeFields l (depth + 1) [])).toList =
          ['\x7b', '\x7d'] := by simp [writeFields, enclosed]
      rw [htext] at hfuel ⊢
      obtain ⟨fuel, rfl⟩ := Nat.exists_eq_succ_of_ne_zero (Nat.ne_zero_of_lt hfuel)
      rfl
  | cons f fields =>
      have hne : writeFields l (depth + 1) (f :: fields) ≠ [] := by
        rw [writeFields]
        exact List.cons_ne_nil _ _
      have hfields : Fields.ofList (f :: fields) = f :: fields :=
        Fields.Completes.merge_eq ⟨hnames, List.nil_prefix⟩
      obtain ⟨fuel, within, c, cs, rfl, htext, hskip, hc, hread⟩ :
          ∃ n within c cs, fuel = n + 1 ∧
            (enclosed l depth "\x7b" "\x7d" (writeFields l (depth + 1) (f :: fields))).toList ++
              rest = '\x7b' :: within ∧ skip within = c :: cs ∧ c ≠ '\x7d' ∧
                fieldsFor n (c :: cs) = .ok (f :: fields, rest) :=
        exists_read_enclosed hl (forall₂_writeFields h (depth + 1)) hne rfl rfl (by decide)
          (by decide) hfuel
      rw [htext, valueFor, hskip]
      split
      · next r heq => exact absurd (List.cons.inj heq).1 hc
      · rw [hread, Except.map]
        dsimp only
        rw [hfields]

/-- **What JSON keeps** is read back in every loose layout. -/
theorem Keeps.reads {l : Layout} (hl : l.IsLoose) {v : Value} (h : Keeps v) : Reads l v := by
  induction h with
  | null => exact reads_null
  | bool b => exact reads_bool b
  | number hn => exact reads_number hn
  | string s => exact reads_string s
  | list _ ih => exact reads_list hl ih
  | object hnames _ ih => exact reads_object hl hnames ih

/-- **What JSON keeps** is read back from its text in every loose layout. -/
theorem parse_write {l : Layout} (hl : l.IsLoose) {v : Value} (h : Keeps v) :
    parse (write l 0 v) = .ok v := by
  obtain ⟨c, cs, hcs, hc, -, hmark⟩ := (h.reads hl).exists_head 0
  have hread := h.reads hl 0 (2 * (c :: cs).length + 2) [] nofun (by rw [hcs]; omega)
  have hhead : (c :: cs).head? ≠ some '\uFEFF' := fun hhead => hmark (Option.some.inj hhead)
  rw [hcs, List.append_nil] at hread
  rw [parse, hcs, whole?, if_neg hhead, skip_cons hc, hread]
  rfl

theorem isLoose_indented : Layout.indented.IsLoose := by
  have hindent (depth : Nat) : ∀ c ∈ (indent depth).toList, isSpace c = true := by
    rw [indent, String.toList_ofList]
    refine List.forall_mem_cons.mpr ⟨rfl, fun c hc => ?_⟩
    rw [List.eq_of_mem_replicate hc]
    rfl
  have hgap (depth : Nat) : (Layout.indented.gap depth).toList = ',' :: (indent depth).toList := by
    rw [Layout.indented, String.toList_append]
    rfl
  exact ⟨hindent, fun depth => ⟨_, hgap depth, hindent depth⟩⟩

theorem isLoose_oneLine : Layout.oneLine.IsLoose := by
  have hgap : ", ".toList = [',', ' '] := rfl
  exact ⟨fun _ => nofun, fun _ => ⟨[' '], hgap, List.forall_mem_singleton.mpr rfl⟩⟩

/-- **A value over several lines** is read back. -/
theorem parse_pages {v : Value} (h : Keeps v) : parse (pages v) = .ok v :=
  parse_write isLoose_indented h

/-- **A value on one line** is read back. -/
theorem parse_line {v : Value} (h : Keeps v) : parse (line v) = .ok v :=
  parse_write isLoose_oneLine h

end Montage.Json
