import Montage.Proofs.Preview.Fitting
import Montage.Proofs.Preview.Values
import Montage.Proofs.Text.Digits

/-!
# One text, two renderings

The size and the place of a text are read three times: by the check, by the compiler for the
renderer and by the one for the preview service. Each reads names in its own tables, and digits
after trimming of its own. A size and a place that are given and pass the check mean the same to all
three, as far as the preview service reads the digits at all.

## Main definitions

* `Anchor`: the nine places.
* `Value.IsExplicitSize`: the sizes that pass the check.
* `IsFallback`: the notices that a size or a place is not known.
* `Action.Finds`: an action writes no such notice to the journal.
* `Expression.Shows`, `Descriptor.Shows`: a text is shown in a size and a place.

## Main statements

* `Value.IsExplicitSize.exists_size`: both compilers read the same size.
* `Expression.Shows.unique`, `ShowText.anchor_unique`: a rendering has one place for its text.
* `Studio.exists_shows`: both renderings of an accepted text show it in one size and one place.
-/
namespace Montage

open Montage.Action

/-! ## Places -/

/-- Where a text stands across the picture. -/
inductive Across
  | left
  | center
  | right
  deriving DecidableEq

/-- Where a text stands down the picture. -/
inductive Down
  | top
  | center
  | bottom
  deriving DecidableEq

/-- One of the nine places for a text. -/
structure Anchor where
  down : Down
  across : Across
  deriving DecidableEq

namespace Anchor

/-- The name by which the place is asked for. -/
def name : Anchor → String
  | ⟨.top, .left⟩ => "top-left"
  | ⟨.top, .center⟩ => "top"
  | ⟨.top, .right⟩ => "top-right"
  | ⟨.center, .left⟩ => "left"
  | ⟨.center, .center⟩ => "center"
  | ⟨.center, .right⟩ => "right"
  | ⟨.bottom, .left⟩ => "bottom-left"
  | ⟨.bottom, .center⟩ => "bottom"
  | ⟨.bottom, .right⟩ => "bottom-right"

/-- The name of the place at the preview service. -/
def gravity : Anchor → String
  | ⟨.top, .left⟩ => "north_west"
  | ⟨.top, .center⟩ => "north"
  | ⟨.top, .right⟩ => "north_east"
  | ⟨.center, .left⟩ => "west"
  | ⟨.center, .center⟩ => "center"
  | ⟨.center, .right⟩ => "east"
  | ⟨.bottom, .left⟩ => "south_west"
  | ⟨.bottom, .center⟩ => "south"
  | ⟨.bottom, .right⟩ => "south_east"

/-- The left edge of the text, as the renderer computes it: `margin` in from the edge of the
picture, or half of what is free. -/
def left (a : Anchor) (margin : String) : String :=
  match a.across with
  | .left => margin
  | .center => "(w-text_w)/2"
  | .right => "w-text_w-" ++ margin

/-- The upper edge of the text, as the renderer computes it. -/
def upper (a : Anchor) (margin : String) : String :=
  match a.down with
  | .top => margin
  | .center => "(h-text_h)/2"
  | .bottom => "h-text_h-" ++ margin

/-- All places. -/
def all : List Anchor :=
  [.top, .center, .bottom].flatMap fun down => [.left, .center, .right].map fun across =>
    ⟨down, across⟩

theorem mem_all (a : Anchor) : a ∈ all := by
  obtain ⟨down, across⟩ := a
  cases down <;> cases across <;> decide

variable {a b : Anchor}

/-- Two places of one name at the preview service are the same. -/
theorem gravity_injective (h : a.gravity = b.gravity) : a = b := by
  have hnodup : (all.map gravity).Nodup := by decide +kernel
  exact List.inj_on_of_nodup_map hnodup a.mem_all b.mem_all h

/-- Two places with one pair of edges at the renderer are the same, with the margin set by
default. -/
theorem edges_injective (hleft : a.left "10" = b.left "10") (hupper : a.upper "10" = b.upper "10") :
    a = b := by
  have hnodup : (all.map fun a => (a.left "10", a.upper "10")).Nodup := by decide +kernel
  exact List.inj_on_of_nodup_map hnodup a.mem_all b.mem_all (Prod.ext hleft hupper)

/-- Each place that the check knows is one of the nine. -/
theorem exists_name_eq {key : String} (h : key ∈ placements) : ∃ a : Anchor, a.name = key := by
  have hnames : ∀ key ∈ placements, key ∈ all.map name := by decide +kernel
  obtain ⟨a, -, ha⟩ := List.mem_map.mp (hnames key h)
  exact ⟨a, ha⟩

theorem lookup_anchors (a : Anchor) : anchors.lookup a.name = some a.gravity := by
  obtain ⟨down, across⟩ := a
  cases down <;> cases across <;> rfl

/-- The renderer puts a text where its place is, without a warning. -/
theorem textPlace_name (a : Anchor) (shown margin : String) :
    textPlace a.name shown margin = ((a.left margin, a.upper margin), []) := by
  obtain ⟨down, across⟩ := a
  cases down <;> cases across <;> rfl

end Anchor

/-- A text that is among the places on offer chooses one of the nine places. -/
theorem FieldSpec.exists_anchor_of_textProblems {f : FieldSpec} {key s : String}
    (hchoices : f.choices = placements.map .string) (h : f.textProblems key (.string s) = []) :
    ∃ a : Anchor, choiceKey s = a.name := by
  have hlower : ∀ name ∈ placements, name.lowerCase = name := by decide +kernel
  have hnonempty : (placements.map Value.string).isEmpty = false := rfl
  rw [textProblems, hchoices, hnonempty, Bool.false_or] at h
  split_ifs at h with hany
  obtain ⟨v, hv, hkey⟩ := List.any_eq_true.mp hany
  obtain ⟨name, hname, rfl⟩ := List.mem_map.mp hv
  have hkey : (Value.string name).text.lowerCase = choiceKey s := of_decide_eq_true hkey
  obtain ⟨a, ha⟩ := Anchor.exists_name_eq hname
  refine ⟨a, ?_⟩
  rw [← hkey, Value.text, hlower name hname, ha]

/-! ## Sizes -/

/-- The size passes the check: a number or digits in the range of sizes, or the name of a size. -/
inductive Value.IsExplicitSize : Value → Prop
  | number {n : Number} (hlow : 12 ≤ n) (hhigh : n ≤ 120) : IsExplicitSize (.number n)
  | digits {s : String} {m : Int} (hdigits : Text.allDigits s.strip.lowerCase.toList = true)
      (hm : Numeral.integer s.strip.lowerCase = .ok m) (hlow : 12 ≤ m) (hhigh : m ≤ 120) :
      IsExplicitSize (.string s)
  | named {s : String} (hname : s.strip.lowerCase ∈ sizeNames) : IsExplicitSize (.string s)

variable {v : Value}

theorem FieldSpec.isExplicitSize_of_sizeProblems {f : FieldSpec} {key : String}
    (hmin : f.minimum = some 12) (hmax : f.maximum = some 120) (hchoices : f.choices = [])
    (h : f.sizeProblems key v = .ok []) : v.IsExplicitSize := by
  have hrange := isTextSize_of_sizeProblems hmin hmax hchoices h
  cases v with
  | number n => exact .number hrange.1 hrange.2
  | string s =>
      cases hdigits : Text.allDigits s.strip.lowerCase.toList with
      | true =>
          obtain ⟨m, hm, hlow, hhigh⟩ := hrange hdigits
          cases hread : Numeral.integer s.strip.lowerCase with
          | error f => simp [hread, Except.toOption] at hm
          | ok m' =>
              obtain rfl : m' = m := by simpa [hread, Except.toOption] using hm
              exact .digits hdigits hread hlow hhigh
      | false =>
          simp only [sizeProblems, hdigits, Bool.false_eq_true, if_false] at h
          split_ifs at h with hname
          · exact .named (List.contains_iff_mem.mp hname)
          · exact absurd (Except.ok.inj h) (List.cons_ne_nil _ _)
  | _ => cases h

namespace Number

variable {n : Number} {k : Int}

theorem eq_truncate_of_toInt (h : n.toInt = .ok k) : k = Binary64.truncate n.value := by
  cases n with
  | int j =>
      obtain rfl := Except.ok.inj h
      exact (truncate_intCast j).symm
  | real x =>
      cases x with
      | finite v => exact (Except.ok.inj h).symm
      | negZero =>
          obtain rfl := Except.ok.inj h
          exact_mod_cast (truncate_intCast 0).symm
      | infinite negative => cases h
      | nan => cases h

/-- The integer part of a number between two integers from zero on is between them. -/
theorem toInt_between {a b : Int} (ha : 0 ≤ a) (hlow : .int a ≤ n) (hhigh : n ≤ .int b)
    (hk : n.toInt = .ok k) : a ≤ k ∧ k ≤ b := by
  have hfinite : n.IsFinite := isFinite_of_between hlow hhigh
  have hn : n.IsOrdered := (Binary64.ne_nan_of_le hlow).2
  have hint : ∀ j, (int j).IsFinite := fun _ => rfl
  rw [le_iff (isOrdered_int a) hn, place_le_iff (hint a) hfinite] at hlow
  rw [le_iff hn (isOrdered_int b), place_le_iff hfinite (hint b)] at hhigh
  have hlow' : (a : ℚ) ≤ n.value := hlow
  have hhigh' : n.value ≤ (b : ℚ) := hhigh
  have hnonneg : (0 : ℚ) ≤ n.value := le_trans (by exact_mod_cast ha) hlow'
  have hfloor : k = ⌊n.value⌋ := by
    rw [eq_truncate_of_toInt hk, Binary64.truncate, if_neg hnonneg.not_gt]
    rfl
  rw [hfloor]
  refine ⟨Int.le_floor.mpr hlow', ?_⟩
  have hbelow : ((⌊n.value⌋ : Int) : ℚ) ≤ b := (Int.floor_le _).trans hhigh'
  exact_mod_cast hbelow

end Number

section

variable {s : String} {k : Int}

theorem textSize_of_digits (hdigits : Text.allDigits s.strip.lowerCase.toList = true)
    (hk : Numeral.integer s.strip.lowerCase = .ok k) (default_ : Int) :
    textSize (.string s) default_ = .ok (k, []) := by
  unfold textSize
  split
  · cases ‹Value.string s = Value.null›
  · next hcount _ => cases hcount
  · rw [Value.text, if_pos hdigits, hk]
    rfl

theorem textSize_of_lookup (hdigits : Text.allDigits s.strip.lowerCase.toList = false)
    (hk : textSizes.lookup s.strip.lowerCase = some k) (default_ : Int) :
    textSize (.string s) default_ = .ok (k, []) := by
  unfold textSize
  split
  · cases ‹Value.string s = Value.null›
  · next hcount _ => cases hcount
  · simp only [Value.text, hdigits, Bool.false_eq_true, if_false, hk]

theorem previewSize_of_digits (hdigits : Text.allDigits s.strip.toList = true) :
    previewSize (.string s) = (Numeral.integer s).map fun n => (min (max n 12) 200, []) := by
  rw [previewSize, if_pos hdigits, previewSize.clamped, Value.toInt]

theorem previewSize_of_lookup (hdigits : Text.allDigits s.strip.toList = false)
    (hk : previewSizes.lookup s.strip.lowerCase = some k) :
    previewSize (.string s) = .ok (k, []) := by
  simp only [previewSize, hdigits, Bool.false_eq_true, if_false, hk]

end

/-- The name of a size is no digits, and stands for one size at both compilers. -/
theorem lookup_textSizes {name : String} (h : name ∈ sizeNames) :
    Text.allDigits name.toList = false ∧
      ∃ k : Int, 12 ≤ k ∧ k ≤ 120 ∧ textSizes.lookup name = some k ∧
        previewSizes.lookup name = some k := by
  have hnames : ∀ name ∈ sizeNames, Text.allDigits name.toList = false ∧
      ∃ entry ∈ textSizes, 12 ≤ entry.2 ∧ entry.2 ≤ 120 ∧
        textSizes.lookup name = some entry.2 ∧ previewSizes.lookup name = some entry.2 := by
    decide +kernel
  obtain ⟨hdigits, entry, -, hentry⟩ := hnames name h
  exact ⟨hdigits, entry.2, hentry⟩

/-- The renderer writes a text of the size `v` with letters of the size `size`. -/
structure Value.IsSize (v : Value) (size : Int) : Prop where
  low : 12 ≤ size
  high : size ≤ 120
  textSize_eq : ∀ default_, textSize v default_ = .ok (size, [])

namespace Value.IsExplicitSize

/-- A size without a fraction is taken for an integer, and is a size still. -/
theorem wholeSize (h : v.IsExplicitSize) : (TextParams.wholeSize v).IsExplicitSize := by
  cases h with
  | @number n hlow hhigh =>
      have hrange : (TextParams.wholeSize (.number n)).IsTextSize :=
        isTextSize_wholeSize ⟨hlow, hhigh⟩
      obtain ⟨n', hn'⟩ : ∃ n', TextParams.wholeSize (.number n) = .number n' := by
        unfold TextParams.wholeSize
        split
        · split <;> exact ⟨_, rfl⟩
        · exact ⟨n, rfl⟩
      rw [hn'] at hrange ⊢
      exact .number hrange.1 hrange.2
  | digits hdigits hm hlow hhigh => exact .digits hdigits hm hlow hhigh
  | named hname => exact .named hname

/-- **Both compilers read the same size**, if the preview service reads one at all. -/
theorem exists_size (h : v.IsExplicitSize) {r : Int × List String} (hr : previewSize v = .ok r) :
    ∃ size, v.IsSize size ∧ r = (size, []) := by
  have hclamp : ∀ {k : Int}, 12 ≤ k → k ≤ 120 → min (max k 12) 200 = k := by
    intro k hlow hhigh
    omega
  have hlower : ∀ s : String, Text.allDigits s.strip.lowerCase.toList =
      Text.allDigits s.strip.toList := by
    intro s
    rw [String.lowerCase, String.toList_ofList, Text.allDigits_lower]
  cases h with
  | @number n hlow hhigh =>
      obtain ⟨k, hk, rfl⟩ := Outcome.map_eq_ok.mp hr
      obtain ⟨hlow', hhigh'⟩ := Number.toInt_between (by decide) hlow hhigh hk
      rw [hclamp hlow' hhigh']
      exact ⟨k, ⟨hlow', hhigh', fun _ => Outcome.map_eq_ok.mpr ⟨k, hk, rfl⟩⟩, rfl⟩
  | @digits s m hdigits hm hlow hhigh =>
      have hsame : s.strip.lowerCase = s.strip := by
        rw [String.lowerCase, Text.lower_eq_of_allDigits (hlower s ▸ hdigits), String.ofList_toList]
      -- The service reads the text as it is given, the check and the renderer what is left of it
      -- without blanks.
      rw [previewSize_of_digits (hlower s ▸ hdigits)] at hr
      obtain ⟨k, hk, rfl⟩ := Outcome.map_eq_ok.mp hr
      have hread := Numeral.integer_strip hk
      rw [← hsame, hm] at hread
      rw [← Except.ok.inj hread, hclamp hlow hhigh]
      exact ⟨m, ⟨hlow, hhigh, textSize_of_digits hdigits hm⟩, rfl⟩
  | @named s hname =>
      obtain ⟨hdigits, k, hlow, hhigh, hrenderer, hservice⟩ := lookup_textSizes hname
      rw [previewSize_of_lookup (hlower s ▸ hdigits) hservice] at hr
      exact ⟨k, ⟨hlow, hhigh, textSize_of_lookup hdigits hrenderer⟩, (Except.ok.inj hr).symm⟩

end Value.IsExplicitSize

/-! ## Notices -/

/-- How the notices begin that a size or a place is not known and another one is used. -/
def fallbackHeads : List String :=
  ["Unknown font size '", "Unknown text position '", "Unknown position '"]

/-- The notice says that a size or a place is not known. -/
def IsFallback (notice : String) : Prop := ∃ head ∈ fallbackHeads, head.toList <+: notice.toList

theorem not_isFallback_append {start rest : String}
    (h : ∀ head ∈ fallbackHeads, ¬head.toList <+: start.toList ∧ ¬start.toList <+: head.toList) :
    ¬IsFallback (start ++ rest) := by
  rintro ⟨head, hmem, hhead⟩
  have hstart : start.toList <+: (start ++ rest).toList := by
    rw [String.toList_append]
    exact List.prefix_append _ _
  rcases List.prefix_or_prefix_of_prefix hhead hstart with hprefix | hprefix
  · exact (h head hmem).1 hprefix
  · exact (h head hmem).2 hprefix

/-- A colour that is not known is none of a size or a place. -/
theorem not_isFallback_color {rest : String} :
    ¬IsFallback ("Unknown text colour '" ++ rest) ∧
      ¬IsFallback ("Unknown background colour '" ++ rest) :=
  ⟨not_isFallback_append (by decide +kernel), not_isFallback_append (by decide +kernel)⟩

/-- Whatever the action yields in any session has the property `Q`, and it does not note that a size
or a place is not known. -/
abbrev Action.Finds {α : Type} (a : Action α) (Q : α → Prop) : Prop :=
  Notes (fun e => ¬IsFallback e.text) a Q

/-! ## Rendered texts -/

/-- The expression writes one text, with letters of the size `size` in the place `a`, and has no
notice of a fallback. -/
structure Expression.Shows (e : Expression) (size : Int) (a : Anchor) : Prop where
  exists_stage : ∃ stage, e.video = [stage] ∧ stage.name = "drawtext" ∧
    stage.option? "fontsize" = some (.int size) ∧
    stage.option? "x" = some (.expression (a.left "10")) ∧
    stage.option? "y" = some (.expression (a.upper "10"))
  warnings : ∀ notice ∈ e.warnings, ¬IsFallback notice

/-- The steps show one text, with letters of the size `size` in the place `a`. -/
def ShowText (steps : List Fields) (size : Int) (a : Anchor) : Prop :=
  ∃ line layer, steps = [line, layer] ∧
    (∃ weight text, weight ∈ ["", "_bold"] ∧ line.get? "overlay" =
      some (.string ("text:Arial_" ++ intText size ++ weight ++ ":" ++ text))) ∧
    layer.get? "gravity" = some (.string a.gravity)

/-- The descriptor shows one text, with letters of the size `size` in the place `a`, and has no
notice of a fallback. -/
structure Descriptor.Shows (d : Descriptor) (size : Int) (a : Anchor) : Prop where
  steps : ShowText d.steps size a
  warnings : ∀ notice ∈ d.warnings, ¬IsFallback notice

section

variable {e : Expression} {steps : List Fields} {size size' : Int} {a b : Anchor}

/-- An expression writes its text in one size and in one place. -/
theorem Expression.Shows.unique (h : e.Shows size a) (h' : e.Shows size' b) :
    size = size' ∧ a = b := by
  obtain ⟨stage, hvideo, -, hsize, hleft, hupper⟩ := h.exists_stage
  obtain ⟨stage', hvideo', -, hsize', hleft', hupper'⟩ := h'.exists_stage
  obtain rfl : stage = stage' := by simpa [hvideo] using hvideo'
  rw [hsize] at hsize'
  rw [hleft] at hleft'
  rw [hupper] at hupper'
  have hequal : OptionValue.int size = .int size' := Option.some.inj hsize'
  refine ⟨by simpa using hequal, ?_⟩
  exact Anchor.edges_injective (OptionValue.expression.inj (Option.some.inj hleft'))
    (OptionValue.expression.inj (Option.some.inj hupper'))

/-- Steps show their text in one place. -/
theorem ShowText.anchor_unique (h : ShowText steps size a) (h' : ShowText steps size' b) :
    a = b := by
  obtain ⟨line, layer, hsteps, -, hgravity⟩ := h
  obtain ⟨line', layer', hsteps', -, hgravity'⟩ := h'
  obtain ⟨rfl, rfl⟩ : line = line' ∧ layer = layer' := by simpa [hsteps] using hsteps'
  rw [hgravity] at hgravity'
  exact Anchor.gravity_injective (Value.string.inj (Option.some.inj hgravity'))

end

section

variable {a : Anchor} {position : String}

theorem choiceKey_orElse (h : choiceKey position = a.name) (w : Value) :
    ((Value.string position).orElse w).choiceKey = a.name := by
  have hnamed : a.name ≠ "" := by
    obtain ⟨down, across⟩ := a
    cases down <;> cases across <;> decide
  have hempty : choiceKey "" = "" := by decide +kernel
  have hposition : position ≠ "" := by
    rintro rfl
    exact hnamed (h.symm.trans hempty)
  have htruthy : (Value.string position).isTruthy = true := decide_eq_true hposition
  rw [Value.orElse, if_pos htruthy, Value.choiceKey, if_pos htruthy]
  exact h

theorem finds_gravity (h : choiceKey position = a.name) (inset : Value) :
    (gravity (.string position) inset).Finds (· = anchorStep a.name a.gravity inset) := by
  unfold gravity
  simp only [choiceKey_orElse h, a.lookup_anchors]
  exact .pure rfl

end

theorem finds_drawtextColor {color fallback : Value} :
    (drawtextColor color fallback).Finds fun _ => True := by
  unfold drawtextColor
  split
  · split
    · exact .pure trivial
    · have hnotice : ¬IsFallback
          ("Unknown text colour '" ++ color.text ++ "', using " ++ fallback.text) := by
        rw [String.append_assoc, String.append_assoc]
        exact not_isFallback_color.1
      refine (notes_warn hnotice).andThen fun _ => ?_
      split
      · exact (notes_ofFault fun _ _ => trivial).andThen fun _ => .pure trivial
      · exact (notes_ofFault fun _ _ => trivial).andThen fun _ => notes_faulted
  · exact notes_faulted

namespace Studio

variable {s : Studio} {p : TextParams} {a : Anchor} {size : Int} {window : Option Window}

theorem finds_fontOptions {font : Value} :
    (s.fontOptions font).Finds fun options =>
      ∀ key ∈ ["fontsize", "x", "y"], options.lookup key = none := by
  refine notes_files.andThen fun _ => (notes_ofFault fun _ _ => trivial).andThen fun path => ?_
  cases path with
  | none =>
      refine .pure ?_
      split_ifs <;> simp
  | some path => exact .pure (by simp)

theorem finds_backgroundOptions {background : Value} :
    (s.backgroundOptions background).Finds fun _ => True := by
  unfold backgroundOptions
  split_ifs
  · exact finds_drawtextColor.andThen fun _ => .pure trivial
  · exact .pure trivial

/-- **The filters of a text** write it in its size and its place. -/
theorem finds_compileText {looks : Looks} (hsize : p.size.IsSize size)
    (hplace : choiceKey p.position = a.name) :
    Action.Finds (compileText ⟨.default, looks⟩ p) fun e => e.Shows size a := by
  refine (notes_ofFault fun _ _ => trivial).andThen fun defaultSize => ?_
  refine (notes_ofFault (Q := (· = (size, []))) fun r hr => ?_).bind ?_
  · exact Except.ok.inj (hr.symm.trans (hsize.textSize_eq defaultSize))
  rintro _ rfl
  refine (notes_warnAll (List.forall_mem_nil _)).andThen fun _ => ?_
  refine (notes_ofFault (Q := (· = 10)) fun margin h => (Except.ok.inj h).symm).bind ?_
  rintro _ rfl
  dsimp only
  rw [choiceKey_orElse hplace, a.textPlace_name]
  refine (notes_warnAll (List.forall_mem_nil _)).andThen fun _ => ?_
  refine finds_fontOptions.bind fun font hfont => finds_drawtextColor.andThen fun color => ?_
  refine finds_backgroundOptions.andThen fun background => ?_
  refine (notes_ofFault fun _ _ => trivial).andThen fun bold => .pure ⟨⟨_, rfl, rfl, ?_⟩, ?_⟩
  · have hoption : ∀ key ∈ ["fontsize", "x", "y"], ∀ options : List (String × OptionValue),
        (font ++ options).lookup key = options.lookup key := by
      intro key hkey options
      rw [List.lookup_append, hfont key hkey, Option.none_or]
    simp only [Stage.option?, Stage.of, List.append_assoc]
    rw [hoption "fontsize" (by simp), hoption "x" (by simp), hoption "y" (by simp)]
    exact ⟨rfl, rfl, rfl⟩
  · exact List.forall_mem_nil _

/-- A window leaves the filters of a text as they are. -/
theorem finds_applyWindow {kind : Kind} {w : Window} {e : Expression}
    (hkind : (specOf kind).windowed = true) (he : e.Shows size a) :
    (applyWindow kind w e).Finds fun e => e.Shows size a := by
  rw [applyWindow, if_pos hkind]
  split_ifs
  · exact .pure he
  · exact (notes_ofFault fun _ _ => trivial).andThen fun gate =>
      .pure ⟨he.exists_stage, he.warnings⟩

theorem finds_compileOperation {looks : Looks} {edit : Edit}
    (hedit : edit = .addText p ∨ edit = .customText p) (hsize : p.size.IsSize size)
    (hplace : choiceKey p.position = a.name) :
    Action.Finds (compileOperation ⟨.default, looks⟩ ⟨edit, window⟩) fun e => e.Shows size a := by
  have htext : Action.Finds (compileEdit ⟨.default, looks⟩ edit) fun e => e.Shows size a := by
    rcases hedit with rfl | rfl <;> exact finds_compileText hsize hplace
  have hwindowed : (specOf edit.kind).windowed = true := by
    rcases hedit with rfl | rfl <;> rfl
  refine htext.bind fun e he => ?_
  cases window with
  | none => exact .pure he
  | some w => exact finds_applyWindow hwindowed he

/-- **The steps of a text** show it in its size and its place. -/
theorem finds_previewText {looks : Looks} (hsize : p.size.IsExplicitSize)
    (hplace : choiceKey p.position = a.name) :
    Action.Finds (previewText ⟨.default, looks⟩ p window) fun r => ∃ size, p.size.IsSize size ∧
      ShowText r.1 size a ∧ ∀ notice ∈ r.2, ¬IsFallback notice := by
  refine (notes_ofFault fun r hr => hsize.exists_size hr).bind ?_
  rintro _ ⟨size, hsize, rfl⟩
  refine (notes_ofFault fun _ _ => trivial).andThen fun bold => (notes_ofFault fun _ h => h).bind ?_
  rintro ⟨color, colors⟩ hcolor
  have hcolors : ∀ notice ∈ colors, ¬IsFallback notice := by
    rcases colorPart_eq_ok hcolor with ⟨_, _, -, -, hr⟩ | hr
    · exact (Prod.mk.inj hr).2 ▸ List.forall_mem_nil _
    · rw [(Prod.mk.inj hr).2, List.forall_mem_singleton, String.append_assoc]
      exact not_isFallback_color.1
  dsimp -zeta only
  extract_lets inset rest
  have hrest : ∀ back, (∀ notice ∈ back.2, ¬IsFallback notice) → Action.Finds (rest back) fun r =>
      ∃ size, p.size.IsSize size ∧ ShowText r.1 size a ∧ ∀ notice ∈ r.2, ¬IsFallback notice := by
    rintro ⟨back, backs⟩ hbacks
    refine (finds_gravity hplace inset).bind ?_
    rintro _ rfl
    refine (notes_ofFault fun _ _ => trivial).andThen fun bounds => .pure ⟨size, hsize, ?_, ?_⟩
    · refine ⟨_, _, rfl, ⟨if bold then "_bold" else "", overlayText p.text, ?_, rfl⟩, rfl⟩
      split_ifs <;> simp
    · exact List.forall_mem_append.mpr ⟨hcolors, hbacks⟩
  split_ifs with hbackground
  · refine (notes_ofFault fun _ h => h).bind fun back hback => hrest back ?_
    rcases colorPart_eq_ok hback with ⟨_, _, -, -, rfl⟩ | rfl
    · exact List.forall_mem_nil _
    · rw [List.forall_mem_singleton, String.append_assoc]
      exact not_isFallback_color.2
  · exact hrest ([], []) (List.forall_mem_nil _)

theorem finds_previewOperation {looks : Looks} {edit : Edit} {resource : Resource}
    (hedit : edit = .addText p ∨ edit = .customText p) (hsize : p.size.IsExplicitSize)
    (hplace : choiceKey p.position = a.name) :
    Action.Finds (previewOperation ⟨.default, looks⟩ ⟨edit, window⟩ resource) fun d =>
      ∃ size, p.size.IsSize size ∧ d.Shows size a := by
  have htext : Action.Finds (previewEdit ⟨.default, looks⟩ window edit) fun r =>
      ∃ size, p.size.IsSize size ∧ ShowText r.1 size a ∧ ∀ notice ∈ r.2, ¬IsFallback notice := by
    rcases hedit with rfl | rfl <;> exact finds_previewText hsize hplace
  have hkind : edit.kind.isText = true := by
    rcases hedit with rfl | rfl <;> rfl
  refine htext.bind ?_
  rintro ⟨steps, warnings⟩ ⟨size, hsize, hsteps, hwarnings⟩
  dsimp -zeta only
  extract_lets notices d
  have hnotices : notices = [] := by
    cases window with
    | none => rfl
    | some w => exact if_pos hkind
  have hd : d.Shows size a := by
    refine ⟨hsteps, ?_⟩
    dsimp only [d]
    rw [hnotices, List.append_nil]
    exact hwarnings
  clear_value d
  rw [hnotices]
  refine (notes_warnAll (List.forall_mem_nil _)).andThen fun _ => ?_
  exact (notes_ofFault fun _ _ => trivial).andThen fun _ => .pure ⟨size, hsize, hd⟩

end Studio

/-! ## Accepted texts -/

section

variable {k : Kind} {fs : Fields} {given : Value} (hk : k.isText = true)
  (h : fieldProblems k fs = .ok [])

include hk h

theorem isExplicitSize_of_accepted (hsize : fs.first? ["fontSize", "size"] = some given) :
    (TextParams.ofFields fs).size.IsExplicitSize := by
  obtain ⟨key, hproblems⟩ := FieldSpec.exists_valueProblems h
    (mem_checkedFields_of_isText hk (.tail _ (.tail _ (.head _)))) hsize
  have hgiven : given.IsExplicitSize :=
    FieldSpec.isExplicitSize_of_sizeProblems rfl rfl rfl hproblems
  rw [TextParams.ofFields, Fields.value, hsize, Option.getD_some]
  exact hgiven.wholeSize

theorem exists_anchor_of_accepted (hplace : fs.first? ["position"] = some given) :
    ∃ a : Anchor, given.choiceKey = a.name ∧
      choiceKey (TextParams.ofFields fs).position = a.name := by
  obtain ⟨key, hproblems⟩ := FieldSpec.exists_valueProblems h
    (mem_checkedFields_of_isText hk (.tail _ (.head _))) hplace
  cases given with
  | string s =>
      obtain ⟨a, ha⟩ := FieldSpec.exists_anchor_of_textProblems rfl (Except.ok.inj hproblems)
      have htruthy : (Value.string s).isTruthy = true := Fields.isPresent_of_first? hplace
      have hposition : (TextParams.ofFields fs).position = s := by
        rw [TextParams.ofFields]
        dsimp only
        rw [Fields.text, hplace]
        rfl
      rw [Value.choiceKey, if_pos htruthy, hposition]
      exact ⟨a, ha, ha⟩
  | _ => simp [FieldSpec.valueProblems, FieldSpec.textProblems] at hproblems

end

theorem Edit.eq_text_of_ofFields {k : Kind} {fs : Fields} {edit : Edit} (hk : k.isText = true)
    (h : Edit.ofFields k fs = .ok edit) :
    edit = .addText (.ofFields fs) ∨ edit = .customText (.ofFields fs) := by
  cases k with
  | addText => exact .inl (Except.ok.inj h).symm
  | customText => exact .inr (Except.ok.inj h).symm
  | _ => cases hk

namespace Studio

section

variable {looks : Looks} {kind : Value} {k : Kind} {fs : Fields} {window : Option Window}
  {size : Int} {a : Anchor} (hkind : Kind.ofValue? kind = some k) (hk : k.isText = true)
  (hplace : choiceKey (TextParams.ofFields fs).position = a.name)

include hkind hk hplace

theorem finds_compile (hsize : (TextParams.ofFields fs).size.IsSize size) :
    Action.Finds (compile ⟨.default, looks⟩ kind (.object fs) window) fun e => e.Shows size a := by
  refine (notes_ofFailure fun o ho => ho).bind fun o ho => ?_
  have hbuilt := Operation.edit_of_ofFields ((operationOf_eq_ok_iff hkind).mp ho)
  exact finds_compileOperation (Edit.eq_text_of_ofFields hk hbuilt) hsize hplace

theorem finds_preview {resource : Resource}
    (hsize : (TextParams.ofFields fs).size.IsExplicitSize) :
    Action.Finds (preview ⟨.default, looks⟩ kind (.object fs) window resource) fun d =>
      ∃ size, (TextParams.ofFields fs).size.IsSize size ∧ d.Shows size a := by
  refine (notes_ofFailure fun o ho => ho).bind fun o ho => ?_
  have hbuilt := Operation.edit_of_ofFields ((operationOf_eq_ok_iff hkind).mp ho)
  exact finds_previewOperation (Edit.eq_text_of_ofFields hk hbuilt) hsize hplace

end

/-- **Both renderings of an accepted text** show it in one size and in one place. With the settings
by default, a size and a place that are given and pass the check are honoured alike by the renderer
and by the preview service: both compilers take the same whole number for the size, neither of them
notes that a size or a place is not known, and both put the text where its place is. -/
theorem exists_shows {s : Studio} (hs : Studio.of .default = .ok s) {kind : Value} {k : Kind}
    {fs : Fields} {verdict : Verdict} {givenSize givenPlace : Value}
    {window window' : Option Window} {resource : Resource} {σ τ σ' τ' : Session} {e : Expression}
    {d : Descriptor}
    (hkind : Kind.ofValue? kind = some k) (hk : k.isText = true)
    (hverdict : validate kind (.object fs) = .ok verdict) (hvalid : verdict.valid = true)
    (hsize : fs.first? ["fontSize", "size"] = some givenSize)
    (hplace : fs.first? ["position"] = some givenPlace)
    (hcompile : (s.compile kind (.object fs) window).exec σ = (.ok e, τ))
    (hpreview : (s.preview kind (.object fs) window' resource).exec σ' = (.ok d, τ')) :
    ∃ size a, 12 ≤ size ∧ size ≤ 120 ∧ givenPlace.choiceKey = a.name ∧
      (e.Shows size a ∧ Session.Noted (fun entry => ¬IsFallback entry.text) σ τ) ∧
      (d.Shows size a ∧ Session.Noted (fun entry => ¬IsFallback entry.text) σ' τ') := by
  obtain rfl := Except.ok.inj (hs.symm.trans of_default)
  have haccepted := fieldProblems_of_valid hkind hverdict hvalid
  have hchecked := isExplicitSize_of_accepted hk haccepted hsize
  obtain ⟨a, hname, hposition⟩ := exists_anchor_of_accepted hk haccepted hplace
  obtain ⟨hnoted', hshows'⟩ := finds_preview hkind hk hposition hchecked σ'
  rw [hpreview] at hnoted' hshows'
  obtain ⟨size, hread, hd⟩ := hshows' d rfl
  obtain ⟨hnoted, hshows⟩ := finds_compile hkind hk hposition hread σ
  rw [hcompile] at hnoted hshows
  exact ⟨size, a, hread.low, hread.high, hname, ⟨hshows e rfl, hnoted⟩, hd, hnoted'⟩

end Studio

/-! ## Fonts where nothing is stored -/

namespace Storage

variable {base : String} {patterns : List String} {dirs : List Path} {files : Storage}

theorem faceInFirst_eq_none (h : ∀ dir ∈ dirs, files.exists? dir = .ok false) :
    files.faceInFirst base patterns dirs = .ok none := by
  induction dirs with
  | nil => rfl
  | cons dir dirs ih =>
      obtain ⟨hdir, hdirs⟩ := List.forall_mem_cons.mp h
      rw [faceInFirst, hdir]
      exact ih hdirs

/-- Nothing is found under a name where nothing is stored. -/
theorem exists?_empty {name : String} (hname : Path.ofString name = ⟨"", [name]⟩)
    (hsize : (⟨"", [name]⟩ : Path).text.utf8ByteSize ≤ maxPath)
    (hpart : name ≠ ".." ∧ name.utf8ByteSize ≤ maxName ∧ '\x00' ∉ name.toList) :
    empty.exists? (.ofString name) = .ok false := by
  have hlocate : empty.locate ⟨"", [name]⟩ = .at [name] := locate_name hsize hpart
  rw [hname, exists?_eq_ok (by rw [hlocate]; simp), lookup, hlocate]
  rfl

/-- No font is found where nothing is stored. -/
theorem resolveFont_empty : empty.resolveFont (.string "Arial") none = .ok none := by
  have hfont : empty.exists? (.ofString "Arial") = .ok false :=
    exists?_empty (by decide) (by decide) (by decide)
  have hdirs : ∀ dir ∈ projectFonts :: [] ++ systemFonts, empty.exists? dir = .ok false := by
    intro dir hdir
    fin_cases hdir
    · exact exists?_empty (by decide) (by decide) (by decide)
    · exact exists?_empty (by decide) (by decide) (by decide)
  have hfound : empty.findFont "Arial" [] = .ok none := by
    rw [findFont, hfont]
    exact faceInFirst_eq_none hdirs
  exact Outcome.bind_eq_ok.mpr ⟨false, rfl, Outcome.bind_eq_ok.mpr ⟨none, hfound, rfl⟩⟩

end Storage

/-! ## A title -/

namespace Studio

/-- The fields of a title, with blanks around the digits of its size and the name of its place in
two words. -/
def titleFields : Fields :=
  [("text", .string "Hi"), ("size", .string " 48 "), ("position", .string "Top Left")]

theorem exists_exec_compile_title (looks : Looks) : ∃ e τ,
    (compile ⟨.default, looks⟩ (.string "addText") (.object titleFields) none).exec
      (.of .empty [] []) = (.ok e, τ) := by
  let p : TextParams := ⟨"Hi", "Top Left", .string " 48 ", "white", .null, .null, .null⟩
  have hbuilt : Operation.ofFields .addText titleFields none = .ok ⟨.addText p, none⟩ := by
    rw [Operation.ofFields_eq]
    rfl
  have hop : operationOf (.string "addText") (.object titleFields) none = .ok ⟨.addText p, none⟩ :=
    (operationOf_eq_ok_iff (Kind.ofValue?_name .addText)).mpr hbuilt
  have hchecked : p.IsChecked := {
    size := fun _ => ⟨48, by decide +kernel, by decide, by decide⟩
    color := by decide
    background := trivial
    style := trivial }
  have hfits : p.FilterFits .default .empty := {
    size := by decide +kernel
    margin := by decide +kernel
    font := congrArg Except.isOk Storage.resolveFont_empty
    color := .inl (by decide +kernel) }
  obtain ⟨e, τ, he, -⟩ :=
    (hinges_compileText (s := ⟨.default, looks⟩) (σ := .of .empty [] []) hchecked).yields hfits
  refine ⟨e, τ, ?_⟩
  rw [compile, hop, exec_bind_of_ok (exec_ofFailure _)]
  exact exec_bind_of_ok he

/-- **A title** is rendered in one size and in one place. -/
theorem exists_shows_title :
    let s : Studio := ⟨.default, .builtIn⟩
    let σ : Session := .of .empty [] []
    Studio.of .default = .ok s ∧
      validate (.string "addText") (.object titleFields) = .ok .accepted ∧
      ∃ e τ d τ', (s.compile (.string "addText") (.object titleFields) none).exec σ = (.ok e, τ) ∧
        (s.preview (.string "addText") (.object titleFields) none .video).exec σ = (.ok d, τ') ∧
        ∃ size a, 12 ≤ size ∧ size ≤ 120 ∧ (Value.string "Top Left").choiceKey = a.name ∧
          (e.Shows size a ∧ Session.Noted (fun entry => ¬IsFallback entry.text) σ τ) ∧
          (d.Shows size a ∧ Session.Noted (fun entry => ¬IsFallback entry.text) σ τ') := by
  intro s σ
  have haccepted : validate (.string "addText") (.object titleFields) = .ok .accepted := by
    decide +kernel
  have hpreview :
      ((s.preview (.string "addText") (.object titleFields) none .video).exec σ).1.isOk = true := by
    decide +kernel
  obtain ⟨e, τ, he⟩ := exists_exec_compile_title .builtIn
  obtain ⟨d, τ', hd⟩ := exists_exec_of_isOk hpreview
  exact ⟨of_default, haccepted, e, τ, d, τ', he, hd,
    exists_shows of_default (Kind.ofValue?_name .addText) rfl haccepted rfl rfl rfl he hd⟩

end Studio

end Montage
