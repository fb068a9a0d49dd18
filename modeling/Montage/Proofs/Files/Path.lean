import Montage.Files.Path
import Mathlib.Data.List.Basic

/-!
# Paths and their texts

A path that was read from a text is well formed: no component is empty, a single dot, or contains a
separator. A well-formed path is read back from its text.

## Main definitions

* `Path.IsPart`, `Path.WellFormed`: the components and the paths that texts name.
* `Path.place`: where a path leads when double dots are taken back, whatever is stored.

## Main statements

* `Path.ofString_text`: a well-formed path is read back from its text.
* `Path.wellFormed_ofString`: every text names a well-formed path.
* `Path.cutName_append`: the stem and the suffix make up the name.
-/
namespace Montage.Path

/-- A text that can be one component of a path. -/
def IsPart (w : String) : Prop := w ≠ "" ∧ w ≠ "." ∧ '/' ∉ w.toList

instance (w : String) : Decidable (IsPart w) := inferInstanceAs (Decidable (_ ∧ _ ∧ _))

/-- The path is one that a text names. -/
structure WellFormed (p : Path) : Prop where
  root : p.root ∈ ["", "/", "//"]
  parts : ∀ w ∈ p.parts, IsPart w

/-- One component further from a place; a double dot leads back. -/
def step (place : List String) (part : String) : List String :=
  if part = ".." then place.dropLast else place ++ [part]

/-- Where the path leads when double dots are taken back. -/
def place (p : Path) : List String := p.parts.foldl step []

variable {p : Path} {w : String} {cs ds : List Char} {parts : List String}

theorem splitAt_ne_nil (sep : Char) : splitAt sep cs ≠ [] := by
  cases cs with
  | nil => simp [splitAt]
  | cons c cs =>
      rw [splitAt]
      cases splitAt sep cs with
      | nil => simp
      | cons w ws =>
          dsimp only
          split_ifs <;> exact List.cons_ne_nil _ _

theorem splitAt_of_notMem {sep : Char} (h : sep ∉ cs) : splitAt sep cs = [cs] := by
  induction cs with
  | nil => rfl
  | cons c cs ih =>
      obtain ⟨hc, hcs⟩ : sep ≠ c ∧ sep ∉ cs := by simpa using h
      rw [splitAt, ih hcs]
      exact if_neg (Ne.symm hc)

theorem splitAt_append {sep : Char} (h : sep ∉ cs) :
    splitAt sep (cs ++ sep :: ds) = cs :: splitAt sep ds := by
  induction cs with
  | nil =>
      rw [List.nil_append, splitAt]
      cases hds : splitAt sep ds with
      | nil => exact absurd hds (splitAt_ne_nil sep)
      | cons w ws => exact if_pos rfl
  | cons c cs ih =>
      obtain ⟨hc, hcs⟩ : sep ≠ c ∧ sep ∉ cs := by simpa using h
      rw [List.cons_append, splitAt, ih hcs]
      exact if_neg (Ne.symm hc)

theorem notMem_of_mem_splitAt {sep : Char} (h : ds ∈ splitAt sep cs) : sep ∉ ds := by
  induction cs generalizing ds with
  | nil =>
      rw [splitAt, List.mem_singleton] at h
      rw [h]
      exact List.not_mem_nil
  | cons c cs ih =>
      rw [splitAt] at h
      cases hcs : splitAt sep cs with
      | nil => exact absurd hcs (splitAt_ne_nil sep)
      | cons w ws =>
          rw [hcs] at h ih
          dsimp only at h
          split_ifs at h with hc
          · rcases List.mem_cons.mp h with rfl | h
            · exact List.not_mem_nil
            · exact ih h
          · rcases List.mem_cons.mp h with rfl | h
            · exact List.not_mem_cons_of_ne_of_not_mem (Ne.symm hc) (ih List.mem_cons_self)
            · exact ih (List.mem_cons_of_mem _ h)

/-- A text is split into one part just if it has no separator. -/
theorem splitAt_eq_singleton_iff {sep : Char} : splitAt sep cs = [ds] ↔ cs = ds ∧ sep ∉ cs := by
  constructor
  · intro h
    by_cases hsep : sep ∈ cs
    · obtain ⟨as, bs, rfl, has⟩ := List.eq_append_cons_of_mem hsep
      rw [splitAt_append has] at h
      exact absurd (List.tail_eq_of_cons_eq h) (splitAt_ne_nil sep)
    · rw [splitAt_of_notMem hsep] at h
      exact ⟨List.head_eq_of_cons_eq h, hsep⟩
  · rintro ⟨rfl, hsep⟩
    exact splitAt_of_notMem hsep

/-- A text is split into two parts just if it has one separator, between them. -/
theorem splitAt_eq_pair_iff {sep : Char} {es : List Char} :
    splitAt sep cs = [ds, es] ↔ cs = ds ++ sep :: es ∧ sep ∉ ds ∧ sep ∉ es := by
  constructor
  · intro h
    by_cases hsep : sep ∈ cs
    · obtain ⟨as, bs, rfl, has⟩ := List.eq_append_cons_of_mem hsep
      rw [splitAt_append has] at h
      obtain rfl := List.head_eq_of_cons_eq h
      obtain ⟨rfl, hbs⟩ := splitAt_eq_singleton_iff.mp (List.tail_eq_of_cons_eq h)
      exact ⟨rfl, has, hbs⟩
    · rw [splitAt_of_notMem hsep] at h
      cases h
  · rintro ⟨rfl, hds, hes⟩
    rw [splitAt_append hds, splitAt_of_notMem hes]

theorem components_of_isPart (h : IsPart w) : components w.toList = [w] := by
  rw [components, splitAt_of_notMem h.2.2]
  simp [h.1, h.2.1]

theorem components_append (h : IsPart w) :
    components (w.toList ++ '/' :: cs) = w :: components cs := by
  rw [components, splitAt_append h.2.2, components]
  simp [h.1, h.2.1]

/-- A separator in front does not count. -/
theorem components_sep : components ('/' :: cs) = components cs := by
  have h : splitAt '/' ([] ++ '/' :: cs) = [] :: splitAt '/' cs := splitAt_append List.not_mem_nil
  rw [components, ← List.nil_append ('/' :: cs), h]
  rfl

theorem components_intercalate (h : ∀ w ∈ parts, IsPart w) :
    components ("/".intercalate parts).toList = parts := by
  induction parts with
  | nil => rfl
  | cons w parts ih =>
      obtain ⟨hw, hparts⟩ := List.forall_mem_cons.mp h
      by_cases hnil : parts = []
      · rw [hnil, String.intercalate_singleton, components_of_isPart hw]
      · have htext : ("/".intercalate (w :: parts)).toList =
            w.toList ++ '/' :: ("/".intercalate parts).toList := by
          rw [String.intercalate_cons_of_ne_nil hnil]
          simp
        rw [htext, components_append hw, ih hparts]

/-- The text of components does not begin with a separator. -/
theorem head?_intercalate (h : ∀ w ∈ parts, IsPart w) :
    ("/".intercalate parts).toList.head? ≠ some '/' := by
  cases parts with
  | nil => simp
  | cons w parts =>
      obtain ⟨hw, -⟩ := List.forall_mem_cons.mp h
      have hhead : w.toList.head? ≠ some '/' := fun hhead => hw.2.2 (List.mem_of_head? hhead)
      have hne : w.toList ≠ [] := fun hnil => hw.1 (String.toList_inj.mp hnil)
      by_cases hnil : parts = []
      · rwa [hnil, String.intercalate_singleton]
      · rw [String.intercalate_cons_of_ne_nil hnil, String.toList_append, String.toList_append,
          List.append_assoc, List.head?_append_of_ne_nil _ hne]
        exact hhead

theorem rootOf_of_head? (h : cs.head? ≠ some '/') : rootOf cs = "" := by
  cases cs with
  | nil => rfl
  | cons c cs =>
      have hc : c ≠ '/' := fun hc => h (by rw [hc]; rfl)
      simp [rootOf, hc]

theorem rootOf_slash (h : cs.head? ≠ some '/') : rootOf ('/' :: cs) = "/" := by
  cases cs with
  | nil => rfl
  | cons c cs =>
      have hc : c ≠ '/' := fun hc => h (by rw [hc]; rfl)
      simp [rootOf, hc]

theorem rootOf_slashes (h : cs.head? ≠ some '/') : rootOf ('/' :: '/' :: cs) = "//" := by
  cases cs with
  | nil => rfl
  | cons c cs =>
      have hc : c ≠ '/' := fun hc => h (by rw [hc]; rfl)
      simp [rootOf, hc]

/-- **A path is read back** from its text. -/
theorem ofString_text (h : p.WellFormed) : ofString p.text = p := by
  obtain ⟨root, parts⟩ := p
  obtain ⟨hroot, hparts⟩ := h
  have hcomponents := components_intercalate hparts
  have hhead := head?_intercalate hparts
  simp only [List.mem_cons, List.not_mem_nil, or_false] at hroot
  rcases hroot with rfl | rfl | rfl
  · by_cases hnil : parts = []
    · subst hnil
      rfl
    · have htext : text ⟨"", parts⟩ = "/".intercalate parts := by simp [text, hnil]
      rw [htext, ofString, hcomponents, rootOf_of_head? hhead]
  · have htext : (text ⟨"/", parts⟩).toList = '/' :: ("/".intercalate parts).toList := by
      simp [text]
    rw [ofString, htext, components_sep, hcomponents, rootOf_slash hhead]
  · have htext : (text ⟨"//", parts⟩).toList = '/' :: '/' :: ("/".intercalate parts).toList := by
      simp [text]
    rw [ofString, htext, components_sep, components_sep, hcomponents, rootOf_slashes hhead]

/-- **Every text** names a well-formed path. -/
theorem wellFormed_ofString (s : String) : (ofString s).WellFormed where
  root := by
    rw [ofString]
    dsimp only
    unfold rootOf
    split <;> simp
  parts w hw := by
    obtain ⟨hmem, hw⟩ := List.mem_filter.mp hw
    obtain ⟨cs, hcs, rfl⟩ := List.mem_map.mp hmem
    obtain ⟨hne, hdot⟩ : String.ofList cs ≠ "" ∧ String.ofList cs ≠ "." := by simpa using hw
    exact ⟨hne, hdot, by rw [String.toList_ofList]; exact notMem_of_mem_splitAt hcs⟩

/-- What stands before and after the last dot. -/
theorem exists_append_of_length_ne {tail : List Char}
    (htail : tail = (cs.reverse.takeWhile (· ≠ '.')).reverse) (h : tail.length ≠ cs.length) :
    ∃ head, cs = head ++ '.' :: tail := by
  have hsplit := List.takeWhile_append_dropWhile (p := fun c => decide (c ≠ '.')) (l := cs.reverse)
  cases hrest : cs.reverse.dropWhile (· ≠ '.') with
  | nil =>
      rw [hrest, List.append_nil] at hsplit
      rw [htail, hsplit, List.reverse_reverse] at h
      exact absurd rfl h
  | cons c rest =>
      have hc : c = '.' := by
        have hhead := List.head?_dropWhile_not (fun c => decide (c ≠ '.')) cs.reverse
        rw [hrest] at hhead
        simpa using hhead
      refine ⟨rest.reverse, ?_⟩
      rw [hrest, hc] at hsplit
      rw [htail]
      calc cs = cs.reverse.reverse := cs.reverse_reverse.symm
        _ = (cs.reverse.takeWhile (· ≠ '.') ++ '.' :: rest).reverse := by rw [hsplit]
        _ = _ := by simp

/-- **The stem and the suffix** make up the name. -/
theorem cutName_append (name : String) : (cutName name).1 ++ (cutName name).2 = name := by
  simp only [cutName]
  split_ifs with h
  · exact String.append_empty
  · have hlength : ((name.toList.reverse.takeWhile (· ≠ '.')).reverse).length ≠
        name.toList.length := fun hlength => h (by rw [hlength]; simp)
    obtain ⟨head, hhead⟩ := exists_append_of_length_ne rfl hlength
    generalize (name.toList.reverse.takeWhile (· ≠ '.')).reverse = tail at hhead ⊢
    have htake : name.toList.take (name.toList.length - tail.length - 1) = head := by
      have hcount : name.toList.length - tail.length - 1 = head.length := by
        rw [hhead, List.length_append, List.length_cons]
        omega
      rw [hcount, hhead, List.take_left]
    rw [htake, ← String.toList_inj, String.toList_append, String.toList_ofList,
      String.toList_ofList, hhead]

end Montage.Path
