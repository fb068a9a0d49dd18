import Mathlib.Tactic
import Montage.Preview.Steps
import Montage.Proofs.Look.Table
import Montage.Proofs.Outcome
import Montage.Proofs.Preview.Encoding

/-!
# Reading steps off a preview URL

A reader of a URL splits it at slashes into steps, and these at commas into parameters. What it
finds are the steps that the URL was made of, unless a value among them has a separator of its own.

## Main definitions

* `Descriptor.Separates`: the descriptors whose steps can be read off the URL.
* `AreUnbroken`: the steps without a separator in a value.

## Main statements

* `splitOn_intercalate_iff`: what is joined twice is found by splitting twice.
* `Descriptor.separates_iff`: the steps can be read off just if no value has a separator.
-/
namespace Montage

/-! ## Splitting at separators -/

section

variable {sep : Char} {cs part : List Char}

/-- A part of a split text has characters of the text, and not the one that it was split at. -/
theorem forall_mem_of_mem_splitOn (h : part ∈ cs.splitOn sep) : ∀ c ∈ part, c ∈ cs ∧ c ≠ sep := by
  induction cs generalizing part with
  | nil =>
      rw [List.splitOn_nil, List.mem_singleton] at h
      subst h
      exact nofun
  | cons d cs ih =>
      have hpart : ∀ part ∈ cs.splitOn sep, ∀ c ∈ part, c ∈ d :: cs ∧ c ≠ sep :=
        fun part hp c hc => (ih hp c hc).imp_left (List.mem_cons_of_mem d)
      rw [List.splitOn_cons_eq_if_modifyHead] at h
      split at h
      · rcases List.mem_cons.mp h with rfl | h
        · exact nofun
        · exact hpart part h
      · next hd =>
        obtain ⟨first, rest, hsplit⟩ := List.exists_cons_of_ne_nil (List.splitOn_ne_nil sep cs)
        rw [hsplit] at h hpart
        rw [List.modifyHead_cons] at h
        rcases List.mem_cons.mp h with rfl | h
        · refine List.forall_mem_cons.mpr ⟨⟨List.mem_cons_self, ?_⟩, hpart _ List.mem_cons_self⟩
          simpa using hd
        · exact hpart part (List.mem_cons_of_mem first h)

theorem eq_or_mem_of_mem_intercalate {parts : List (List Char)} {c : Char}
    (h : c ∈ [sep].intercalate parts) : c = sep ∨ ∃ part ∈ parts, c ∈ part := by
  induction parts with
  | nil => cases h
  | cons first parts ih =>
      cases parts with
      | nil => exact .inr ⟨first, List.mem_cons_self, by simpa using h⟩
      | cons second parts =>
          rw [List.intercalate_cons_cons, List.mem_append, List.mem_append,
            List.mem_singleton] at h
          rcases h with (h | h) | h
          · exact .inr ⟨first, List.mem_cons_self, h⟩
          · exact .inl h
          · exact (ih h).imp_right fun ⟨part, hpart, hc⟩ =>
              ⟨part, List.mem_cons_of_mem first hpart, hc⟩

/-- **What is joined twice is found by splitting twice**, just if no part has a separator. -/
theorem splitOn_intercalate_iff {steps : List (List (List Char))} (hsteps : steps ≠ [])
    (hfull : ∀ step ∈ steps, step ≠ []) :
    ((['/'].intercalate (steps.map [','].intercalate)).splitOn '/').map (·.splitOn ',') = steps ↔
      ∀ step ∈ steps, ∀ part ∈ step, ∀ c ∈ separators, c ∉ part := by
  constructor
  · -- What is found by splitting has no separator, and it is what was joined.
    intro h step hstep part hpart
    rw [← h] at hstep
    obtain ⟨component, hcomponent, rfl⟩ := List.mem_map.mp hstep
    have hsplit := forall_mem_of_mem_splitOn hpart
    refine List.forall_mem_cons.mpr ⟨fun hc => (hsplit _ hc).2 rfl,
      List.forall_mem_singleton.mpr fun hc => ?_⟩
    exact (forall_mem_of_mem_splitOn hcomponent _ (hsplit _ hc).1).2 rfl
  · intro h
    have hslash : ∀ component ∈ steps.map [','].intercalate, '/' ∉ component := by
      intro component hcomponent hmem
      obtain ⟨step, hstep, rfl⟩ := List.mem_map.mp hcomponent
      rcases eq_or_mem_of_mem_intercalate hmem with hc | ⟨part, hpart, hc⟩
      · cases hc
      · exact h step hstep part hpart '/' (by simp [separators]) hc
    have hcomma : ∀ step ∈ steps, ([','].intercalate step).splitOn ',' = step := fun step hstep =>
      List.splitOn_intercalate ',' (fun part hpart => h step hstep part hpart ',' (by
        simp [separators])) (hfull step hstep)
    rw [List.splitOn_intercalate '/' hslash (by simpa using hsteps), List.map_map]
    calc steps.map ((·.splitOn ',') ∘ [','].intercalate)
        = steps.map id := List.map_congr_left hcomma
      _ = steps := List.map_id steps

end

/-! ## Reading the steps off a URL -/

/-- No value in the steps has a separator. -/
def AreUnbroken (steps : List Fields) : Prop :=
  ∀ step ∈ steps, ∀ f ∈ step, IsUnbroken f.2.text

instance (steps : List Fields) : Decidable (AreUnbroken steps) :=
  inferInstanceAs (Decidable (∀ step ∈ steps, ∀ f ∈ step, IsUnbroken f.2.text))

namespace Descriptor

/-- The parameters of each step as they stand in a URL. -/
def parts (d : Descriptor) : Except Fault (List (List String)) :=
  d.steps.mapM fun step => step.mapM stepPart

/-- Whoever splits the URL at slashes, and what is between them at commas, finds the parameters of
each step. -/
def Separates (d : Descriptor) : Prop :=
  ∃ texts path, d.parts = .ok texts ∧ d.path = .ok path ∧
    (path.toList.splitOn '/').map (·.splitOn ',') = texts.map (·.map String.toList)

variable {d : Descriptor}

theorem path_eq_map_parts :
    d.path = d.parts.map fun texts => "/".intercalate (texts.map ",".intercalate) := by
  have hsteps : d.steps.mapM stepText = d.parts.map (List.map ",".intercalate) := by
    rw [parts, ← Outcome.mapM_map]
    rfl
  rw [path, hsteps]
  cases d.parts <;> rfl

theorem isUnbroken_stepPart_iff {f : String × Value} {part : String} (h : stepPart f = .ok part) :
    IsUnbroken part ↔ IsUnbroken f.2.text := by
  have hcodes : ∀ entry ∈ stepCodes, IsUnbroken (entry.2 ++ "_") := by decide +kernel
  rw [stepPart] at h
  split at h
  · next code hcode =>
    have hunbroken : IsUnbroken (code ++ "_") := hcodes (f.1, code) (mem_of_lookup hcode)
    rw [← Except.ok.inj h, isUnbroken_append]
    exact and_iff_right hunbroken
  · cases h

theorem areUnbroken_iff {texts : List (List String)} (h : d.parts = .ok texts) :
    AreUnbroken d.steps ↔ ∀ step ∈ texts, ∀ part ∈ step, IsUnbroken part := by
  obtain ⟨hback, hforth⟩ := Outcome.mem_of_mapM h
  constructor
  · intro hsteps written hwritten part hpart
    obtain ⟨step, hstep, hok⟩ := hback written hwritten
    obtain ⟨f, hf, hpart⟩ := (Outcome.mem_of_mapM hok).1 part hpart
    exact (isUnbroken_stepPart_iff hpart).mpr (hsteps step hstep f hf)
  · intro htexts step hstep f hf
    obtain ⟨written, hwritten, hok⟩ := hforth step hstep
    obtain ⟨part, hpart, hf⟩ := (Outcome.mem_of_mapM hok).2 f hf
    exact (isUnbroken_stepPart_iff hf).mp (htexts written hwritten part hpart)

/-- **The steps can be read off a URL** just if no value in them has a separator. -/
theorem separates_iff {path : String} (hpath : d.path = .ok path) (hsteps : d.steps ≠ [])
    (hfull : ∀ step ∈ d.steps, step ≠ []) : d.Separates ↔ AreUnbroken d.steps := by
  obtain ⟨texts, htexts, hjoined⟩ := Outcome.map_eq_ok.mp (path_eq_map_parts.symm.trans hpath)
  have hseparates : d.Separates ↔
      (path.toList.splitOn '/').map (·.splitOn ',') = texts.map (·.map String.toList) := by
    refine ⟨?_, fun h => ⟨texts, path, htexts, hpath, h⟩⟩
    rintro ⟨texts', path', htexts', hpath', h⟩
    obtain rfl := Except.ok.inj (htexts.symm.trans htexts')
    obtain rfl := Except.ok.inj (hpath.symm.trans hpath')
    exact h
  have hlist : path.toList =
      ['/'].intercalate ((texts.map (·.map String.toList)).map [','].intercalate) := by
    rw [← hjoined]
    simp [String.toList_intercalate, Function.comp_def]
  have hne : texts ≠ [] := Outcome.ne_nil_of_mapM htexts hsteps
  have hfull : ∀ step ∈ texts, step ≠ [] := by
    intro written hwritten
    obtain ⟨step, hstep, hok⟩ := (Outcome.mem_of_mapM htexts).1 written hwritten
    exact Outcome.ne_nil_of_mapM hok (hfull step hstep)
  rw [hseparates, hlist, splitOn_intercalate_iff (by simpa using hne) (by simpa using hfull),
    areUnbroken_iff htexts]
  simp only [List.forall_mem_map, IsUnbroken]

end Descriptor

end Montage
