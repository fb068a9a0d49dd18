import Mathlib.Data.Set.Insert
import Montage.Files.Storage
import Montage.Proofs.Files.Path
import Montage.Proofs.Outcome

/-!
# What the operations on files change

Where a path leads is fixed by its components, as far as it leads anywhere at all. Each operation
changes the place of its own path only, and no directory goes away, so that paths that lead
somewhere go on leading there.

## Main definitions

* `Storage.Changed`: one storage is another one with changes in some places, and new directories.
* `Storage.Holds`: a file holds a text.
* `Storage.HasFile`, `Storage.TakesFile`: there is a file under a path, or a place for one.
* `Storage.Spares`: a file stays what it is.

## Main statements

* `Storage.locate_eq_place`: where a path leads.
* `Storage.Changed.trans`, `Storage.Changed.spares`: several changes, and files that are spared.
* `Storage.changed_of_write`, `Storage.changed_of_remove`, `Storage.changed_of_copy`,
  `Storage.changed_of_makeDirs`: what each operation changes.
* `Storage.makeDirs_again`: directories that are made already.
* `Storage.isOk_write_iff`, `Storage.isOk_copy_iff`, `Storage.exists_write`, `Storage.exists_copy`,
  `Storage.exists_remove`: when writing, copying and removing succeed.
* `Storage.readLines_of_holds`: what is read of a file line by line.
-/
namespace Montage.Storage

/-- The second storage is the first one with changes in the places `W`. Outside of them only
directories are new, in places of `D`. -/
structure Changed (W D : Set Place) (f g : Storage) : Prop where
  others : ∀ q ∉ W, g.entry? q = f.entry? q ∨
    f.entry? q = none ∧ q ∈ D ∧ g.entry? q = some .directory
  directories : ∀ q, f.entry? q = some .directory → g.entry? q = some .directory

/-- The file under a path holds a text. -/
def Holds (f : Storage) (p : Path) (text : String) : Prop := f.read p p.text = .ok text

/-- There is a file under a path. -/
def HasFile (f : Storage) (p : Path) : Prop := ∃ e, f.lookup p = some e ∧ e ≠ .directory

/-- If there is a file under a path, it is the same one in the second storage. -/
def Spares (p : Path) (f g : Storage) : Prop := f.HasFile p → g.lookup p = f.lookup p

/-- A path leads to a place for a file: in a directory, and no directory itself. -/
structure TakesFile (f : Storage) (p : Path) : Prop where
  leads : f.locate p = .at p.place
  free : f.entry? p.place ≠ some .directory
  inside : f.entry? p.place.dropLast = some .directory

variable {f g h : Storage} {p : Path} {q r : Place} {e : Entry} {W W' D : Set Place}
  {shown text : String} {parts : List String}

theorem lookup_cons {d : Entry} (es : List (Place × Entry)) :
    ((q, d) :: es).lookup r = if r = q then some d else es.lookup r := by
  rw [List.lookup_cons]
  by_cases hr : r = q
  · simp [hr]
  · rw [beq_eq_false_iff_ne.mpr hr, if_neg hr]

theorem lookup_replace (es : List (Place × Entry)) :
    (replace q e es).lookup r = if r = q then some e else es.lookup r := by
  induction es with
  | nil => exact lookup_cons []
  | cons d es ih =>
      obtain ⟨p, d⟩ := d
      rw [replace]
      by_cases hp : p = q
      · rw [if_pos hp, hp, lookup_cons, lookup_cons]
        by_cases hr : r = q
        · rw [if_pos hr, if_pos hr]
        · rw [if_neg hr, if_neg hr, if_neg hr]
      · rw [if_neg hp, lookup_cons, lookup_cons, ih]
        by_cases hr : r = q
        · rw [if_pos hr, if_pos hr, if_neg fun h => hp (h.symm.trans hr)]
        · rw [if_neg hr, if_neg hr]

theorem lookup_filter_ne (es : List (Place × Entry)) :
    (es.filter fun d => d.1 ≠ q).lookup r = if r = q then none else es.lookup r := by
  induction es with
  | nil => simp
  | cons d es ih =>
      obtain ⟨p, d⟩ := d
      by_cases hp : p = q
      · rw [List.filter_cons_of_neg (by simpa using hp), ih, lookup_cons]
        by_cases hr : r = q
        · rw [if_pos hr, if_pos hr]
        · rw [if_neg hr, if_neg hr, if_neg fun h => hr (h.trans hp)]
      · rw [List.filter_cons_of_pos (by simpa using hp), lookup_cons, lookup_cons, ih]
        by_cases hr : r = q
        · rw [if_pos hr, if_pos hr, if_neg fun h => hp (h.symm.trans hr)]
        · rw [if_neg hr, if_neg hr]

theorem entry?_put (hq : q ≠ []) :
    Storage.entry? (f.put q e) r = if r = q then some e else f.entry? r := by
  unfold entry?
  rw [put]
  by_cases hr : r = []
  · rw [if_pos hr, if_pos hr, if_neg (by rw [hr]; exact hq.symm)]
  · rw [if_neg hr, if_neg hr, lookup_replace]

theorem entry?_delete (hq : q ≠ []) :
    Storage.entry? (f.delete q) r = if r = q then none else f.entry? r := by
  unfold entry?
  rw [delete]
  by_cases hr : r = []
  · rw [if_pos hr, if_pos hr, if_neg (by rw [hr]; exact hq.symm)]
  · rw [if_neg hr, if_neg hr, lookup_filter_ne]

theorem ne_nil_of_ne_directory (hq : f.entry? q ≠ some .directory) : q ≠ [] := by
  rintro rfl
  exact hq rfl

/-! ## Where paths lead -/

theorem follow_eq_foldl (hq : f.follow q parts = .at r) : r = parts.foldl Path.step q := by
  induction parts generalizing q with
  | nil => exact (Location.at.inj hq).symm
  | cons part parts ih =>
      rw [follow] at hq
      split at hq
      · split_ifs at hq with _ _ hup _
        · rw [List.foldl_cons, Path.step, if_pos hup]
          exact ih hq
        · rw [List.foldl_cons, Path.step, if_neg hup]
          exact ih hq
      · cases hq
      · cases hq

/-- **Where a path leads** does not depend on what is stored, if it leads anywhere. -/
theorem locate_eq_place (hp : f.locate p = .at q) : q = p.place := by
  rw [locate] at hp
  split_ifs at hp
  exact follow_eq_foldl hp

/-- Nothing is under a path if there is nothing in its place. -/
theorem lookup_eq_none (hp : f.entry? p.place = none) : f.lookup p = none := by
  rw [lookup]
  split
  · rename_i q hlocate
    rw [locate_eq_place hlocate, hp]
  · rfl

theorem follow_mono (hdir : ∀ q, f.entry? q = some .directory → g.entry? q = some .directory)
    (hq : f.follow q parts = .at r) : g.follow q parts = .at r := by
  induction parts generalizing q with
  | nil => exact hq
  | cons part parts ih =>
      rw [follow] at hq ⊢
      split at hq
      · rename_i hplace
        rw [hdir q hplace]
        dsimp only
        split_ifs at hq ⊢ with _ _ _ htop
        · exact ih hq
        · exact ih hq
      · cases hq
      · cases hq

theorem locate_mono (hdir : ∀ q, f.entry? q = some .directory → g.entry? q = some .directory)
    (hp : f.locate p = .at q) : g.locate p = .at q := by
  rw [locate] at hp ⊢
  split_ifs at hp ⊢
  exact follow_mono hdir hp

theorem follow_concat (last : String) :
    f.follow q (parts ++ [last]) = .at r ↔
      ∃ m, f.follow q parts = .at m ∧ f.follow m [last] = .at r := by
  induction parts generalizing q with
  | nil => simp [follow]
  | cons part parts ih =>
      rw [List.cons_append, follow, follow]
      split
      · split_ifs <;> simp [ih]
      · simp
      · simp

/-- Components that lead further one by one, through directories. -/
theorem follow_of_directories
    (hparts : ∀ part ∈ parts, part ≠ ".." ∧ part.utf8ByteSize ≤ maxName ∧ '\x00' ∉ part.toList)
    (hdirs : ∀ n < parts.length, f.entry? (q ++ parts.take n) = some .directory) :
    f.follow q parts = .at (q ++ parts) := by
  induction parts generalizing q with
  | nil => rw [follow, List.append_nil]
  | cons part parts ih =>
      obtain ⟨⟨hdots, hlength, hnul⟩, hparts⟩ := List.forall_mem_cons.mp hparts
      have hdir : f.entry? q = some .directory := by
        simpa using hdirs 0 (Nat.zero_lt_succ _)
      rw [follow, hdir]
      dsimp only
      rw [if_neg hlength.not_gt, String.contains_char_eq, if_neg (by simpa using hnul),
        if_neg hdots, ih hparts, List.append_assoc, List.singleton_append]
      intro n hn
      simpa using hdirs (n + 1) (Nat.succ_lt_succ hn)

/-- A relative path leads through directories to the place of its components. -/
theorem locate_of_directories (hroot : p.root = "") (hsize : p.text.utf8ByteSize ≤ maxPath)
    (hparts : ∀ part ∈ p.parts, part ≠ ".." ∧ part.utf8ByteSize ≤ maxName ∧ '\x00' ∉ part.toList)
    (hdirs : ∀ n < p.parts.length, f.entry? (p.parts.take n) = some .directory) :
    f.locate p = .at p.parts := by
  have hfollow : f.follow [] p.parts = .at ([] ++ p.parts) := by
    refine follow_of_directories hparts fun n hn => ?_
    rw [List.nil_append]
    exact hdirs n hn
  rw [locate, if_neg hsize.not_gt, if_neg (not_not.mpr hroot), hfollow, List.nil_append]

/-- A name alone leads to its place at the top. -/
theorem locate_name {name : String} (hsize : (⟨"", [name]⟩ : Path).text.utf8ByteSize ≤ maxPath)
    (hname : name ≠ ".." ∧ name.utf8ByteSize ≤ maxName ∧ '\x00' ∉ name.toList) :
    f.locate ⟨"", [name]⟩ = .at [name] := by
  refine locate_of_directories rfl hsize (by simpa using hname) fun n hn => ?_
  obtain rfl : n = 0 := Nat.lt_one_iff.mp hn
  rfl

theorem filePlace_eq_ok : f.filePlace p shown = .ok q ↔
    f.locate p = .at q ∧ f.entry? q ≠ some .directory := by
  rw [filePlace]
  cases f.locate p with
  | «at» place =>
      dsimp only
      split_ifs with hplace
      · simp only [false_iff, not_and, not_not, Location.at.injEq]
        rintro rfl
        exact hplace
      · constructor
        · intro h
          obtain rfl := Except.ok.inj h
          exact ⟨rfl, hplace⟩
        · rintro ⟨h, -⟩
          rw [Location.at.inj h]
  | _ => simp

/-- A file holds a text if its path leads to an entry with this text. -/
theorem holds_iff : f.Holds p text ↔ f.locate p = .at p.place ∧
    (f.entry? p.place = some (.text text) ∨ f.entry? p.place = some (.program text)) := by
  rw [Holds, read, Outcome.bind_eq_ok]
  constructor
  · rintro ⟨q, hq, hread⟩
    obtain ⟨hlocate, -⟩ := filePlace_eq_ok.mp hq
    obtain rfl := locate_eq_place hlocate
    refine ⟨hlocate, ?_⟩
    split at hread
    · rename_i t ht
      exact .inl (Except.ok.inj hread ▸ ht)
    · rename_i t ht
      exact .inr (Except.ok.inj hread ▸ ht)
    · cases hread
    · cases hread
  · rintro ⟨hlocate, hentry | hentry⟩
    · exact ⟨p.place, filePlace_eq_ok.mpr ⟨hlocate, by simp [hentry]⟩, by simp [hentry]⟩
    · exact ⟨p.place, filePlace_eq_ok.mpr ⟨hlocate, by simp [hentry]⟩, by simp [hentry]⟩

theorem exists?_of_holds (hp : f.Holds p text) : f.exists? p = .ok true := by
  obtain ⟨hlocate, hentry⟩ := holds_iff.mp hp
  rw [exists?, lookup, hlocate]
  rcases hentry with h | h <;> simp [h]

theorem holds_iff_lookup :
    f.Holds p text ↔ f.lookup p = some (.text text) ∨ f.lookup p = some (.program text) := by
  rw [holds_iff, lookup]
  constructor
  · intro ⟨hlocate, hentry⟩
    rw [hlocate]
    exact hentry
  · intro h
    split at h
    · rename_i q hlocate
      obtain rfl := locate_eq_place hlocate
      exact ⟨hlocate, h⟩
    · rcases h with h | h <;> cases h

theorem hasFile_of_holds (hp : f.Holds p text) : f.HasFile p := by
  rcases holds_iff_lookup.mp hp with h | h
  · exact ⟨_, h, nofun⟩
  · exact ⟨_, h, nofun⟩

/-! ## Changes -/

namespace Spares

theorem refl (p : Path) (f : Storage) : f.Spares p f := fun _ => rfl

theorem trans (hfg : Spares p f g) (hgh : Spares p g h) : Spares p f h := by
  intro hf
  have hsame := hfg hf
  have hg : g.HasFile p := by
    rw [HasFile, hsame]
    exact hf
  rw [hgh hg, hsame]

theorem holds (hfg : Spares p f g) (hf : f.Holds p text) : g.Holds p text := by
  rw [holds_iff_lookup, hfg (hasFile_of_holds hf)]
  exact holds_iff_lookup.mp hf

end Spares

namespace Changed

theorem refl (f : Storage) : Changed W D f f := ⟨fun _ _ => .inl rfl, fun _ h => h⟩

/-- **Several changes** in the same places. -/
theorem trans (hfg : Changed W D f g) (hgh : Changed W D g h) : Changed W D f h where
  others q hq := by
    rcases hgh.others q hq with hsame | ⟨hnone, hD, hnew⟩
    · rw [hsame]
      exact hfg.others q hq
    · rcases hfg.others q hq with hsame | ⟨-, -, hdir⟩
      · exact .inr ⟨hsame.symm.trans hnone, hD, hnew⟩
      · exact absurd (hnone.symm.trans hdir) nofun
  directories q hq := hgh.directories q (hfg.directories q hq)

theorem mono (hfg : Changed W D f g) (hW : W ⊆ W') : Changed W' D f g :=
  ⟨fun q hq => hfg.others q fun h => hq (hW h), hfg.directories⟩

/-- A place that is spared, and in which no directory is made, keeps its entry. -/
theorem entry?_eq (hfg : Changed W D f g) (hW : q ∉ W) (hD : q ∉ D) :
    g.entry? q = f.entry? q :=
  (hfg.others q hW).resolve_right fun h => hD h.2.1

/-- **A file that is spared** stays what it is. -/
theorem spares (hfg : Changed W D f g) (hp : p.place ∉ W) : f.Spares p g := by
  intro ⟨e, he, _⟩
  rw [lookup] at he
  split at he
  · rename_i q hlocate
    obtain rfl := locate_eq_place hlocate
    have hsame : g.entry? p.place = f.entry? p.place := by
      refine (hfg.others p.place hp).resolve_right fun ⟨hnone, _⟩ => ?_
      cases hnone.symm.trans he
    rw [lookup, lookup, hlocate, locate_mono hfg.directories hlocate]
    exact hsame
  · cases he

/-- A file that is spared holds what it held. -/
theorem holds (hfg : Changed W D f g) (hp : p.place ∉ W) (hf : f.Holds p text) :
    g.Holds p text := (hfg.spares hp).holds hf

end Changed

/-- What is put in the place of a file changes that place only. -/
theorem changed_put (hq : f.entry? q ≠ some .directory) : Changed {q} D f (f.put q e) where
  others r hr := .inl (by
    rw [entry?_put (ne_nil_of_ne_directory hq), if_neg (by simpa using hr)])
  directories r hr := by
    rw [entry?_put (ne_nil_of_ne_directory hq), if_neg, hr]
    rintro rfl
    exact hq hr

theorem changed_delete (hq : f.entry? q ≠ some .directory) : Changed {q} D f (f.delete q) where
  others r hr := .inl (by
    rw [entry?_delete (ne_nil_of_ne_directory hq), if_neg (by simpa using hr)])
  directories r hr := by
    rw [entry?_delete (ne_nil_of_ne_directory hq), if_neg, hr]
    rintro rfl
    exact hq hr

theorem holds_put (hlocate : f.locate p = .at p.place) (hp : f.entry? p.place ≠ some .directory)
    (he : e = .text text ∨ e = .program text) : (f.put p.place e).Holds p text := by
  refine holds_iff.mpr ⟨locate_mono (changed_put (D := ∅) hp).directories hlocate, ?_⟩
  rw [entry?_put (ne_nil_of_ne_directory hp), if_pos rfl]
  exact he.imp (congrArg some) (congrArg some)

/-- **Writing** changes the place of its path, and the file holds the text then. -/
theorem changed_of_write (hwrite : f.write p shown text = .ok g) :
    Changed {p.place} D f g ∧ g.Holds p text := by
  obtain ⟨q, hq, hput⟩ := Outcome.bind_eq_ok.mp hwrite
  obtain ⟨hlocate, hentry⟩ := filePlace_eq_ok.mp hq
  obtain rfl := locate_eq_place hlocate
  split_ifs at hput
  split at hput
  · obtain rfl := Except.ok.inj hput
    exact ⟨changed_put hentry, holds_put hlocate hentry (.inr rfl)⟩
  · obtain rfl := Except.ok.inj hput
    exact ⟨changed_put hentry, holds_put hlocate hentry (.inl rfl)⟩

/-- **Removing** changes the place of its path. -/
theorem changed_of_remove (hremove : f.remove p = .ok g) : Changed {p.place} D f g := by
  rw [remove] at hremove
  split at hremove
  · cases hremove
  · cases hremove
  · obtain rfl := Except.ok.inj hremove
    exact .refl f
  · rename_i q hlocate
    obtain rfl := locate_eq_place hlocate
    split at hremove
    · cases hremove
    · rename_i hentry
      obtain rfl := Except.ok.inj hremove
      exact changed_delete hentry

/-- **Copying** changes the place of the copy. -/
theorem changed_of_copy {source : Path} (hcopy : f.copy source p = .ok g) :
    Changed {p.place} D f g := by
  obtain ⟨place, -, hcopy⟩ := Outcome.bind_eq_ok.mp hcopy
  split at hcopy
  · cases hcopy
  · cases hcopy
  · obtain ⟨dest, hdest, hcopy⟩ := Outcome.bind_eq_ok.mp hcopy
    obtain ⟨hlocate, hentry⟩ := filePlace_eq_ok.mp hdest
    obtain rfl := locate_eq_place hlocate
    split_ifs at hcopy
    split at hcopy <;>
      · obtain rfl := Except.ok.inj hcopy
        exact changed_put hentry

/-- The places of a path and of all that leads to it. -/
def way (p : Path) : Set Place := {q | ∃ n, q = (⟨p.root, p.parts.take n⟩ : Path).place}

theorem changed_of_makeDirsFrom {before : List String} (hparts : before ++ parts = p.parts)
    (hmake : f.makeDirsFrom p before parts = .ok g) : Changed ∅ (way p) f g := by
  induction parts generalizing before f with
  | nil =>
      obtain rfl := Except.ok.inj hmake
      exact .refl f
  | cons part parts ih =>
      have hnext : (before ++ [part]) ++ parts = p.parts := by rw [← hparts]; simp
      rw [makeDirsFrom] at hmake
      split at hmake
      · cases hmake
      · cases hmake
      · cases hmake
      · rename_i q hlocate
        obtain rfl := locate_eq_place hlocate
        split at hmake
        · exact ih hnext hmake
        · split_ifs at hmake
        · rename_i hnone
          have hway : (⟨p.root, before ++ [part]⟩ : Path).place ∈ way p :=
            ⟨(before ++ [part]).length, by rw [← hnext, List.take_left]⟩
          generalize (⟨p.root, before ++ [part]⟩ : Path).place = q at *
          have hq : q ≠ [] := ne_nil_of_ne_directory (f := f) (by simp [hnone])
          refine Changed.trans (g := f.put q .directory) ⟨fun r _ => ?_, fun r hr => ?_⟩
            (ih hnext hmake)
          · rw [entry?_put hq]
            by_cases hr : r = q
            · rw [if_pos hr, hr]
              exact .inr ⟨hnone, hway, rfl⟩
            · exact .inl (if_neg hr)
          · rw [entry?_put hq, hr, ite_self]

/-- **Making directories** makes them on the way of the path only. -/
theorem changed_of_makeDirs (hmake : f.makeDirs p = .ok g) : Changed ∅ (way p) f g :=
  changed_of_makeDirsFrom rfl hmake

theorem makeDirsFrom_again {before : List String} (hparts : before ++ parts = p.parts)
    (hmake : f.makeDirsFrom p before parts = .ok g)
    (hdir : ∀ q, g.entry? q = some .directory → h.entry? q = some .directory) :
    h.makeDirsFrom p before parts = .ok h := by
  induction parts generalizing before f with
  | nil => rfl
  | cons part parts ih =>
      have hnext : (before ++ [part]) ++ parts = p.parts := by rw [← hparts]; simp
      have hchanged := changed_of_makeDirsFrom hparts hmake
      rw [makeDirsFrom] at hmake ⊢
      split at hmake
      · cases hmake
      · cases hmake
      · cases hmake
      · rename_i q hlocate
        have hlocate' := locate_mono hdir (locate_mono hchanged.directories hlocate)
        rw [hlocate']
        dsimp only
        -- What is a directory after the first time is still one.
        have hstays {f' : Storage} (hmake : f'.makeDirsFrom p (before ++ [part]) parts = .ok g)
            (hq : f'.entry? q = some .directory) : h.entry? q = some .directory :=
          hdir q ((changed_of_makeDirsFrom hnext hmake).directories q hq)
        split at hmake
        · rename_i hq
          rw [hstays hmake hq]
          exact ih hnext hmake
        · split_ifs at hmake
        · rename_i hnone
          have hput : Storage.entry? (f.put q .directory) q = some .directory := by
            rw [entry?_put (ne_nil_of_ne_directory (f := f) (by simp [hnone])), if_pos rfl]
          rw [hstays hmake hput]
          exact ih hnext hmake

/-- **Making directories once more** changes nothing, as long as none has gone away. -/
theorem makeDirs_again (hmake : f.makeDirs p = .ok g)
    (hdir : ∀ q, g.entry? q = some .directory → h.entry? q = some .directory) :
    h.makeDirs p = .ok h := makeDirsFrom_again rfl hmake hdir

/-- **Copying** succeeds from a file with a text to a place for a file. -/
theorem exists_copy {source : Path} (hsource : f.Holds source text)
    (hlocate : f.locate p = .at p.place) (hentry : f.entry? p.place ≠ some .directory)
    (hdir : f.entry? p.place.dropLast = some .directory) :
    ∃ g, f.copy source p = .ok g ∧ Changed {p.place} ∅ f g ∧ g.Holds p text := by
  obtain ⟨hlocate', hentry'⟩ := holds_iff.mp hsource
  have hplace : f.filePlace p p.text = .ok p.place := filePlace_eq_ok.mpr ⟨hlocate, hentry⟩
  have hplace' : f.filePlace source source.text = .ok source.place := by
    refine filePlace_eq_ok.mpr ⟨hlocate', ?_⟩
    rcases hentry' with h | h <;> simp [h]
  have hput : ∃ e, f.copy source p = .ok (f.put p.place e) ∧
      (e = .text text ∨ e = .program text) := by
    rcases hentry' with hsays | hsays
    · simp only [copy, hplace', bind, Except.bind, hsays, hplace, hdir, ne_eq, not_true_eq_false,
        if_false]
      split <;> exact ⟨_, rfl, by simp_all⟩
    · simp only [copy, hplace', bind, Except.bind, hsays, hplace, hdir, ne_eq, not_true_eq_false,
        if_false]
      split <;> exact ⟨_, rfl, by simp_all⟩
  obtain ⟨e, hcopy, he⟩ := hput
  exact ⟨_, hcopy, changed_put hentry, holds_put hlocate hentry he⟩

theorem hasFile_iff (shown : String) : f.HasFile p ↔
    ∃ place e, f.filePlace p shown = .ok place ∧ f.entry? place = some e := by
  rw [HasFile, lookup]
  constructor
  · rintro ⟨e, he, hfile⟩
    split at he
    · rename_i place hlocate
      exact ⟨place, e, filePlace_eq_ok.mpr ⟨hlocate, by simpa [he] using hfile⟩, he⟩
    · cases he
  · rintro ⟨place, e, hplace, he⟩
    obtain ⟨hlocate, hfile⟩ := filePlace_eq_ok.mp hplace
    rw [hlocate]
    exact ⟨e, he, fun h => hfile (h ▸ he)⟩

theorem takesFile_iff (shown : String) : f.TakesFile p ↔
    ∃ place, f.filePlace p shown = .ok place ∧ f.entry? place.dropLast = some .directory := by
  refine ⟨fun h => ⟨p.place, filePlace_eq_ok.mpr ⟨h.leads, h.free⟩, h.inside⟩, ?_⟩
  rintro ⟨place, hplace, hinside⟩
  obtain ⟨hlocate, hfree⟩ := filePlace_eq_ok.mp hplace
  obtain rfl := locate_eq_place hlocate
  exact ⟨hlocate, hfree, hinside⟩

/-- Whether there is something can be told just if no name on the way is too long. -/
theorem isOk_exists?_iff : (f.exists? p).isOk = true ↔ f.locate p ≠ .tooLong := by
  rw [exists?]
  cases f.locate p <;> simp

theorem exists?_eq_ok (h : f.locate p ≠ .tooLong) : f.exists? p = .ok (f.lookup p).isSome := by
  rw [exists?]
  split
  · contradiction
  · rfl

/-- **Writing** succeeds exactly to a place for a file. -/
theorem isOk_write_iff : (f.write p shown text).isOk = true ↔ f.TakesFile p := by
  rw [takesFile_iff shown, write, Outcome.isOk_bind]
  refine exists_congr fun place => and_congr_right fun _ => ?_
  split_ifs with hinside hblocked
  · refine iff_of_true ?_ hinside
    split <;> rfl
  · exact iff_of_false Bool.false_ne_true hinside
  · exact iff_of_false Bool.false_ne_true hinside

/-- **What is written** to a place for a file is held there, and can be written over. -/
theorem exists_write (h : f.TakesFile p) (shown text : String) :
    ∃ g, f.write p shown text = .ok g ∧ g.TakesFile p ∧ g.Holds p text := by
  obtain ⟨g, hwrite⟩ := Outcome.isOk_iff.mp (isOk_write_iff.mpr h)
  obtain ⟨hchanged, hholds⟩ := changed_of_write (D := ∅) hwrite
  obtain ⟨hlocate, hentry⟩ := holds_iff.mp hholds
  refine ⟨g, hwrite, ⟨hlocate, ?_, hchanged.directories _ h.inside⟩, hholds⟩
  rcases hentry with hentry | hentry <;> simp [hentry]

theorem unifyLines_eq_self {cs : List Char} (h : '\r' ∉ cs) : unifyLines cs = cs := by
  induction cs with
  | nil => rfl
  | cons c cs ih =>
      obtain ⟨hc, hcs⟩ : '\r' ≠ c ∧ '\r' ∉ cs := by simpa using h
      rw [unifyLines, ih hcs]
      · rintro _ rfl
        exact absurd rfl hc
      · rintro rfl
        exact absurd rfl hc

/-- **A file without carriage returns** is read as it was written. -/
theorem readLines_of_holds (hp : f.Holds p text) (h : '\r' ∉ text.toList) :
    f.readLines p = .ok text := by
  have hread : f.read p p.text = .ok text := hp
  rw [readLines, hread, Except.map, unifyLines_eq_self h, String.ofList_toList]

/-- **Copying** succeeds exactly from a file to a place for a file. -/
theorem isOk_copy_iff {source : Path} :
    (f.copy source p).isOk = true ↔ f.HasFile source ∧ f.TakesFile p := by
  rw [hasFile_iff source.text, takesFile_iff p.text, copy, Outcome.isOk_bind]
  constructor
  · rintro ⟨place, hplace, hcopy⟩
    cases he : f.entry? place with
    | none => simp [he] at hcopy
    | some e =>
        rw [he] at hcopy
        split at hcopy
        · cases hcopy
        · cases hcopy
        · obtain ⟨dest, hdest, hcopy⟩ := Outcome.isOk_bind.mp hcopy
          split_ifs at hcopy with hinside
          · cases hcopy
          · exact ⟨⟨place, e, hplace, he⟩, dest, hdest, not_not.mp hinside⟩
  · rintro ⟨⟨place, e, hplace, he⟩, dest, hdest, hinside⟩
    refine ⟨place, hplace, ?_⟩
    split
    · rename_i hnone
      exact absurd (hnone.symm.trans he) nofun
    · rename_i hdir
      exact absurd hdir (filePlace_eq_ok.mp hplace).2
    · refine Outcome.isOk_bind.mpr ⟨dest, hdest, ?_⟩
      rw [if_neg (not_not.mpr hinside)]
      split <;> rfl

/-- **Removing** a file with a text succeeds, and leaves nothing in its place. -/
theorem exists_remove (hp : f.Holds p text) :
    ∃ g, f.remove p = .ok g ∧ Changed {p.place} ∅ f g ∧ g.entry? p.place = none := by
  obtain ⟨hlocate, hentry⟩ := holds_iff.mp hp
  have hfile : f.entry? p.place ≠ some .directory := by
    rcases hentry with h | h <;> simp [h]
  have hremove : f.remove p = .ok (f.delete p.place) := by
    rw [remove, hlocate]
    dsimp only
    split
    · rename_i hdir
      exact absurd hdir hfile
    · rfl
  refine ⟨_, hremove, changed_delete hfile, ?_⟩
  exact (entry?_delete (ne_nil_of_ne_directory hfile)).trans (if_pos rfl)

end Montage.Storage
