import Montage.Preview.Url
import Montage.Proofs.Preview.Fitting

/-!
# Addresses of resources

A delivery URL ends in the identifier of the resource. Every way of building one refuses what is no
identifier, except that one line feed after an identifier is overlooked, since it may stand before
the end of a text that is matched. It is then the end of the URL as well.

## Main definitions

* `IsIdentifier`: the texts that name a resource.
* `IsFedIdentifier`: an identifier with a line feed after it.
* `Delivery`: what is delivered of a resource; `Delivery.address` is its URL.
* `Delivery.Screens`: an address is built for identifiers, and nothing else has one.

## Main statements

* `checkPublicId_eq_ok_iff`: the texts that the check lets pass.
* `Delivery.exists_address_eq`: an address is built just if the check passes, and ends in the text.
* `Delivery.screens_iff`: which texts are screened.
-/
namespace Montage

/-- A letter, a digit or one of four marks, all of them of ASCII. -/
def IsIdLetter (c : Char) : Prop :=
  'a' ≤ c ∧ c ≤ 'z' ∨ 'A' ≤ c ∧ c ≤ 'Z' ∨ '0' ≤ c ∧ c ≤ '9' ∨ c ∈ ['_', '/', '-', '.']

/-- The text names a resource. -/
structure IsIdentifier (cs : List Char) : Prop where
  length_pos : 1 ≤ cs.length
  length_le : cs.length ≤ 200
  letters : ∀ c ∈ cs, IsIdLetter c

/-- The text is an identifier with one line feed after it, and not too long for all that. -/
def IsFedIdentifier (cs : List Char) : Prop :=
  ∃ body, IsIdentifier body ∧ cs = body ++ ['\n'] ∧ cs.length ≤ 200

/-- What is delivered of a resource: the resource as it is, or after one or several edits. -/
inductive Delivery
  | plain (r : Resource)
  | edited (d : Descriptor) (r : Option Resource)
  | chained (ds : List Descriptor) (r : Resource)

/-- The descriptor is that of an operation. -/
def Descriptor.IsCompiled (d : Descriptor) : Prop :=
  ∃ (s : Studio) (o : Operation) (r : Resource) (σ σ' : Session),
    (s.previewOperation o r).exec σ = (.ok d, σ')

namespace Delivery

/-- The edits that are applied. -/
def edits : Delivery → List Descriptor
  | plain _ => []
  | edited d _ => [d]
  | chained ds _ => ds

/-- The URL of what is delivered. -/
def address (v : Delivery) (b : UrlBase) (id : String) : Except Failure String :=
  match v with
  | plain r => b.plain (.string id) r
  | edited d r => b.build (.string id) d r
  | chained ds r => b.chain (.string id) ds r

/-- An identifier has an address, and any other text is refused as malformed. -/
structure Screens (v : Delivery) (b : UrlBase) (id : String) : Prop where
  accepts : IsIdentifier id.toList → ∃ url, v.address b id = .ok url
  refuses : ¬IsIdentifier id.toList →
    ∃ e : EditError, v.address b id = .error (.edit e) ∧ e.kind = .validation

end Delivery

variable {c : Char} {cs : List Char} {id url : String} {b : UrlBase} {v : Delivery}

/-! ## The check of identifiers -/

theorem isIdChar_iff : isIdChar c = true ↔ IsIdLetter c := by
  have halphanum : c.isAlphanum = (decide ('A' ≤ c ∧ c ≤ 'Z') ||
      (decide ('a' ≤ c) && decide (c ≤ 'z')) || (decide ('0' ≤ c) && decide (c ≤ '9'))) := rfl
  simp only [isIdChar, halphanum, Bool.or_eq_true, Bool.and_eq_true, decide_eq_true_eq, IsIdLetter,
    List.mem_cons, List.not_mem_nil, or_false]
  tauto

theorem not_isIdLetter_feed : ¬IsIdLetter '\n' := by
  rw [← isIdChar_iff]
  decide

theorem IsFedIdentifier.not_isIdentifier (h : IsFedIdentifier cs) : ¬IsIdentifier cs := by
  obtain ⟨body, -, rfl, -⟩ := h
  exact fun h => not_isIdLetter_feed (h.letters _ List.mem_concat_self)

/-- The characters of an identifier are let pass, with a line feed after them or without. -/
theorem isIdText_iff : isIdText cs = true ↔
    ∃ body, body ≠ [] ∧ (∀ c ∈ body, IsIdLetter c) ∧ (cs = body ∨ cs = body ++ ['\n']) := by
  have hbody {body : List Char} : (!body.isEmpty && body.all isIdChar) = true ↔
      body ≠ [] ∧ ∀ c ∈ body, IsIdLetter c := by
    simp [isIdChar_iff]
  simp only [isIdText, hbody]
  constructor
  · split_ifs with hlast
    · exact fun ⟨hne, h⟩ => ⟨_, hne, h, .inr (List.dropLast_append_getLast? _ hlast).symm⟩
    · exact fun ⟨hne, h⟩ => ⟨_, hne, h, .inl rfl⟩
  · rintro ⟨body, hne, h, rfl | rfl⟩
    · have hlast : cs.getLast? ≠ some '\n' := fun hlast =>
        not_isIdLetter_feed (h _ (List.mem_of_getLast? hlast))
      rw [if_neg hlast]
      exact ⟨hne, h⟩
    · rw [if_pos List.getLast?_concat, List.dropLast_concat]
      exact ⟨hne, h⟩

theorem checkPublicId_eq_ok_iff : checkPublicId (.string id) = .ok url ↔
    (IsIdentifier id.toList ∨ IsFedIdentifier id.toList) ∧ url = id := by
  have hlength : id.length = id.toList.length := String.length_toList.symm
  have hpass : (IsIdentifier id.toList ∨ IsFedIdentifier id.toList) ↔
      id.length ≤ 200 ∧ isIdText id.toList = true := by
    rw [isIdText_iff, hlength]
    constructor
    · rintro (⟨hpos, hle, h⟩ | ⟨body, ⟨hpos, -, h⟩, hid, hle⟩)
      · exact ⟨hle, _, List.length_pos_iff.mp hpos, h, .inl rfl⟩
      · exact ⟨hle, body, List.length_pos_iff.mp hpos, h, .inr hid⟩
    · rintro ⟨hle, body, hne, h, hid | hid⟩
      · exact .inl ⟨hid ▸ List.length_pos_iff.mpr hne, hle, hid ▸ h⟩
      · have hshort : body.length ≤ 200 := by
          rw [hid, List.length_append] at hle
          omega
        exact .inr ⟨body, ⟨List.length_pos_iff.mpr hne, hshort, h⟩, hid, hle⟩
  rw [hpass, checkPublicId, maxIdLength]
  split_ifs with hempty hlong hchars
  · subst hempty
    simp [isIdText]
  · exact iff_of_false nofun fun h => absurd h.1.1 (by omega)
  · simp only [Except.ok.injEq, eq_comm (a := id)]
    exact (and_iff_right ⟨by omega, hchars⟩).symm
  · exact iff_of_false nofun fun h => hchars h.1.2

theorem kind_of_checkPublicId {e : EditError} {w : Value} (h : checkPublicId w = .error e) :
    e.kind = .validation := by
  unfold checkPublicId at h
  split at h
  · split_ifs at h <;> exact Except.error.inj h ▸ rfl
  · exact Except.error.inj h ▸ rfl

/-! ## Addresses -/

namespace UrlBase

theorem exists_withPath_eq (b : UrlBase) (id path : String) (r : Resource) :
    ∃ head, b.withPath (.string id) path r =
      ((checkPublicId (.string id)).mapError .edit).map fun id => head ++ "/" ++ id := by
  rw [withPath]
  split_ifs
  · exact ⟨b.root r, rfl⟩
  · exact ⟨b.root r ++ "/" ++ path, rfl⟩

/-- Checking an identifier twice is checking it once. -/
theorem check_withPath (b : UrlBase) (w : Value) (path : String) (r : Resource) :
    (do let _ ← (checkPublicId w).mapError Failure.edit; b.withPath w path r) =
      b.withPath w path r := by
  cases h : checkPublicId w with
  | ok id => rfl
  | error e =>
      rw [withPath, h]
      rfl

end UrlBase

namespace Delivery

/-- **An address** is built of the identifier, which is its end, just if that passes the check. -/
theorem exists_address_eq (hv : ∀ d ∈ v.edits, d.IsCompiled) (b : UrlBase) (id : String) :
    ∃ head, v.address b id =
      ((checkPublicId (.string id)).mapError .edit).map fun id => head ++ "/" ++ id := by
  have hpath : ∀ d ∈ v.edits, d.path.isOk = true := fun d hd => by
    obtain ⟨s, o, r, σ, σ', h⟩ := hv d hd
    exact Studio.returns_previewOperation_path σ d (congrArg Prod.fst h)
  cases v with
  | plain r => exact ⟨b.root r, rfl⟩
  | edited d r =>
      obtain ⟨path, hd⟩ := Outcome.isOk_iff.mp (hpath d List.mem_cons_self)
      rw [address, UrlBase.build, hd]
      exact (b.check_withPath _ path _).symm ▸ b.exists_withPath_eq id path _
  | chained ds r =>
      obtain ⟨paths, hds⟩ := Outcome.isOk_iff.mp (Outcome.isOk_mapM.mpr hpath)
      rw [edits] at hds
      rw [address, UrlBase.chain, hds]
      exact (b.check_withPath _ _ r).symm ▸ b.exists_withPath_eq id _ r

/-- All that passes the check has an address. -/
theorem exists_address_eq_ok_iff (hv : ∀ d ∈ v.edits, d.IsCompiled) (b : UrlBase) (id : String) :
    ∃ head, ∀ url, v.address b id = .ok url ↔
      (IsIdentifier id.toList ∨ IsFedIdentifier id.toList) ∧ url = head ++ "/" ++ id := by
  obtain ⟨head, haddress⟩ := exists_address_eq hv b id
  refine ⟨head, fun url => ?_⟩
  rw [haddress, Outcome.map_eq_ok]
  simp only [Outcome.mapError_eq_ok, checkPublicId_eq_ok_iff, and_assoc, exists_and_left,
    exists_eq_left, eq_comm (b := url)]

/-- All else is refused as malformed. -/
theorem exists_address_eq_error (hv : ∀ d ∈ v.edits, d.IsCompiled) (b : UrlBase)
    (h : ¬(IsIdentifier id.toList ∨ IsFedIdentifier id.toList)) :
    ∃ e : EditError, v.address b id = .error (.edit e) ∧ e.kind = .validation := by
  obtain ⟨head, haddress⟩ := exists_address_eq hv b id
  cases hcheck : checkPublicId (.string id) with
  | ok given => exact absurd (checkPublicId_eq_ok_iff.mp hcheck).1 h
  | error e =>
      refine ⟨e, ?_, kind_of_checkPublicId hcheck⟩
      rw [haddress, hcheck]
      rfl

/-- **Texts are screened** but for identifiers with a line feed after them, which have an address as
well. All addresses end in the text that they were built of. -/
theorem screens_iff (hv : ∀ d ∈ v.edits, d.IsCompiled) (b : UrlBase) (id : String) :
    (v.Screens b id ↔ ¬IsFedIdentifier id.toList) ∧
      ∀ url, v.address b id = .ok url → '/' :: id.toList <:+ url.toList := by
  obtain ⟨head, haddress⟩ := exists_address_eq_ok_iff hv b id
  refine ⟨⟨fun h hfed => ?_, fun hfed => ⟨fun hid => ?_, fun hid => ?_⟩⟩, fun url hurl => ?_⟩
  · obtain ⟨e, he, -⟩ := h.refuses hfed.not_isIdentifier
    rw [(haddress _).mpr ⟨.inr hfed, rfl⟩] at he
    cases he
  · exact ⟨_, (haddress _).mpr ⟨.inl hid, rfl⟩⟩
  · exact exists_address_eq_error hv b fun h => h.elim hid hfed
  · obtain ⟨-, rfl⟩ := (haddress url).mp hurl
    exact ⟨head.toList, by simp⟩

theorem screens_quarterTurns :
    ∃ d : Descriptor, d.IsCompiled ∧ d.steps.length = 1 ∧
      (chained [d, d] .video).Screens ⟨"https://media.test", "demo"⟩ "samples/dog" := by
  let s : Studio := ⟨.default, .builtIn⟩
  let turn : Operation := ⟨.rotate ⟨90⟩, none⟩
  have hok : ((s.previewOperation turn .video).exec (.of default [] [])).1.isOk = true := by
    decide +kernel
  obtain ⟨d, σ', hd⟩ := Action.exists_exec_of_isOk hok
  have hsteps : ((s.previewOperation turn .video).exec (.of default [] [])).1.toOption.all
      (·.steps.length = 1) = true := by decide +kernel
  have hcompiled : d.IsCompiled := ⟨s, turn, .video, _, σ', hd⟩
  have hfed : ¬IsFedIdentifier "samples/dog".toList := by
    rintro ⟨body, -, h, -⟩
    exact absurd (congrArg List.getLast? h) (by rw [List.getLast?_concat]; decide +kernel)
  have hall : ∀ e ∈ (chained [d, d] .video).edits, e.IsCompiled := by simp [edits, hcompiled]
  exact ⟨d, hcompiled, by simpa [hd, Except.toOption] using hsteps,
    (screens_iff hall _ _).1.mpr hfed⟩

/-- A line feed may stand before the end of the text that is matched. -/
theorem not_screens_fedDog :
    ¬IsIdentifier "dog\n".toList ∧
      (plain .video).address ⟨"https://media.test", "demo"⟩ "dog\n" =
        .ok "https://media.test/demo/video/upload/dog\n" ∧
      ¬(plain .video).Screens ⟨"https://media.test", "demo"⟩ "dog\n" := by
  have hno : ¬IsIdentifier "dog\n".toList := fun h =>
    not_isIdLetter_feed (h.letters _ (by decide +kernel))
  have haddress : (plain .video).address ⟨"https://media.test", "demo"⟩ "dog\n" =
      .ok "https://media.test/demo/video/upload/dog\n" := rfl
  refine ⟨hno, haddress, fun h => ?_⟩
  obtain ⟨e, he, -⟩ := h.refuses hno
  rw [haddress] at he
  cases he

end Delivery

end Montage
