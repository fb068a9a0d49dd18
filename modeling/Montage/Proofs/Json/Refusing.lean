import Montage.Json.Reader
import Montage.Proofs.Outcome

/-!
# Texts that are not read

A text that is no value of the format is refused with the place where reading stopped. The one
other thing that can go wrong is an integer of more digits than integers have, which is a fault of
the number and not of the text.

## Main definitions

* `Json.Issue.IsTold`: the text is not as expected, or an integer in it is too long.
* `Json.Stops`: a reader stops for no other reason.

## Main statements

* `Json.stops_valueFor`: the reader of values.
* `Json.fault_of_parse`: the faults of a whole text.
-/
namespace Montage.Json

/-- Reading stopped before something unexpected, or at an integer of too many digits. -/
def Issue.IsTold : Issue → Prop
  | unexpected _ _ => True
  | number cause => ∃ count, Numeral.maxDigits < count ∧ cause = .value (.tooManyDigits count)

/-- Where the reader stops, the text or the length of an integer is the reason. -/
def Stops {α : Type} (r : Except Issue α) : Prop := ∀ i, r = .error i → i.IsTold

variable {α β : Type} {r : Except Issue α}

theorem stops_ok {a : α} : Stops (.ok a) := nofun

theorem stops_unexpected {what : String} {rest : List Char} :
    Stops (.error (.unexpected what rest) : Except Issue α) := by
  rintro _ ⟨⟩
  trivial

theorem Stops.map {f : α → β} (h : Stops r) : Stops (r.map f) :=
  fun i hi => h i (Outcome.map_eq_error.mp hi)

theorem Stops.bind {f : α → Except Issue β} (h : Stops r) (hf : ∀ a, Stops (f a)) :
    Stops (r >>= f) := by
  intro i hi
  rcases Outcome.bind_eq_error.mp hi with hi | ⟨a, -, hi⟩
  · exact h i hi
  · exact hf a i hi

theorem stops_stringFor {opening : List Char} {fuel : Nat} {cs : List Char} :
    Stops (stringFor opening fuel cs) := by
  fun_induction stringFor opening fuel cs with
  | case3 => exact stops_ok
  | case6 => exact Stops.map ‹_›
  | case8 => exact Stops.map ‹_›
  | case10 => exact Stops.map ‹_›
  | _ => exact stops_unexpected

theorem stops_stringAt {opening : List Char} {fuel : Nat} {cs : List Char} :
    Stops (stringAt opening fuel cs) := stops_stringFor.map

/-- A number that is not read is an integer that is too long. -/
theorem tooLong_of_unsigned {negative : Bool} {cs : List Char} {f : Fault} {size : Nat}
    (h : unsigned negative cs = some (.error f, size)) :
    ∃ count, Numeral.maxDigits < count ∧ f = .value (.tooManyDigits count) := by
  rw [unsigned] at h
  dsimp only at h
  split at h
  · cases h
  · split at h
    · split at h
      · cases h
        exact ⟨_, ‹_›, rfl⟩
      · cases h
    · cases h

theorem stops_plain {cs : List Char} : Stops (plain cs) := by
  unfold plain
  split
  · exact stops_ok
  · dsimp only
    split
    · exact stops_ok
    · rintro _ ⟨⟩
      exact tooLong_of_unsigned ‹_›
    · exact stops_unexpected

mutual

/-- **The reader of values** stops for no other reason than the ones told. -/
theorem stops_valueFor : ∀ (fuel : Nat) (cs : List Char), Stops (valueFor fuel cs)
  | 0, cs => by
      rw [valueFor]
      exact stops_unexpected
  | fuel + 1, cs => by
      rw [valueFor.eq_def]
      dsimp only
      split
      · exact stops_stringAt.map
      · split
        · exact stops_ok
        · exact (stops_itemsFor fuel _).map
      · split
        · exact stops_ok
        · exact (stops_fieldsFor fuel _).map
      · exact stops_plain

theorem stops_itemsFor : ∀ (fuel : Nat) (cs : List Char), Stops (itemsFor fuel cs)
  | 0, cs => by
      rw [itemsFor]
      exact stops_unexpected
  | fuel + 1, cs => by
      rw [itemsFor]
      refine (stops_valueFor fuel cs).bind fun (v, rest) => ?_
      dsimp only
      split
      · exact stops_ok
      · exact (stops_itemsFor fuel _).map
      · exact stops_unexpected

theorem stops_fieldsFor : ∀ (fuel : Nat) (cs : List Char), Stops (fieldsFor fuel cs)
  | 0, cs => by
      rw [fieldsFor]
      exact stops_unexpected
  | fuel + 1, cs => by
      rw [fieldsFor.eq_def]
      dsimp only
      split
      · refine stops_stringAt.bind fun (key, rest) => ?_
        dsimp only
        split
        · refine (stops_valueFor fuel _).bind fun (v, rest) => ?_
          dsimp only
          split
          · exact stops_ok
          · exact (stops_fieldsFor fuel _).map
          · exact stops_unexpected
        · exact stops_unexpected
      · exact stops_unexpected

end

theorem stops_whole? {cs : List Char} : Stops (whole? cs) := by
  unfold whole?
  split
  · exact stops_unexpected
  · refine (stops_valueFor _ _).bind fun (v, rest) => ?_
    dsimp only
    split
    · exact stops_ok
    · exact stops_unexpected

/-- **A text that is not read** is no value of the format, or it writes an integer of too many
digits. -/
theorem fault_of_parse {s : String} {f : Fault} (h : parse s = .error f) :
    (∃ text, f = .malformedJson text) ∨
      ∃ count, Numeral.maxDigits < count ∧ f = .value (.tooManyDigits count) := by
  rw [parse] at h
  cases hread : whole? s.toList with
  | ok v =>
      rw [hread] at h
      cases h
  | error i =>
      rw [hread, Outcome.mapError_error] at h
      obtain rfl := Except.error.inj h
      have htold := stops_whole? i hread
      cases i with
      | unexpected what rest => exact .inl ⟨_, rfl⟩
      | number cause => exact .inr htold

end Montage.Json
