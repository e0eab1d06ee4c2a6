/-
# When a product of quotients ends

The product of a binomial coefficient is taken for all values of a counter up to a bound, and the
counter goes up by one in floating point.  Here the product is a relation without a limit on the
steps.  The counter is exact up to `2 ^ 53` and stays there, so the product ends exactly if its
bound is below; where it does, the steps that `binomial?` allows are enough, and where it does not,
no number of steps is.
-/

import RowFormula.Number.Binomial
import RowFormula.Proofs.ExactValues

namespace RowFormula.Number

variable {n k i result r : Float} {s t steps : ℕ}

/-! ### The product without a limit -/

/-- Multiplying `result` by the quotients for the counter `i` and all later ones up to `k` ends
with `r`. -/
inductive BinomialProduct (n k : Float) : (i result r : Float) → Prop
  | done {i result : Float} (hpast : ¬ i ≤ k) : BinomialProduct n k i result result
  | factor {i result r : Float} (hle : i ≤ k)
      (hrest : BinomialProduct n k (i + 1.0) (result * (n - k + i) / i) r) :
      BinomialProduct n k i result r

theorem binomialProduct_iff :
    BinomialProduct n k i result r ↔ ∃ steps, binomialFrom n k steps i result = some r := by
  constructor
  · intro h
    induction h with
    | done hpast => exact ⟨0, if_neg hpast⟩
    | factor hle _ ih =>
        obtain ⟨steps, hsteps⟩ := ih
        exact ⟨steps + 1, (if_pos hle).trans hsteps⟩
  · rintro ⟨steps, hsteps⟩
    induction steps generalizing i result with
    | zero =>
        rw [binomialFrom] at hsteps
        split at hsteps
        · cases hsteps
        · rename_i hpast
          cases hsteps
          exact .done hpast
    | succ steps ih =>
        rw [binomialFrom] at hsteps
        split at hsteps
        · rename_i hle
          exact .factor hle (ih hsteps)
        · rename_i hpast
          cases hsteps
          exact .done hpast

theorem BinomialProduct.unique {r' : Float} (h : BinomialProduct n k i result r)
    (h' : BinomialProduct n k i result r') : r = r' := by
  induction h with
  | done hpast =>
      cases h' with
      | done => rfl
      | factor hle => exact absurd hle hpast
  | factor hle _ ih =>
      cases h' with
      | done hpast => exact absurd hle hpast
      | factor _ hrest => exact ih hrest

/-! ### The counter -/

/-- The counter after so many steps. -/
def binomialCounter : ℕ → Float
  | 0 => 1.0
  | steps + 1 => binomialCounter steps + 1.0

theorem isNatural_binomialCounter (s : ℕ) :
    IsNatural (min (s + 1) (2 ^ 53)) (binomialCounter s) := by
  induction s with
  | zero => exact isNatural_one
  | succ s ih =>
      obtain hbelow | hlimit := Nat.lt_or_ge (s + 1) (2 ^ 53)
      · rw [Nat.min_eq_left hbelow.le] at ih
        rw [Nat.min_eq_left hbelow]
        exact ih.add_one s.succ_pos hbelow
      · rw [Nat.min_eq_right hlimit] at ih
        rw [Nat.min_eq_right (hlimit.trans (Nat.le_succ _))]
        exact ih.add_one_countingLimit

theorem binomialCounter_le_iff :
    binomialCounter s ≤ k ↔ k.isNaN = false ∧ ((min (s + 1) (2 ^ 53) : ℕ) : ℚ) ≤ exactValue k :=
  (isNatural_binomialCounter s).le_iff

/-- A counter that has passed the bound stays above it. -/
theorem binomialCounter_le_of_le (hst : s ≤ t) (h : binomialCounter t ≤ k) :
    binomialCounter s ≤ k := by
  rw [binomialCounter_le_iff] at *
  have hmin : min (s + 1) (2 ^ 53) ≤ min (t + 1) (2 ^ 53) := by omega
  exact ⟨h.1, (Nat.cast_le.2 hmin).trans h.2⟩

/-- No counter is above the limit. -/
theorem binomialCounter_le_of_limit_le (h : countingLimit ≤ k) : binomialCounter s ≤ k := by
  rw [isNatural_countingLimit.le_iff] at h
  have hmin : min (s + 1) (2 ^ 53) ≤ 2 ^ 53 := Nat.min_le_right _ _
  exact binomialCounter_le_iff.2 ⟨h.1, (Nat.cast_le.2 hmin).trans h.2⟩

/-- A counter passes every bound below the limit after as many steps as the bound has. -/
theorem not_binomialCounter_le (h : ¬ countingLimit ≤ k) :
    ¬ binomialCounter (toInt64 k).toNat ≤ k := by
  intro hle
  obtain ⟨hk, hvalue⟩ := binomialCounter_le_iff.1 hle
  rw [isNatural_countingLimit.le_iff] at h
  have hlimit : exactValue k < (2 ^ 53 : ℕ) := lt_of_not_ge fun hge => h ⟨hk, hge⟩
  have hbelow : min ((toInt64 k).toNat + 1) (2 ^ 53) < 2 ^ 53 := by
    exact_mod_cast hvalue.trans_lt hlimit
  have hwhole := le_toInt64 (n := min ((toInt64 k).toNat + 1) (2 ^ 53)) (by omega)
    (Nat.min_le_right _ _) hk hvalue
  omega

/-- The steps are enough exactly if the last counter has passed the bound. -/
theorem isSome_binomialFrom_iff :
    (binomialFrom n k steps (binomialCounter s) result).isSome = true ↔
      ¬ binomialCounter (s + steps) ≤ k := by
  induction steps generalizing s result with
  | zero =>
      rw [binomialFrom]
      split
      · rename_i hle
        exact ⟨fun h => (Bool.false_ne_true h).elim, fun h => absurd hle h⟩
      · rename_i hpast
        exact ⟨fun _ => hpast, fun _ => rfl⟩
  | succ steps ih =>
      rw [binomialFrom]
      split
      · rw [Nat.add_comm steps 1, ← Nat.add_assoc]
        exact ih (s := s + 1)
      · rename_i hpast
        exact ⟨fun _ h => hpast (binomialCounter_le_of_le (Nat.le_add_right s _) h), fun _ => rfl⟩

/-! ### The end of the product -/

/-- Below the limit there are steps enough. -/
theorem exists_binomialFrom (h : ¬ countingLimit ≤ k) :
    ∃ r, binomialFrom n k (toInt64 k).toNat 1.0 1.0 = some r := by
  have hsome : (binomialFrom n k (toInt64 k).toNat 1.0 1.0).isSome = true :=
    isSome_binomialFrom_iff (s := 0).2 (Nat.zero_add _ ▸ not_binomialCounter_le h)
  exact Option.isSome_iff_exists.1 hsome

theorem binomialProduct_one_iff :
    BinomialProduct n k 1.0 1.0 r ↔ ¬ countingLimit ≤ k ∧
      binomialFrom n k (toInt64 k).toNat 1.0 1.0 = some r := by
  constructor
  · intro h
    have hbelow : ¬ countingLimit ≤ k := by
      intro hlimit
      obtain ⟨steps, hsteps⟩ := binomialProduct_iff.1 h
      exact isSome_binomialFrom_iff (s := 0).1 (Option.isSome_of_eq_some hsteps)
        (binomialCounter_le_of_limit_le hlimit)
    obtain ⟨r', hr'⟩ := exists_binomialFrom (n := n) hbelow
    exact ⟨hbelow, h.unique (binomialProduct_iff.2 ⟨_, hr'⟩) ▸ hr'⟩
  · rintro ⟨-, h⟩
    exact binomialProduct_iff.2 ⟨_, h⟩

/-! ### The coefficient -/

/-- The bound of the counter. -/
def binomialBound (n k : Float) : Float :=
  if k < n - k then k else n - k

/-- The computation of the coefficient ends with this answer, however many steps it takes. -/
def BinomialEnds (n k : Float) (answer : Option Float) : Prop :=
  if n.isNaN || k.isNaN then answer = some nan
  else if n < 0.0 || k < 0.0 || !isWhole n || !isWhole k then answer = none
  else if k > n then answer = some 0.0
  else ∃ r, BinomialProduct n (binomialBound n k) 1.0 1.0 r ∧ answer = some (round r)

/-- Whole numbers of which so many things are to be chosen, and as many are to be left, that a
counter does not reach either. -/
structure IsEndless (n k : Float) : Prop where
  isWhole_left : isWhole n = true
  isWhole_right : isWhole k = true
  le : k ≤ n
  limit_le_chosen : countingLimit ≤ k
  limit_le_rest : countingLimit ≤ n - k

theorem binomialShort_eq (n k : Float) :
    binomialShort n k = (binomialFrom n (binomialBound n k)
      (toInt64 (binomialBound n k)).toNat 1.0 1.0).map round :=
  rfl

theorem limit_le_binomialBound_iff (hk : k.isNaN = false) :
    countingLimit ≤ binomialBound n k ↔
      countingLimit ≤ k ∧ countingLimit ≤ n - k := by
  unfold binomialBound
  split
  · rename_i hlt
    rw [lt_iff] at hlt
    exact ⟨fun h => ⟨h, float_le_trans h (le_iff.2 ⟨hlt.1, hlt.2.1, hlt.2.2.le⟩)⟩, And.left⟩
  · rename_i hnot
    exact ⟨fun h => ⟨float_le_trans h ((not_lt_iff hk (le_iff.1 h).2.1).1 hnot), h⟩, And.right⟩

theorem not_lt_zero_of_limit_le (h : countingLimit ≤ k) : ¬ k < 0.0 := by
  intro hlt
  have hvalue := (isNatural_countingLimit.le_iff.1 h).2.trans_lt (lt_iff.1 hlt).2.2
  exact absurd hvalue (not_lt.2 (Nat.cast_nonneg _))

/-- Arguments that the product is not taken for. -/
theorem not_isEndless (h : (n.isNaN || k.isNaN) = true ∨
    (n < 0.0 || k < 0.0 || !isWhole n || !isWhole k) = true ∨ k > n) : ¬ IsEndless n k := by
  rintro ⟨hn, hk, hle, hchosen, -⟩
  obtain ⟨hk', hn', -⟩ := le_iff.1 hle
  obtain h | h | h := h
  · rw [hn', hk'] at h
    exact Bool.false_ne_true h
  · simp [hn, hk, not_lt_zero_of_limit_le hchosen,
      not_lt_zero_of_limit_le (float_le_trans hchosen hle)] at h
  · exact (not_lt_iff hn' hk').2 hle h

theorem isEndless_iff (hnan : ¬ (n.isNaN || k.isNaN) = true)
    (hwhole : ¬ (n < 0.0 || k < 0.0 || !isWhole n || !isWhole k) = true) (hgt : ¬ k > n) :
    IsEndless n k ↔ countingLimit ≤ binomialBound n k := by
  simp only [Bool.or_eq_true, Bool.not_eq_true', decide_eq_true_eq, not_or, Bool.not_eq_true,
    Bool.not_eq_false] at hnan hwhole
  rw [limit_le_binomialBound_iff hnan.2]
  exact ⟨fun h => ⟨h.limit_le_chosen, h.limit_le_rest⟩, fun h =>
    ⟨hwhole.1.2, hwhole.2, (not_lt_iff hnan.1 hnan.2).1 hgt, h.1, h.2⟩⟩

/-- The computation ends except for endless products, and then `binomial?` is its answer. -/
theorem binomialEnds_iff {answer : Option Float} :
    BinomialEnds n k answer ↔ ¬ IsEndless n k ∧ binomial? n k = answer := by
  unfold BinomialEnds binomial?
  split
  · rename_i h
    rw [and_iff_right (not_isEndless (.inl h)), eq_comm]
  rename_i hnan
  split
  · rename_i h
    rw [and_iff_right (not_isEndless (.inr (.inl h))), eq_comm]
  rename_i hwhole
  split
  · rename_i h
    rw [and_iff_right (not_isEndless (.inr (.inr h))), eq_comm]
  rename_i hgt
  rw [isEndless_iff hnan hwhole hgt]
  constructor
  · rintro ⟨r, hproduct, rfl⟩
    obtain ⟨hbelow, hr⟩ := binomialProduct_one_iff.1 hproduct
    refine ⟨hbelow, ?_⟩
    rw [binomialShort_eq, hr]
    rfl
  · rintro ⟨hbelow, rfl⟩
    obtain ⟨r, hr⟩ := exists_binomialFrom (n := n) hbelow
    refine ⟨r, binomialProduct_one_iff.2 ⟨hbelow, hr⟩, ?_⟩
    rw [binomialShort_eq, hr]
    rfl

/-- The computation of a coefficient ends exactly if the product is not endless, and its answer is
the one that the limited number of steps gives. -/
theorem binomial_ends_iff (n k : Float) :
    ((∃ answer, BinomialEnds n k answer) ↔ ¬ IsEndless n k) ∧
      ∀ answer, BinomialEnds n k answer ↔ ¬ IsEndless n k ∧ binomial? n k = answer := by
  refine ⟨⟨?_, fun h => ⟨binomial? n k, binomialEnds_iff.2 ⟨h, rfl⟩⟩⟩, fun _ => binomialEnds_iff⟩
  rintro ⟨answer, hends⟩
  exact (binomialEnds_iff.1 hends).1

/-- When `2 ^ 53` of `2 ^ 54` things are chosen, the counter never passes its bound. -/
theorem binomial_never_ends :
    isWhole 18014398509481984.0 = true ∧ isWhole 9007199254740992.0 = true ∧
      (0.0 : Float) ≤ 9007199254740992.0 ∧
      (9007199254740992.0 : Float) ≤ 18014398509481984.0 ∧
      (∀ steps, binomialCounter steps ≤
        binomialBound 18014398509481984.0 9007199254740992.0) ∧
      ¬ ∃ answer, BinomialEnds 18014398509481984.0 9007199254740992.0 answer := by
  have hendless : IsEndless 18014398509481984.0 9007199254740992.0 := by
    constructor <;> decide +kernel
  have hbound : countingLimit ≤ binomialBound 18014398509481984.0 9007199254740992.0 := by
    decide +kernel
  refine ⟨hendless.isWhole_left, hendless.isWhole_right, by decide +kernel, hendless.le,
    fun _ => binomialCounter_le_of_limit_le hbound, ?_⟩
  rintro ⟨answer, hends⟩
  exact (binomialEnds_iff.1 hends).1 hendless

end RowFormula.Number
