/-
# When a binomial coefficient is exact

The product of a coefficient is multiplied and divided in turn.  After `i` factors its value is a
coefficient again, so the next multiplication gives a multiple of the next divisor and the division
leaves no rest.  The greatest product on the way is the last one; if it is at most `2 ^ 53`, nothing
is rounded.
-/

import RowFormula.Catalog.Statistics
import RowFormula.Proofs.BinomialLoop
import RowFormula.Proofs.ExactArithmetic

namespace RowFormula.Number

variable {n k b : Float} {N K i j steps : ℕ}

/-! ### The product step by step -/

/-- The value of the product after so many factors. -/
def binomialRunning (n k : Float) : ℕ → Float
  | 0 => 1.0
  | i + 1 => binomialRunning n k i * (n - k + binomialCounter i) / binomialCounter i

/-- While the counter has not passed the bound, the product takes one factor after the other. -/
theorem binomialFrom_running (h : ∀ t < i, binomialCounter t ≤ k) :
    binomialFrom n k (i + steps) 1.0 1.0 =
      binomialFrom n k steps (binomialCounter i) (binomialRunning n k i) := by
  induction i generalizing steps with
  | zero =>
      rw [Nat.zero_add]
      rfl
  | succ i ih =>
      rw [Nat.add_right_comm, Nat.add_assoc, ih fun t ht => h t (Nat.lt_succ_of_lt ht)]
      exact if_pos (h i i.lt_succ_self)

/-! ### Coefficients -/

theorem choose_min (h : K ≤ N) : N.choose (min K (N - K)) = N.choose K := by
  obtain hle | hle := Nat.le_total K (N - K)
  · rw [Nat.min_eq_left hle]
  · rw [Nat.min_eq_right hle, Nat.choose_symm h]

/-- The products on the way to a coefficient are at most the last one. -/
theorem mul_choose_le {m : ℕ} (h : i ≤ j) :
    i * (m + i).choose i ≤ j * (m + j).choose j := by
  refine Nat.mul_le_mul h ?_
  rw [← Nat.choose_symm_add, ← Nat.choose_symm_add]
  exact Nat.choose_le_choose m (Nat.add_le_add_left h m)

/-! ### Exact products -/

/-- The product for the bound `b` with the value `j` takes `j` factors, and no operation on the way
is rounded: the divisor, the value before the division and the value after it are all natural
numbers, of which the second is the product of the other two. -/
structure IsExactProduct (n b : Float) (N j : ℕ) : Prop where
  reaches : ∀ i ≤ j, binomialFrom n b j 1.0 1.0 =
    binomialFrom n b (j - i) (binomialCounter i) (binomialRunning n b i)
  running : ∀ i ≤ j, IsNatural ((N - j + i).choose i) (binomialRunning n b i)
  divisor : ∀ i < j, IsNatural (i + 1) (binomialCounter i)
  dividend : ∀ i < j, IsNatural ((i + 1) * (N - j + (i + 1)).choose (i + 1))
    (binomialRunning n b i * (n - b + binomialCounter i))
  ends : binomialFrom n b j 1.0 1.0 = some (binomialRunning n b j)

theorem isNatural_counter (h : i < 2 ^ 53) : IsNatural (i + 1) (binomialCounter i) := by
  have hcounter := isNatural_binomialCounter i
  rwa [Nat.min_eq_left h] at hcounter

section Product

variable (hn : IsNatural N n) (hb : IsNatural j b) (hlimit : N ≤ 2 ^ 53) (hle : j ≤ N - j)
include hn hb hlimit hle

/-- One factor: the value is multiplied to a multiple of the counter. -/
theorem isNatural_dividend (hi : i < j)
    (hvalue : IsNatural ((N - j + i).choose i) (binomialRunning n b i))
    (hproduct : j * (N - j + j).choose j ≤ 2 ^ 53) :
    IsNatural ((i + 1) * (N - j + (i + 1)).choose (i + 1))
      (binomialRunning n b i * (n - b + binomialCounter i)) := by
  have hfactor : IsNatural (N - j + (i + 1)) (n - b + binomialCounter i) :=
    (hn.sub hb (by omega) hlimit).add (isNatural_counter (by omega)) (by omega) i.succ_pos
      (by omega)
  have hpascal : (N - j + i).choose i * (N - j + (i + 1)) =
      (i + 1) * (N - j + (i + 1)).choose (i + 1) := by
    rw [Nat.mul_comm, ← Nat.add_assoc, Nat.add_one_mul_choose_eq, Nat.mul_comm]
  rw [← hpascal]
  refine hvalue.mul hfactor (Nat.choose_pos (Nat.le_add_left i _)) (by omega) ?_
  rw [hpascal]
  exact (mul_choose_le hi).trans hproduct

theorem isNatural_running (hproduct : j * (N - j + j).choose j ≤ 2 ^ 53) (hi : i ≤ j) :
    IsNatural ((N - j + i).choose i) (binomialRunning n b i) := by
  induction i with
  | zero =>
      rw [Nat.choose_zero_right]
      exact isNatural_one
  | succ i ih =>
      have hdividend := isNatural_dividend hn hb hlimit hle hi (ih (Nat.le_of_succ_le hi)) hproduct
      refine hdividend.div (isNatural_counter (by omega)) i.succ_pos
        (Nat.choose_pos (Nat.le_add_left _ _)) ?_
      exact (Nat.le_mul_of_pos_left _ i.succ_pos).trans ((mul_choose_le hi).trans hproduct)

theorem isExactProduct (hproduct : j * (N - j + j).choose j ≤ 2 ^ 53) :
    IsExactProduct n b N j := by
  have hcounter {t : ℕ} (ht : t < 2 ^ 53) : binomialCounter t ≤ b ↔ t < j :=
    (isNatural_counter ht).le_natural_iff hb
  have hreaches : ∀ i ≤ j, binomialFrom n b j 1.0 1.0 =
      binomialFrom n b (j - i) (binomialCounter i) (binomialRunning n b i) := by
    intro i hi
    obtain ⟨rest, rfl⟩ := Nat.le.dest hi
    rw [Nat.add_sub_cancel_left]
    exact binomialFrom_running fun t ht => (hcounter (by omega)).2 (by omega)
  refine ⟨hreaches, fun i hi => isNatural_running hn hb hlimit hle hproduct hi,
    fun i hi => isNatural_counter (by omega), fun i hi => ?_, ?_⟩
  · exact isNatural_dividend hn hb hlimit hle hi
      (isNatural_running hn hb hlimit hle hproduct hi.le) hproduct
  · rw [hreaches j le_rfl, Nat.sub_self]
    exact if_neg fun h => Nat.lt_irrefl j ((hcounter (by omega)).1 h)

end Product

/-! ### Exact coefficients -/

section Coefficient

variable (hn : IsNatural N n) (hk : IsNatural K k) (hle : K ≤ N)
include hn hk hle

/-- Natural numbers in order pass the checks of the arguments. -/
theorem binomial?_eq : binomial? n k = some ((binomialShort n k).getD nan) := by
  have hnegative {N : ℕ} {n : Float} (h : IsNatural N n) : ¬ n < 0.0 := fun hlt =>
    Nat.not_lt_zero N ((h.lt_natural_iff isNatural_zero).1 hlt)
  have hgt : ¬ k > n := fun h => Nat.not_lt.2 hle ((hn.lt_natural_iff hk).1 h)
  unfold binomial?
  rw [hn.isNaN, hk.isNaN, Bool.or_false, if_neg Bool.false_ne_true,
    if_neg (by simp [hnegative hn, hnegative hk, hn.isWhole, hk.isWhole]), if_neg hgt]

variable (hlimit : N ≤ 2 ^ 53)
include hlimit

theorem isNatural_binomialBound : IsNatural (min K (N - K)) (binomialBound n k) := by
  have hrest : IsNatural (N - K) (n - k) := hn.sub hk hle hlimit
  unfold binomialBound
  split
  · rename_i hlt
    rw [Nat.min_eq_left ((hk.lt_natural_iff hrest).1 hlt).le]
    exact hk
  · rename_i hnot
    rw [Nat.min_eq_right (not_lt.1 (mt (hk.lt_natural_iff hrest).2 hnot))]
    exact hrest

theorem isExactProduct_binomial (hproduct : min K (N - K) * N.choose K ≤ 2 ^ 53) :
    IsExactProduct n (binomialBound n k) N (min K (N - K)) := by
  refine isExactProduct hn (isNatural_binomialBound hn hk hle hlimit) hlimit (by omega) ?_
  rwa [Nat.sub_add_cancel (by omega), choose_min hle]

theorem exists_binomial (hproduct : min K (N - K) * N.choose K ≤ 2 ^ 53) :
    ∃ c, binomial? n k = some c ∧ IsNatural (N.choose K) c := by
  have hbound := isNatural_binomialBound hn hk hle hlimit
  have hexact := isExactProduct_binomial hn hk hle hlimit hproduct
  have hlast := hexact.running _ le_rfl
  rw [Nat.sub_add_cancel (by omega), choose_min hle] at hlast
  refine ⟨_, binomial?_eq hn hk hle, ?_⟩
  rw [binomialShort_eq, hbound.toInt64 (by omega), Int.toNat_natCast, hexact.ends]
  show IsNatural (N.choose K) (round (binomialRunning n (binomialBound n k) (min K (N - K))))
  rwa [hlast.round (Nat.choose_pos hle)]

end Coefficient

theorem binomial_body {call : Call} {args : List Value} {c : Float}
    (h : binomial? (numberAt args 0) (numberAt args 1) = some c) :
    Catalog.binomial.body call args = pure (.integer c) := by
  simp only [Catalog.binomial, h]
  rfl

/-- Coefficients are exact, and so is every operation of the product, if the last product on the
way is at most `2 ^ 53`. -/
theorem binomial_exact (hn : IsNatural N n) (hk : IsNatural K k) (hle : K ≤ N)
    (hlimit : N ≤ 2 ^ 53) (hproduct : min K (N - K) * N.choose K ≤ 2 ^ 53) :
    IsExactProduct n (binomialBound n k) N (min K (N - K)) ∧
      ∃ c, IsNatural (N.choose K) c ∧ binomial? n k = some c ∧ binomial? n (n - k) = some c ∧
        ∀ call args, numberAt args 0 = n → numberAt args 1 = k →
          Catalog.binomial.body call args = pure (.integer c) := by
  have hsymm : min (N - K) (N - (N - K)) * N.choose (N - K) ≤ 2 ^ 53 := by
    rwa [Nat.sub_sub_self hle, Nat.min_comm, Nat.choose_symm hle]
  obtain ⟨c, hc, hvalue⟩ := exists_binomial hn hk hle hlimit hproduct
  obtain ⟨d, hd, hvalue'⟩ :=
    exists_binomial hn (hn.sub hk hle hlimit) (Nat.sub_le N K) hlimit hsymm
  rw [Nat.choose_symm hle] at hvalue'
  obtain rfl : c = d := hvalue.unique hvalue' (Nat.choose_pos hle)
  refine ⟨isExactProduct_binomial hn hk hle hlimit hproduct, c, hvalue, hc, hd, ?_⟩
  rintro call args rfl rfl
  exact binomial_body hc

/-- Five cards out of fifty-two. -/
theorem binomial_exact_of_cards :
    IsNatural 52 52.0 ∧ IsNatural 5 5.0 ∧ 5 ≤ 52 ∧ 52 ≤ 2 ^ 53 ∧
      min 5 (52 - 5) * Nat.choose 52 5 ≤ 2 ^ 53 ∧
      binomial? 52.0 5.0 = some 2598960.0 ∧ binomial? 52.0 (52.0 - 5.0) = some 2598960.0 := by
  have hn : IsNatural 52 52.0 := isNatural_ofNat (by decide)
  have hk : IsNatural 5 5.0 := isNatural_ofNat (by decide)
  have hproduct : min 5 (52 - 5) * Nat.choose 52 5 ≤ 2 ^ 53 := by decide +kernel
  obtain ⟨-, c, hvalue, hc, hsymm, -⟩ :=
    binomial_exact hn hk (by decide) (by decide) hproduct
  have hvalue' : IsNatural (Nat.choose 52 5) 2598960.0 := isNatural_ofNat (by decide)
  obtain rfl := hvalue.unique hvalue' (by decide)
  exact ⟨hn, hk, by decide, by decide, hproduct, hc, hsymm⟩

end RowFormula.Number
