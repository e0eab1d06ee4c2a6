/-
# The shortest decimal reads back

Whether a decimal reads back is decided by comparing integers; this is to be in the interval of
the number.  The search for the shortest decimal ends with such a decimal on every grid on which
it can end: the last grid is so fine that cutting off leaves the interval's lower end far below.
-/

import RowFormula.Number.Shortest
import RowFormula.Proofs.Scientific

namespace RowFormula.Number

variable {m c x more digits : ℕ} {q e leading : ℤ}

namespace Dyadic

theorem ten_ne_zero : (10 : ℚ) ≠ 0 := by norm_num

/-! ### Comparing with a decimal -/

theorem compareDecimal_eq_lt :
    compareDecimal c e x q = .lt ↔ (c : ℚ) * 10 ^ e < x * 2 ^ q := by
  rw [compareDecimal, Nat.compare_eq_lt, zpow_eq_toNat ten_ne_zero, zpow_eq_toNat two_ne_zero,
    ← mul_div_assoc, ← mul_div_assoc, div_lt_div_iff₀ (by positivity) (by positivity)]
  exact (Nat.cast_lt (α := ℚ)).symm.trans (by simp [twoTo, tenTo])

theorem compareDecimal_eq_gt :
    compareDecimal c e x q = .gt ↔ (x : ℚ) * 2 ^ q < c * 10 ^ e := by
  rw [compareDecimal, Nat.compare_eq_gt, zpow_eq_toNat ten_ne_zero, zpow_eq_toNat two_ne_zero,
    ← mul_div_assoc, ← mul_div_assoc, div_lt_div_iff₀ (by positivity) (by positivity)]
  exact (Nat.cast_lt (α := ℚ)).symm.trans (by simp [twoTo, tenTo])

/-- The test compares with the ends of the interval. -/
theorem readsBack_iff (hm : 0 < m) : readsBack m q c e = true ↔ RoundsTo m q (c * 10 ^ e) := by
  have hquarter : (2 : ℚ) ^ (q - 2) = 2 ^ q / 4 := by
    rw [zpow_sub₀ two_ne_zero]
    norm_num
  have hlow : ((if m = twoTo 52 ∧ minExponent < q then 4 * m - 1 else 4 * m - 2 : ℕ) : ℚ) *
      2 ^ (q - 2) = (m - lowerGap m q) * 2 ^ q := by
    rw [hquarter, lowerGap]
    change ((if m = 2 ^ 52 ∧ -1074 < q then 4 * m - 1 else 4 * m - 2 : ℕ) : ℚ) * _ = _
    split
    · rw [Nat.cast_sub (by omega)]
      push_cast
      ring
    · rw [Nat.cast_sub (by omega)]
      push_cast
      ring
  have hhigh : ((4 * m + 2 : ℕ) : ℚ) * 2 ^ (q - 2) = (m + 1 / 2) * 2 ^ q := by
    rw [hquarter]
    push_cast
    ring
  rw [readsBack, RoundsTo]
  generalize (if m = twoTo 52 ∧ minExponent < q then 4 * m - 1 else 4 * m - 2 : ℕ) = low at *
  split
  · rw [Bool.and_eq_true, bne_iff_ne, bne_iff_ne, ne_eq, ne_eq, compareDecimal_eq_lt,
      compareDecimal_eq_gt, hlow, hhigh, not_lt, not_lt]
  · rw [Bool.and_eq_true, beq_iff_eq, beq_iff_eq, compareDecimal_eq_lt, compareDecimal_eq_gt,
      hlow, hhigh]

theorem roundsTo_of_onGrid? (hm : 0 < m) (h : onGrid? m q e = some c) :
    RoundsTo m q (c * 10 ^ e) := by
  rw [← readsBack_iff hm]
  unfold onGrid? at h
  dsimp only at h
  split at h
  · rename_i hboth
    rw [Bool.and_eq_true] at hboth
    split at h
    · obtain rfl := Option.some.inj h
      exact hboth.1
    · obtain rfl := Option.some.inj h
      exact hboth.2
  · split at h
    · rename_i hbelow
      obtain rfl := Option.some.inj h
      exact hbelow
    · split at h
      · rename_i habove
        obtain rfl := Option.some.inj h
        exact habove
      · cases h

/-! ### The search -/

theorem twoTo_mono {a b : ℕ} (h : a ≤ b) : twoTo a ≤ twoTo b :=
  Nat.pow_le_pow_right two_pos h

/-- A scale that makes every number at least one shows the exponent of the first digit. -/
theorem pow_digitCount_le {n : ℕ} (hscale : twoTo 1074 ≤ tenTo n) (hc : IsCanonical m q) :
    (10 : ℚ) ^ ((Decimal.digitCount (m * twoTo q.toNat * tenTo n / twoTo (-q).toNat) : ℤ) -
      (n + 1 : ℕ)) ≤ m * 2 ^ q := by
  generalize hscaled : m * twoTo q.toNat * tenTo n / twoTo (-q).toNat = scaled
  have hne : scaled ≠ 0 := by
    have hmin := hc.le_exponent
    have hpow : twoTo (-q).toNat ≤ twoTo 1074 := twoTo_mono (by omega)
    rw [← hscaled]
    refine (Nat.div_pos ((hpow.trans hscale).trans ?_) (Nat.two_pow_pos _)).ne'
    exact Nat.le_mul_of_pos_left _ (Nat.mul_pos hc.pos (Nat.two_pow_pos _))
  have hcount : 0 < Decimal.digitCount scaled := Nat.length_toDigits_pos
  have hexponent : (Decimal.digitCount scaled : ℤ) - (n + 1 : ℕ) =
      ((Decimal.digitCount scaled - 1 : ℕ) : ℤ) - (n : ℕ) := by omega
  rw [hexponent, zpow_sub₀ ten_ne_zero, zpow_natCast, zpow_natCast, div_le_iff₀ (by positivity)]
  calc
    (10 : ℚ) ^ (Decimal.digitCount scaled - 1) ≤ scaled := by
      exact_mod_cast @Decimal.pow_le_digits ⟨scaled, 0⟩ hne
    _ ≤ (m * twoTo q.toNat * tenTo n : ℕ) / (twoTo (-q).toNat : ℕ) := by
      rw [← hscaled]
      exact Nat.cast_div_le
    _ = m * 2 ^ q * 10 ^ n := by
      rw [zpow_eq_toNat two_ne_zero]
      simp only [twoTo, tenTo, Nat.pow_eq]
      push_cast
      ring

/-- The exponent of the first digit is not too large. -/
theorem pow_leadingExponent_le (hc : IsCanonical m q) :
    (10 : ℚ) ^ leadingExponent m q ≤ m * 2 ^ q :=
  pow_digitCount_le (by decide +kernel) hc

/-- The multiple of a power of ten that is below a number. -/
theorem below_spec (m : ℕ) (q e : ℤ) :
    let below := m * twoTo q.toNat * tenTo (-e).toNat / (twoTo (-q).toNat * tenTo e.toNat)
    (below : ℚ) * 10 ^ e ≤ m * 2 ^ q ∧ m * 2 ^ q < (below + 1 : ℚ) * 10 ^ e := by
  intro below
  have hpos : 0 < twoTo (-q).toNat * tenTo e.toNat :=
    Nat.mul_pos (Nat.two_pow_pos _) (Nat.pow_pos (by decide))
  have hle : below * (twoTo (-q).toNat * tenTo e.toNat) ≤
      m * twoTo q.toNat * tenTo (-e).toNat := Nat.div_mul_le_self _ _
  have hlt : m * twoTo q.toNat * tenTo (-e).toNat <
      (below + 1) * (twoTo (-q).toNat * tenTo e.toNat) := by
    rw [Nat.mul_comm (below + 1)]
    exact Nat.lt_mul_div_succ _ hpos
  rw [zpow_eq_toNat ten_ne_zero, zpow_eq_toNat two_ne_zero, ← mul_div_assoc, ← mul_div_assoc,
    ← mul_div_assoc, div_le_div_iff₀ (by positivity) (by positivity),
    div_lt_div_iff₀ (by positivity) (by positivity)]
  simp only [twoTo, tenTo, Nat.pow_eq] at hle hlt
  constructor
  · have hle' := (Nat.cast_le (α := ℚ)).2 hle
    push_cast at hle'
    linarith
  · have hlt' := (Nat.cast_lt (α := ℚ)).2 hlt
    push_cast at hlt'
    linarith

/-- On a grid that is fine enough the decimal below a number reads back. -/
theorem roundsTo_below (hfine : (10 : ℚ) ^ e < 1 / 4 * 2 ^ q) :
    RoundsTo m q
      ((m * twoTo q.toNat * tenTo (-e).toNat / (twoTo (-q).toNat * tenTo e.toNat) : ℕ) *
        10 ^ e) := by
  obtain ⟨hle, hlt⟩ := below_spec m q e
  generalize m * twoTo q.toNat * tenTo (-e).toNat / (twoTo (-q).toNat * tenTo e.toNat) = below at *
  have hq : (0 : ℚ) < 2 ^ q := by positivity
  have hgap : 1 / 4 ≤ lowerGap m q := by
    unfold lowerGap
    split <;> norm_num
  refine roundsTo_of_lt ?_ (hle.trans_lt ?_)
  · calc
      (m - lowerGap m q) * 2 ^ q = m * 2 ^ q - lowerGap m q * 2 ^ q := sub_mul _ _ _
      _ ≤ m * 2 ^ q - 1 / 4 * 2 ^ q := by gcongr
      _ < (below + 1) * 10 ^ e - 10 ^ e := by linarith
      _ = below * 10 ^ e := by ring
  · gcongr
    linarith

/-- Every decimal that the search can end with reads back. -/
theorem roundsTo_shortestFrom (hc : IsCanonical m q) (hleading : (10 : ℚ) ^ leading ≤ m * 2 ^ q)
    (hdigits : more + digits = 18) :
    RoundsTo m q (shortestFrom m q leading more digits).value := by
  induction more generalizing digits with
  | zero =>
      obtain rfl : digits = 18 := by omega
      refine roundsTo_below ?_
      have hq : (0 : ℚ) < 2 ^ q := by positivity
      have hm : (m : ℚ) < 2 ^ 53 := by exact_mod_cast hc.lt
      calc
        (10 : ℚ) ^ (leading - (18 : ℕ) + 1) = 10 ^ leading / 10 ^ 17 := by
          rw [← zpow_natCast, ← zpow_sub₀ ten_ne_zero]
          congr 1
          push_cast
          ring
        _ ≤ m * 2 ^ q / 10 ^ 17 := by gcongr
        _ < 2 ^ 53 * 2 ^ q / 10 ^ 17 := by gcongr
        _ < 1 / 4 * 2 ^ q := by linarith
  | succ more ih =>
      rw [shortestFrom]
      split
      · rename_i c hgrid
        exact roundsTo_of_onGrid? hc.pos hgrid
      · exact ih (by omega)

/-! ### Trailing zeros -/

theorem value_stripZeros (fuel : ℕ) (d : Decimal) :
    (Decimal.stripZeros fuel d).value = d.value := by
  induction fuel generalizing d with
  | zero => rfl
  | succ fuel ih =>
      rw [Decimal.stripZeros]
      split
      · rename_i hzero
        have hdigits : (d.digits : ℚ) = 10 * (d.digits / 10 : ℕ) := by
          exact_mod_cast (Nat.mul_div_cancel' (Nat.dvd_of_mod_eq_zero hzero.2)).symm
        rw [ih, Decimal.value, Decimal.value, hdigits, zpow_add_one₀ ten_ne_zero]
        ring
      · rfl

/-- The shortest decimal of a number is in its interval. -/
theorem roundsTo_shortest {d : Dyadic} (hc : IsCanonical d.mantissa d.exponent) :
    RoundsTo d.mantissa d.exponent d.shortest.value := by
  rw [shortest, if_neg hc.pos.ne', Decimal.normal, value_stripZeros]
  exact roundsTo_shortestFrom hc (pow_leadingExponent_le hc) rfl

end Dyadic

end RowFormula.Number
