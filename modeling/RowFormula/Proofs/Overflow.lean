/-
# Where numbers end

A product or a quotient is rounded from its exact value, and it is finite exactly if this value
lies below `roundingLimit`, which is half way between the greatest number and the power of two that
would come next.  From there on the result is an infinity.  So a division by at least one stays
finite, and a multiplication need not.
-/

import RowFormula.Proofs.ExactValues

namespace RowFormula.Number

open Float.Model (Format UnpackedFloat)
open Float.Model.UnpackedFloat

variable {m M n : ℕ} {q E : ℤ} {s : Sign} {x y : Float}

/-- The magnitudes below this one are rounded to finite numbers. -/
def roundingLimit : ℚ := (2 ^ 53 - 1 / 2) * 2 ^ (971 : ℤ)

/-- Beyond all finite numbers, on either side. -/
def IsInfinite (x : Float) : Prop := x = infinity ∨ x = negInfinity

theorem IsInfinite.not_isFinite (h : IsInfinite x) : x.isFinite = false := by
  obtain rfl | rfl := h <;> decide

theorem IsInfinite.exists_unpack (h : IsInfinite x) : ∃ s, x.toModel.unpack = .infinity s := by
  obtain rfl | rfl := h
  · exact ⟨.positive, rfl⟩
  · exact ⟨.negative, rfl⟩

theorem beq_of_isInfinite (hx : x.isFinite = true) (hy : IsInfinite y) : (x == y) = false := by
  refine Bool.eq_false_iff.2 fun h => ?_
  have hlt := abs_exactValue_lt hx
  rw [(beq_iff.1 h).2.2] at hlt
  obtain rfl | rfl := hy
  · exact absurd hlt (not_lt.2 (le_abs_self overflow))
  · rw [negInfinity, exactValue_neg, abs_neg] at hlt
    exact absurd hlt (not_lt.2 (le_abs_self overflow))

theorem isInfinite_ofModel (s : Sign) : IsInfinite (.ofModel (.pack (.infinity s))) := by
  cases s with
  | positive => exact .inl rfl
  | negative => exact .inr rfl

theorem isInfinite_of_large (s : Sign) (hpos : 0 < m) (h : 971 < q) :
    IsInfinite (.ofModel (.pack (.finite s m q hpos))) := by
  rw [ofModel_pack_of_large s hpos h]
  exact isInfinite_ofModel s

/-! ### Finite numbers -/

theorem isNaN_of_isFinite (h : x.isFinite = true) : x.isNaN = false := by
  refine Bool.eq_false_iff.2 fun hnan => ?_
  rw [isNaN_iff.1 hnan] at h
  revert h
  decide

theorem isFinite_zero (s : Sign) : (Float.ofModel (.pack (.zero s))).isFinite = true := by
  cases s <;> decide

theorem isFinite_stored (hc : IsCanonical m q) : (stored s hc).isFinite = true := by
  show (stored s hc).toModel.unpack.isFinite = true
  rw [unpack_stored]
  rfl

theorem abs_exactValue_stored (hc : IsCanonical m q) :
    |exactValue (stored s hc)| = m * 2 ^ q := by
  have hpos := (magnitude_bounds hc).1
  rw [exactValue, unpack_stored]
  cases s with
  | positive => exact abs_of_pos hpos
  | negative => rw [unpackedValue, abs_neg, abs_of_pos hpos]

/-- A finite number is zero or one of the numbers that are stored. -/
theorem zero_or_stored (h : x.isFinite = true) :
    (∃ s, x.toModel.unpack = .zero s ∧ exactValue x = 0) ∨
      ∃ (s : Sign) (m : ℕ) (q : ℤ) (hc : IsCanonical m q), x = stored s hc := by
  obtain ⟨-, hunpack⟩ | ⟨hc, hunpack⟩ := unpack_ofFloat h
  · refine .inl ⟨_, hunpack, ?_⟩
    rw [exactValue, hunpack]
    rfl
  · exact .inr ⟨_, _, _, hc, (stored_of_unpack hc hunpack).symm⟩

theorem lt_roundingLimit : 2 ^ (1023 : ℤ) < roundingLimit := by
  have hsplit : (2 : ℚ) ^ (1023 : ℤ) = 2 ^ 52 * 2 ^ (971 : ℤ) := by
    rw [← zpow_natCast, ← zpow_add₀ two_ne_zero]
    rfl
  rw [hsplit]
  unfold roundingLimit
  gcongr
  norm_num

theorem roundingLimit_lt : roundingLimit < 2 ^ (1024 : ℤ) := by
  have hsplit : (2 : ℚ) ^ (1024 : ℤ) = 2 ^ 53 * 2 ^ (971 : ℤ) := by
    rw [← zpow_natCast, ← zpow_add₀ two_ne_zero]
    rfl
  rw [hsplit]
  unfold roundingLimit
  gcongr
  norm_num

theorem roundingLimit_pos : 0 < roundingLimit :=
  (zpow_pos two_pos _).trans lt_roundingLimit

/-- The greatest number lies below the limit by half a unit of its last place. -/
theorem abs_exactValue_lt_limit (h : x.isFinite = true) : |exactValue x| < roundingLimit := by
  obtain ⟨s, -, hzero⟩ | ⟨s, m, q, hc, rfl⟩ := zero_or_stored h
  · rw [hzero, abs_zero]
    exact roundingLimit_pos
  · have hm : (m : ℚ) ≤ 2 ^ 53 - 1 := by
      have hlt : (m : ℚ) + 1 ≤ 2 ^ 53 := by exact_mod_cast hc.lt
      linarith
    calc
      |exactValue (stored s hc)| = m * 2 ^ q := abs_exactValue_stored hc
      _ ≤ m * 2 ^ (971 : ℤ) := by
        gcongr
        · exact one_le_two
        · exact hc.exponent_le
      _ < roundingLimit := by
        unfold roundingLimit
        gcongr
        linarith

/-! ### Rounding at the limit -/

section Rounding

variable {accuracy : Accuracy} {v : ℚ}

/-- A value below the limit is rounded to a finite number, and any other to an infinity. -/
theorem isFinite_roundWithAccuracy (s : Sign)
    (h : Represents (.ofMantissaAndAccuracy M accuracy) v) (hfits : 52 ≤ M.log2 ∨ E ≤ -1074) :
    let result := Float.ofModel (.pack (roundWithAccuracy Format.binary64 s M E accuracy))
    if v * 2 ^ E < roundingLimit then result.isFinite = true else IsInfinite result := by
  obtain ⟨t, hmin, hlt, hge, hresult⟩ := roundWithAccuracy_cases s h hfits
  generalize v * 2 ^ E = v at *
  dsimp only
  obtain hsmall | rfl | hlarge := lt_trichotomy t 971
  · have hlimit : v < roundingLimit :=
      (hlt.trans_le (zpow_le_zpow_right₀ one_le_two (by omega))).trans lt_roundingLimit
    rw [if_pos hlimit]
    split at hresult
    · obtain ⟨n, hshort, hlong, hround⟩ := hresult
      rw [hround]
      split
      · exact isFinite_zero s
      · rename_i hn
        exact isFinite_stored ⟨Nat.pos_of_ne_zero hn, hshort, hmin, hsmall.le, hlong⟩
    · rw [hresult]
      exact isFinite_stored ⟨Nat.two_pow_pos 52, by decide, by omega, hsmall, .inl (le_refl _)⟩
  · -- At the greatest exponent the limit is where a digit too many comes up.
    change if v < roundingLimit then _ else _ at hresult
    split at hresult
    · rename_i hlimit
      obtain ⟨n, hshort, hlong, hround⟩ := hresult
      have hn : n ≠ 0 := by omega
      rw [if_pos hlimit, hround, dif_neg hn]
      exact isFinite_stored ⟨Nat.pos_of_ne_zero hn, hshort, hmin, le_refl _, hlong⟩
    · rename_i hlimit
      rw [if_neg hlimit, hresult]
      exact isInfinite_of_large s _ (by decide)
  · have hlimit : roundingLimit ≤ v := by
      refine roundingLimit_lt.le.trans (le_trans ?_ (hge.resolve_left (by omega)))
      exact zpow_le_zpow_right₀ one_le_two (by omega)
    rw [if_neg (not_lt.2 hlimit)]
    split at hresult
    · obtain ⟨n, -, hlong, hround⟩ := hresult
      rw [hround, dif_neg (by omega)]
      exact isInfinite_of_large s _ hlarge
    · rw [hresult]
      exact isInfinite_of_large s _ (by omega)

end Rounding

/-! ### Products and quotients -/

/-- A product of stored numbers has digits enough, or an exponent so small that it needs none. -/
theorem fits_mul {m' : ℕ} {q' : ℤ} (hc : IsCanonical m q) (hc' : IsCanonical m' q') :
    52 ≤ (m * m').log2 ∨ q + q' ≤ -1074 := by
  obtain hlong | hmin := hc.normal
  · exact .inl (le_log2_mul hc.pos hc'.pos hlong)
  · obtain hlong' | hmin' := hc'.normal
    · rw [Nat.mul_comm]
      exact .inl (le_log2_mul hc'.pos hc.pos hlong')
    · omega

/-- A product of finite numbers is finite if it lies below the limit, and otherwise an infinity. -/
theorem isFinite_mul (hx : x.isFinite = true) (hy : y.isFinite = true) :
    if |exactValue x * exactValue y| < roundingLimit then (x * y).isFinite = true
    else IsInfinite (x * y) := by
  have hproduct : x * y = .ofModel (.pack (UnpackedFloat.mul Format.binary64
    x.toModel.unpack y.toModel.unpack)) := rfl
  obtain ⟨s, hunpack, hzero⟩ | ⟨s, m, q, hc, rfl⟩ := zero_or_stored hx
  · rw [hzero, zero_mul, abs_zero, if_pos roundingLimit_pos, hproduct, hunpack]
    obtain ⟨s', hunpack', -⟩ | ⟨s', m', q', hc', rfl⟩ := zero_or_stored hy
    · rw [hunpack']
      exact isFinite_zero (s * s')
    · rw [unpack_stored]
      exact isFinite_zero (s * s')
  · obtain ⟨s', hunpack', hzero'⟩ | ⟨s', m', q', hc', rfl⟩ := zero_or_stored hy
    · rw [hzero', mul_zero, abs_zero, if_pos roundingLimit_pos, hproduct, hunpack', unpack_stored]
      exact isFinite_zero (s * s')
    · rw [abs_mul, abs_exactValue_stored, abs_exactValue_stored, hproduct, unpack_stored,
        unpack_stored, ← mul_zpow_add]
      exact isFinite_roundWithAccuracy (s * s') represents_exact (fits_mul hc hc')

/-- So is a quotient, unless zero is the divisor. -/
theorem isFinite_div (hx : x.isFinite = true) (hy : y.isFinite = true) (hy' : exactValue y ≠ 0) :
    if |exactValue x / exactValue y| < roundingLimit then (x / y).isFinite = true
    else IsInfinite (x / y) := by
  have hquotient : x / y = .ofModel (.pack (UnpackedFloat.div Format.binary64
    x.toModel.unpack y.toModel.unpack)) := rfl
  obtain ⟨s', -, hzero'⟩ | ⟨s', m', q', hc', rfl⟩ := zero_or_stored hy
  · exact absurd hzero' hy'
  · obtain ⟨s, hunpack, hzero⟩ | ⟨s, m, q, hc, rfl⟩ := zero_or_stored hx
    · rw [hzero, zero_div, abs_zero, if_pos roundingLimit_pos, hquotient, hunpack, unpack_stored]
      exact isFinite_zero (s / s')
    · obtain ⟨v, hrepresents, hvalue⟩ := @represents_divCore m m' q q' hc'.pos
      rw [abs_div, abs_exactValue_stored, abs_exactValue_stored, hquotient, unpack_stored,
        unpack_stored, ← hvalue]
      exact isFinite_roundWithAccuracy (s / s') hrepresents (fits_divCore hc.pos hc'.pos)

/-- A division by at least one does not lead beyond the limit. -/
theorem isFinite_div_of_one_le (hx : x.isFinite = true) (hy : y.isFinite = true)
    (hone : 1 ≤ exactValue y) : (x / y).isFinite = true := by
  have hpos : 0 < exactValue y := zero_lt_one.trans_le hone
  have hquotient := isFinite_div hx hy hpos.ne'
  have hle : |exactValue x / exactValue y| < roundingLimit := by
    rw [abs_div, abs_of_pos hpos]
    exact (div_le_self (abs_nonneg _) hone).trans_lt (abs_exactValue_lt_limit hx)
  rwa [if_pos hle] at hquotient

/-- An infinity is not made finite by a division. -/
theorem IsInfinite.div (hx : IsInfinite x) (hy : y.isFinite = true) (hy' : exactValue y ≠ 0) :
    IsInfinite (x / y) := by
  have hquotient : x / y = .ofModel (.pack (UnpackedFloat.div Format.binary64
    x.toModel.unpack y.toModel.unpack)) := rfl
  obtain ⟨s', -, hzero'⟩ | ⟨s', m', q', hc', rfl⟩ := zero_or_stored hy
  · exact absurd hzero' hy'
  · obtain ⟨s, hunpack⟩ := hx.exists_unpack
    rw [hquotient, hunpack, unpack_stored]
    exact isInfinite_ofModel (s / s')

end RowFormula.Number
