/-
# Decimals near a number

A decimal whose value lies in the interval of a number denotes this number.  Decimals with few
digits and a small exponent are read by one product or quotient of numbers that are exact, all
others by one rounding of their exact value.
-/

import RowFormula.Proofs.Storage

namespace RowFormula.Number

open Float.Model (Format UnpackedFloat)
open Float.Model.UnpackedFloat

variable {m n : ℕ} {q : ℤ} {v : ℚ}

/-! ### Exact numbers -/

/-- A power by two natural exponents, of which one is zero. -/
theorem zpow_eq_toNat {b : ℚ} (hb : b ≠ 0) (e : ℤ) : b ^ e = b ^ e.toNat / b ^ (-e).toNat := by
  rw [← zpow_natCast, ← zpow_natCast, ← zpow_sub₀ hb]
  congr 1
  omega

/-- A number lies in its own interval. -/
theorem roundsTo_self (m : ℕ) (q : ℤ) : RoundsTo m q (m * 2 ^ q) := by
  have hq : (0 : ℚ) < 2 ^ q := zpow_pos two_pos q
  have hgap : 0 < lowerGap m q := by
    unfold lowerGap
    split <;> norm_num
  refine roundsTo_of_lt ?_ ?_
  · gcongr
    linarith
  · gcongr
    linarith

/-- Natural numbers that fit are stored with all digits. -/
theorem unpack_toFloat (hpos : 0 < n) (hlt : n < 2 ^ 53) :
    ∃ m e hm, n.toUInt64.toFloat.toModel.unpack = .finite .positive m e hm ∧ 2 ^ 52 ≤ m ∧
      (m : ℚ) * 2 ^ e = n := by
  have hlow := Nat.log2_self_le hpos.ne'
  have hhigh := @Nat.lt_log2_self n
  have hlog : n.log2 < 53 := (Nat.log2_lt hpos.ne').2 hlt
  obtain ⟨s, hs⟩ := Nat.le.dest (Nat.le_of_lt_succ hlog)
  have hscale : n <<< s = n * 2 ^ s := Nat.shiftLeft_eq n s
  have hdigits : 2 ^ 52 ≤ n * 2 ^ s ∧ n * 2 ^ s < 2 ^ 53 := by
    rw [← hs]
    constructor
    · calc
        2 ^ (n.log2 + s) = 2 ^ n.log2 * 2 ^ s := Nat.pow_add 2 _ _
        _ ≤ n * 2 ^ s := Nat.mul_le_mul_right _ hlow
    · calc
        n * 2 ^ s < 2 ^ (n.log2 + 1) * 2 ^ s :=
          Nat.mul_lt_mul_of_pos_right hhigh (Nat.two_pow_pos s)
        _ = 2 ^ (n.log2 + 1 + s) := (Nat.pow_add 2 _ _).symm
        _ = 2 ^ 53 := by congr 1; omega
  have hc : IsCanonical (n <<< s) (-s) := by
    rw [hscale]
    exact ⟨by omega, hdigits.2, by omega, by omega, .inl hdigits.1⟩
  have hround : UnpackedFloat.ofNat Format.binary64 n =
      .finite .positive (n <<< s) (-s) hc.pos := by
    have hcompare : compare (n : ℤ) 0 = .gt := Int.compare_eq_gt.2 (by omega)
    simp only [UnpackedFloat.ofNat, UnpackedFloat.ofInt, UnpackedFloat.normalize, hcompare,
      Int.toNat_natCast]
    refine round_eq _ hpos hc ?_
    rw [← value_shiftLeft n s 0, zero_sub]
    exact roundsTo_self _ _
  refine ⟨n <<< s, -s, hc.pos, ?_, hscale ▸ hdigits.1, ?_⟩
  · have hnat : n.toUInt64.toNat = n := by
      rw [UInt64.toNat_ofNat']
      omega
    show unpack Format.binary64 (pack Format.binary64
      (UnpackedFloat.ofNat Format.binary64 n.toUInt64.toNat)) = _
    rw [hnat, hround, unpack_pack_finite _ hc]
  · rw [hscale, zpow_neg, zpow_natCast]
    push_cast
    field_simp

/-- Natural numbers of any size are multiplied in a form that has digits enough. -/
theorem shiftLeft_spec (hpos : 0 < n) :
    2 ^ 52 ≤ n <<< Format.binary64.mantissaBits ∧
      ((n <<< Format.binary64.mantissaBits : ℕ) : ℚ) * 2 ^ (-Format.binary64.mantissaBits : ℤ) =
        n := by
  rw [show Format.binary64.mantissaBits = 53 from rfl, Nat.shiftLeft_eq, zpow_neg, zpow_natCast]
  constructor
  · exact Nat.le_trans (by decide) (Nat.le_mul_of_pos_left _ hpos)
  · rw [Nat.cast_mul, Nat.cast_pow, Nat.cast_ofNat, mul_inv_cancel_right₀ (by norm_num)]

/-- The table of powers of ten is exact. -/
theorem unpack_powerOfTen (hn : n < Float.exactlyRepresentablePowersOfTen.size) :
    ∃ m e hm, (Float.exactlyRepresentablePowersOfTen[n]).toModel.unpack =
      .finite .positive m e hm ∧ (m : ℚ) * 2 ^ e = 10 ^ n := by
  have hcheck : ∀ i : Fin 23,
      (match (Float.exactlyRepresentablePowersOfTen[i]).toModel.unpack with
        | .finite .positive m e _ => decide (m * 2 ^ e.toNat = 10 ^ i.val * 2 ^ (-e).toNat)
        | _ => false) = true := by
    decide +kernel
  have hi := hcheck ⟨n, hn⟩
  split at hi
  · rename_i m e hm hfinite
    refine ⟨m, e, hm, hfinite, ?_⟩
    have hvalue : (m : ℚ) * 2 ^ e.toNat = 10 ^ n * 2 ^ (-e).toNat := by
      exact_mod_cast of_decide_eq_true hi
    rw [zpow_eq_toNat two_ne_zero, ← mul_div_assoc, hvalue]
    field_simp
  · cases hi

/-! ### Bounds -/

theorem RoundsTo.ge (hv : RoundsTo m q v) (hc : IsCanonical m q) : (2 : ℚ) ^ (-1075 : ℤ) ≤ v := by
  have hm : (1 : ℚ) ≤ m := by exact_mod_cast hc.pos
  have hgap := lowerGap_le m q
  calc
    (2 : ℚ) ^ (-1075 : ℤ) = 1 / 2 * 2 ^ (-1074 : ℤ) := by
      rw [show (-1074 : ℤ) = 1 + -1075 by norm_num, zpow_one_add₀ two_ne_zero]
      ring
    _ ≤ (m - lowerGap m q) * 2 ^ q := by
      have hunits : 1 / 2 ≤ m - lowerGap m q := by linarith
      gcongr
      exacts [one_le_two, hc.le_exponent]
    _ ≤ v := hv.bounds.1

theorem RoundsTo.lt (hv : RoundsTo m q v) (hc : IsCanonical m q) : v < (2 : ℚ) ^ (1024 : ℤ) := by
  have hm : (m : ℚ) + 1 ≤ 2 ^ 53 := by exact_mod_cast hc.lt
  calc
    v ≤ (m + 1 / 2) * 2 ^ q := hv.bounds.2
    _ < 2 ^ 53 * 2 ^ q := by gcongr; linarith
    _ ≤ 2 ^ 53 * 2 ^ (971 : ℤ) := by gcongr; exacts [one_le_two, hc.exponent_le]
    _ = 2 ^ (1024 : ℤ) := by
      rw [← zpow_natCast, ← zpow_add₀ two_ne_zero]
      rfl

theorem RoundsTo.pos (hv : RoundsTo m q v) (hc : IsCanonical m q) : 0 < v :=
  (zpow_pos two_pos _).trans_le (hv.ge hc)

/-! ### Decimals -/

/-- The value of a decimal. -/
def Decimal.value (d : Decimal) : ℚ := d.digits * 10 ^ d.exponent

variable {e : ℤ}

/-- A decimal in the range of numbers passes the checks against huge powers. -/
theorem exponent_bounds (hc : IsCanonical m q) (hv : RoundsTo m q (n * 10 ^ e)) :
    0 < n ∧ e ≤ 2 ^ 11 ∧ -(2 ^ 11 + n.log2 : ℤ) ≤ e := by
  have hpos : (0 : ℚ) < n := pos_of_mul_pos_left (hv.pos hc) (zpow_pos (by norm_num) e).le
  have hn : 0 < n := by exact_mod_cast hpos
  refine ⟨hn, ?_, ?_⟩
  · have hone : (1 : ℚ) ≤ n := by exact_mod_cast hn
    have hlt : (10 : ℚ) ^ e < 10 ^ (1024 : ℤ) :=
      calc
        (10 : ℚ) ^ e ≤ n * 10 ^ e := le_mul_of_one_le_left (zpow_pos (by norm_num) e).le hone
        _ < 2 ^ (1024 : ℤ) := hv.lt hc
        _ ≤ 10 ^ (1024 : ℤ) := by
          rw [zpow_ofNat, zpow_ofNat]
          gcongr
          norm_num
    have := (zpow_lt_zpow_iff_right₀ (by norm_num : (1 : ℚ) < 10)).1 hlt
    omega
  · by_contra hsmall
    have hdigits : (n : ℚ) < 10 ^ (n.log2 + 1) := by
      calc
        (n : ℚ) < 2 ^ (n.log2 + 1) := by exact_mod_cast Nat.lt_log2_self
        _ ≤ 10 ^ (n.log2 + 1) := by gcongr; norm_num
    have hvalue : n * (10 : ℚ) ^ e < 10 ^ (-1075 : ℤ) :=
      calc
        n * (10 : ℚ) ^ e < 10 ^ (n.log2 + 1) * 10 ^ e := by gcongr
        _ = 10 ^ ((n.log2 + 1 : ℕ) + e) := by rw [zpow_add₀ (by norm_num), zpow_natCast]
        _ ≤ 10 ^ (-1075 : ℤ) := by
          refine zpow_le_zpow_right₀ (by norm_num) ?_
          push_cast
          omega
    have htwo : (10 : ℚ) ^ (-1075 : ℤ) ≤ 2 ^ (-1075 : ℤ) := by
      rw [zpow_neg, zpow_neg, zpow_ofNat, zpow_ofNat]
      gcongr
      norm_num
    exact absurd (hv.ge hc) (not_le.2 (hvalue.trans_le htwo))

/-- A decimal in the interval of a number is rounded to it. -/
theorem ofScientific_eq (hc : IsCanonical m q) (hv : RoundsTo m q (n * 10 ^ e)) :
    ofScientific Format.binary64 n e = .finite .positive m q hc.pos := by
  obtain ⟨hn, hle, hge⟩ := exponent_bounds hc hv
  rw [ofScientific, dif_neg hn.ne', if_neg (by omega : ¬ e > 2 ^ 11)]
  rw [if_neg (by omega : ¬ e < -((2 ^ 11 : ℤ) + n.log2))]
  split
  · rename_i he
    refine mul_finite_eq .positive .positive _ _ (shiftLeft_spec hn).1 hc ?_
    convert hv using 1
    obtain ⟨k, rfl⟩ := Int.eq_ofNat_of_zero_le he
    rw [(shiftLeft_spec hn).2, Int.toNat_natCast, zpow_natCast]
    push_cast
    rw [mul_one]
  · rename_i he
    refine div_finite_eq .positive .positive hn _ hc ?_
    convert hv using 1
    obtain ⟨k, hk⟩ := Int.eq_ofNat_of_zero_le (show 0 ≤ -e by omega)
    obtain rfl : e = -k := by omega
    rw [neg_neg, Int.toNat_natCast, zpow_neg, zpow_natCast]
    push_cast
    rw [mul_one, mul_one, div_eq_mul_inv]

namespace Decimal

variable {d : Decimal}

/-- A decimal in the interval of a number denotes this number. -/
theorem denoted_of_roundsTo (hc : IsCanonical m q) (hv : RoundsTo m q d.value) :
    d.denoted = stored .positive hc := by
  obtain ⟨hn, -, -⟩ := exponent_bounds hc hv
  by_cases hfew : d.digits < 2 ^ 53 ∧ d.exponent.natAbs ≤ 22
  · obtain ⟨m₁, e₁, h₁, hunpack₁, hlong, hvalue₁⟩ := unpack_toFloat hn hfew.1
    obtain ⟨m₂, e₂, h₂, hunpack₂, hvalue₂⟩ := unpack_powerOfTen (Nat.lt_succ_of_le hfew.2)
    rw [denoted, Float.ofScientific, dif_pos hfew]
    by_cases hneg : d.exponent < 0
    · have hquotient := @div_finite_eq m q _ _ e₁ e₂ .positive .positive h₁ h₂ hc
      rw [← hunpack₁, ← hunpack₂] at hquotient
      rw [decide_eq_true hneg]
      refine congrArg (fun u => Float.ofModel (.pack u)) (hquotient ?_)
      convert hv using 1
      rw [hvalue₁, hvalue₂, value, div_eq_mul_inv, ← zpow_natCast, ← zpow_neg]
      congr 2
      omega
    · have hproduct := @mul_finite_eq m q _ _ e₁ e₂ .positive .positive h₁ h₂ hlong hc
      rw [← hunpack₁, ← hunpack₂] at hproduct
      rw [decide_eq_false hneg]
      refine congrArg (fun u => Float.ofModel (.pack u)) (hproduct ?_)
      convert hv using 1
      rw [hvalue₁, hvalue₂, value, ← zpow_natCast]
      congr 2
      omega
  · rw [denoted_eq (by omega), Float.Model.ofScientific, ofScientific_eq hc hv]
    rfl

end Decimal

end RowFormula.Number
