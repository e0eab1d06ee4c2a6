/-
# Whole numbers as numbers

A whole number keeps its sign when it becomes a number, however large it is: it is stored with
the digits that fit, or it is too large and becomes an infinity.  So only zero becomes zero.
-/

import RowFormula.Proofs.Equality
import RowFormula.Proofs.Scientific

namespace RowFormula.Number

open Float.Model (Format UnpackedFloat)
open Float.Model.UnpackedFloat

/-! ### Numbers on one side of zero -/

/-- The number is finite or an infinity, and on the side of zero that the sign tells. -/
def HasSign (s : Sign) (x : Float) : Prop :=
  (∃ (m : ℕ) (q : ℤ) (hc : IsCanonical m q), x = stored s hc) ∨
    x = .ofModel (.pack (.infinity s))

variable {x y : Float} {s : Sign}

theorem HasSign.isNaN (h : HasSign s x) : x.isNaN = false := by
  obtain ⟨m, q, hc, rfl⟩ | rfl := h
  · show (stored s hc).toModel.unpack.isNaN = false
    rw [unpack_stored]
    rfl
  · cases s <;> rfl

theorem HasSign.neg (h : HasSign s x) : HasSign (-s) (-x) := by
  obtain ⟨m, q, hc, rfl⟩ | rfl := h
  · exact .inl ⟨m, q, hc, neg_stored s hc⟩
  · refine .inr ?_
    cases s <;> rfl

theorem HasSign.neg_neg (h : HasSign s x) : - -x = x := by
  obtain ⟨m, q, hc, rfl⟩ | rfl := h
  · rw [neg_stored, neg_stored]
    cases s <;> rfl
  · cases s <;> rfl

theorem orderNumbers_of_compare {o : Ordering}
    (h : x.toModel.unpack.compare y.toModel.unpack = some o) : Value.orderNumbers x y = o := by
  have hlt : x < y ↔ (x.toModel.unpack.compare y.toModel.unpack == some .lt) = true :=
    decide_eq_true_iff
  have heq : (x == y) = (x.toModel.unpack.compare y.toModel.unpack == some .eq) := rfl
  simp only [Value.orderNumbers, hlt, heq, h]
  cases o <;> rfl

/-- A number is ordered to zero as any whole number of its sign. -/
theorem HasSign.orderNumbers_zero (h : HasSign s x) {n : ℕ} (hn : 0 < n) :
    Value.orderNumbers x 0.0 = compare (s.apply (n : ℤ)) 0 := by
  have hzero : (0.0 : Float).toModel.unpack = .zero .positive := by rfl
  have hside : Value.orderNumbers x 0.0 = compare (s.apply 1) 0 := by
    obtain ⟨m, q, hc, rfl⟩ | rfl := h
    · refine orderNumbers_of_compare ?_
      rw [unpack_stored, hzero]
      cases s <;> rfl
    · cases s <;> rfl
  rw [hside]
  cases s with
  | positive => exact (Int.compare_eq_gt.2 (Int.natCast_pos.2 hn)).symm
  | negative => exact (Int.compare_eq_lt.2 (Int.neg_neg_of_pos (Int.natCast_pos.2 hn))).symm

/-! ### The sign of a whole number -/

/-- A product of at least one is positive. -/
theorem hasSign_mul {m₁ m₂ : ℕ} {e₁ e₂ : ℤ} (h₁ : 0 < m₁) (h₂ : 0 < m₂)
    (hlong : 2 ^ 52 ≤ m₁) (hone : (1 : ℚ) ≤ m₁ * 2 ^ e₁ * (m₂ * 2 ^ e₂)) :
    HasSign .positive (.ofModel (.pack (UnpackedFloat.mul Format.binary64
      (.finite .positive m₁ e₁ h₁) (.finite .positive m₂ e₂ h₂)))) := by
  have hlarge : (2 : ℚ) ^ (-1021 : ℤ) ≤ (m₁ * m₂ : ℕ) * 2 ^ (e₁ + e₂) :=
    calc
      (2 : ℚ) ^ (-1021 : ℤ) ≤ 1 := zpow_le_one_of_nonpos₀ one_le_two (by norm_num)
      _ ≤ m₁ * 2 ^ e₁ * (m₂ * 2 ^ e₂) := hone
      _ = (m₁ * m₂ : ℕ) * 2 ^ (e₁ + e₂) := (mul_zpow_add m₁ m₂ e₁ e₂).symm
  obtain ⟨m, q, hm, hround, hlow, hlt, hmin⟩ := exists_roundWithAccuracy .positive
    represents_exact (.inl (le_log2_mul h₁ h₂ hlong)) hlarge
  rw [show UnpackedFloat.mul Format.binary64 (.finite .positive m₁ e₁ h₁)
    (.finite .positive m₂ e₂ h₂) = .finite .positive m q hm from hround]
  by_cases hmax : q ≤ 971
  · exact .inl ⟨m, q, ⟨hm, hlt, hmin, hmax, .inl hlow⟩, rfl⟩
  · exact .inr (ofModel_pack_of_large .positive hm (not_le.1 hmax))

theorem hasSign_ofNat {n : ℕ} (hn : 0 < n) : HasSign .positive (Float.ofNat n) := by
  have hone : (1 : ℚ) ≤ n := by exact_mod_cast hn
  show HasSign .positive (Float.ofScientific n false 0)
  by_cases hsmall : n < 2 ^ 53
  · obtain ⟨m₁, e₁, h₁, hunpack₁, hlong, hvalue₁⟩ := unpack_toFloat hn hsmall
    obtain ⟨m₂, e₂, h₂, hunpack₂, hvalue₂⟩ := unpack_powerOfTen (n := 0) (by decide : 0 < 23)
    have hproduct := @hasSign_mul m₁ m₂ e₁ e₂ h₁ h₂ hlong
    rw [hvalue₁, hvalue₂, pow_zero, mul_one, ← hunpack₁, ← hunpack₂] at hproduct
    rw [Float.ofScientific, dif_pos ⟨hsmall, Nat.zero_le 22⟩]
    exact hproduct hone
  · have hbound : -((2 ^ 11 : ℤ) + n.log2) ≤ 0 := by omega
    rw [Float.ofScientific, dif_neg (by omega)]
    show HasSign .positive (.ofModel (.pack (ofScientific Format.binary64 n 0)))
    rw [ofScientific, dif_neg hn.ne', if_neg (by decide), if_neg (not_lt.2 hbound),
      if_pos (le_refl 0)]
    refine hasSign_mul _ _ (shiftLeft_spec hn).1 ?_
    rw [(shiftLeft_spec hn).2]
    simpa using hone

/-- A whole number has the same order to zero as the number that it becomes. -/
theorem orderNumbers_ofInt (n : ℤ) : Value.orderNumbers (ofInt n) 0.0 = compare n 0 := by
  cases n with
  | ofNat n =>
      obtain rfl | hn := Nat.eq_zero_or_pos n
      · rfl
      · exact (hasSign_ofNat hn).orderNumbers_zero hn
  | negSucc n => exact (hasSign_ofNat n.succ_pos).neg.orderNumbers_zero n.succ_pos

theorem ofInt_beq_zero_iff {n : ℤ} : (ofInt n == 0.0) = true ↔ n = 0 := by
  constructor
  · intro h
    have horder : Value.orderNumbers (ofInt n) 0.0 = .eq := by
      obtain ⟨-, -, hzero | ⟨hzero, -⟩ | ⟨hzero, -⟩⟩ := Float.beq_iff_ne_nan_and_eq.1 h <;>
        rw [hzero] <;> rfl
    exact compare_eq_iff_eq.1 ((orderNumbers_ofInt n).symm.trans horder)
  · rintro rfl
    rfl

theorem isNaN_ofInt (n : ℤ) : (ofInt n).isNaN = false := by
  cases n with
  | ofNat n =>
      obtain rfl | hn := Nat.eq_zero_or_pos n
      · rfl
      · exact (hasSign_ofNat hn).isNaN
  | negSucc n => exact (hasSign_ofNat n.succ_pos).neg.isNaN

/-- The sign may be changed before or after. -/
theorem ofInt_neg (n : ℤ) : (ofInt (-n) == -ofInt n) = true := by
  cases n with
  | ofNat n =>
      obtain rfl | hn := Nat.eq_zero_or_pos n
      · rfl
      · obtain ⟨n, rfl⟩ := Nat.exists_eq_succ_of_ne_zero hn.ne'
        exact beq_self (hasSign_ofNat hn).neg.isNaN
  | negSucc n =>
      have hsign := hasSign_ofNat n.succ_pos
      rw [show ofInt (-.negSucc n) = Float.ofNat (n + 1) from rfl,
        show ofInt (.negSucc n) = -Float.ofNat (n + 1) from rfl, hsign.neg_neg]
      exact beq_self hsign.isNaN

end RowFormula.Number
