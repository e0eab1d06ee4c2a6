/-
# Exact values

Every number that is not missing has an exact value, and numbers are ordered as their values; the
infinities stand for values beyond all others.  The sum of two positive numbers is the number whose
interval their exact sum lies in.  So natural numbers are added exactly up to `2 ^ 53`, which stays
the same when one is added: the exact sum lies half way to the next number, and the tie goes back.
-/

import RowFormula.Proofs.Rendering

namespace RowFormula.Number

open Float.Model (Format UnpackedFloat)
open Float.Model.UnpackedFloat

variable {m m' n : ℕ} {q q' : ℤ} {x y z : Float}

/-! ### Values -/

/-- The value of the infinities: the least power of two that is no number. -/
def overflow : ℚ := 2 ^ (1024 : ℤ)

theorem overflow_pos : 0 < overflow :=
  zpow_pos two_pos 1024

/-- The value that the parts of a number stand for, zero for the missing number. -/
def unpackedValue : UnpackedFloat → ℚ
  | .notANumber | .zero _ => 0
  | .infinity .positive => overflow
  | .infinity .negative => -overflow
  | .finite .positive m q _ => m * 2 ^ q
  | .finite .negative m q _ => -(m * 2 ^ q)

/-- The exact value of a number. -/
def exactValue (x : Float) : ℚ :=
  unpackedValue x.toModel.unpack

theorem isCanonical_of_unpack {s : Sign} {hm : 0 < m} (h : x.toModel.unpack = .finite s m q hm) :
    IsCanonical m q := by
  have hfinite : x.isFinite = true := by
    show x.toModel.unpack.isFinite = true
    rw [h]
    rfl
  obtain ⟨-, hzero⟩ | ⟨hc, hunpack⟩ := unpack_ofFloat hfinite
  · rw [h] at hzero
    cases hzero
  · rw [h] at hunpack
    injection hunpack with hs hmantissa hexponent
    rwa [hmantissa, hexponent]

theorem exactValue_stored (hc : IsCanonical m q) :
    exactValue (stored .positive hc) = m * 2 ^ q := by
  rw [exactValue, unpack_stored]
  rfl

/-- A positive value that is not beyond all numbers is that of a stored number. -/
theorem exists_stored (hfinite : x.isFinite = true) (hpos : 0 < exactValue x) :
    ∃ (m : ℕ) (q : ℤ) (hc : IsCanonical m q), x = stored .positive hc := by
  change x.toModel.unpack.isFinite = true at hfinite
  unfold exactValue at hpos
  cases h : x.toModel.unpack with
  | notANumber | infinity =>
      rw [h] at hfinite
      cases hfinite
  | zero s =>
      rw [h] at hpos
      exact absurd hpos (lt_irrefl 0)
  | finite s m q hm =>
      have hc := isCanonical_of_unpack h
      cases s with
      | positive => exact ⟨m, q, hc, (stored_of_unpack hc h).symm⟩
      | negative =>
          rw [h] at hpos
          exact absurd hpos (not_lt.2 (neg_nonpos.2 (by positivity)))

/-! ### Order -/

theorem magnitude_bounds (hc : IsCanonical m q) :
    0 < (m : ℚ) * 2 ^ q ∧ (m : ℚ) * 2 ^ q < overflow :=
  ⟨(roundsTo_self m q).pos hc, (roundsTo_self m q).lt hc⟩

theorem magnitude_lt (hc : IsCanonical m q) (hc' : IsCanonical m' q') (h : q < q') :
    (m : ℚ) * 2 ^ q < m' * 2 ^ q' := by
  have hm : (m : ℚ) < 2 ^ 53 := by exact_mod_cast hc.lt
  have hm' : (2 ^ 52 : ℚ) ≤ m' := by
    have hmin := hc.le_exponent
    exact_mod_cast hc'.normal.resolve_right (by omega)
  calc
    (m : ℚ) * 2 ^ q < 2 ^ 53 * 2 ^ q := by gcongr
    _ = 2 ^ 52 * 2 ^ (q + 1) := by rw [zpow_add_one₀ two_ne_zero]; ring
    _ ≤ m' * 2 ^ q' := by
      gcongr
      · exact one_le_two
      · omega

/-- Positive numbers are compared by their exponents first. -/
theorem compare_magnitudes (hc : IsCanonical m q) (hc' : IsCanonical m' q') :
    (compare q q').then (compare m m') = compare ((m : ℚ) * 2 ^ q) (m' * 2 ^ q') := by
  obtain hlt | rfl | hgt := lt_trichotomy q q'
  · rw [compare_lt_iff_lt.2 hlt, compare_lt_iff_lt.2 (magnitude_lt hc hc' hlt)]
    rfl
  · have hpos : (0 : ℚ) < 2 ^ q := zpow_pos two_pos q
    rw [compare_eq_iff_eq.2 rfl]
    show compare m m' = _
    obtain hm | rfl | hm := lt_trichotomy m m'
    · rw [compare_lt_iff_lt.2 hm, compare_lt_iff_lt.2]
      gcongr
    · rw [compare_eq_iff_eq.2 rfl, compare_eq_iff_eq.2 rfl]
    · rw [compare_gt_iff_gt.2 hm, compare_gt_iff_gt.2]
      gcongr
  · rw [compare_gt_iff_gt.2 hgt, compare_gt_iff_gt.2 (magnitude_lt hc' hc hgt)]
    rfl

theorem compare_neg (v w : ℚ) : compare (-v) (-w) = (compare v w).swap := by
  obtain h | rfl | h := lt_trichotomy v w
  · rw [compare_lt_iff_lt.2 h, compare_gt_iff_gt.2 (neg_lt_neg h)]
    rfl
  · rw [compare_eq_iff_eq.2 rfl, compare_eq_iff_eq.2 rfl]
    rfl
  · rw [compare_gt_iff_gt.2 h, compare_lt_iff_lt.2 (neg_lt_neg h)]
    rfl

/-- Numbers are compared by their exact values. -/
theorem compare_unpack (hx : x.isNaN = false) (hy : y.isNaN = false) :
    x.toModel.unpack.compare y.toModel.unpack = some (compare (exactValue x) (exactValue y)) := by
  have htop := overflow_pos
  have hbounds {s : Sign} {m : ℕ} {q : ℤ} {hm : 0 < m} {z : Float}
      (h : z.toModel.unpack = .finite s m q hm) := magnitude_bounds (isCanonical_of_unpack h)
  have hlt {v w : ℚ} (h : v < w) : some .lt = some (compare v w) :=
    congrArg some (compare_lt_iff_lt.2 h).symm
  have hgt {v w : ℚ} (h : w < v) : some .gt = some (compare v w) :=
    congrArg some (compare_gt_iff_gt.2 h).symm
  have heq {v : ℚ} : some .eq = some (compare v v) :=
    congrArg some (compare_eq_iff_eq.2 rfl).symm
  change x.toModel.unpack.isNaN = false at hx
  change y.toModel.unpack.isNaN = false at hy
  unfold exactValue
  rcases hx' : x.toModel.unpack with s | - | s | ⟨s, m, q, hm⟩
  case notANumber =>
    rw [hx'] at hx
    cases hx
  all_goals
    rcases hy' : y.toModel.unpack with s' | - | s' | ⟨s', m', q', hm'⟩
    case notANumber =>
      rw [hy'] at hy
      cases hy
  case finite.finite =>
    have hb := hbounds hx'
    have hb' := hbounds hy'
    have hcompare := compare_magnitudes (isCanonical_of_unpack hx') (isCanonical_of_unpack hy')
    cases s <;> cases s'
    · show some ((compare q q').then (compare m m')).swap = some (compare (-_) (-_))
      rw [hcompare, compare_neg]
    · exact hlt (by simp only [unpackedValue]; linarith)
    · exact hgt (by simp only [unpackedValue]; linarith)
    · exact congrArg some hcompare
  case zero.zero => exact heq
  -- In all other pairs the signs differ, or one number is zero or an infinity.
  all_goals
    try have hb := hbounds hx'
    try have hb' := hbounds hy'
    cases s <;> cases s' <;>
      first
      | exact heq
      | exact hlt (by simp only [unpackedValue]; linarith)
      | exact hgt (by simp only [unpackedValue]; linarith)

theorem compare_of_isNaN (h : x.isNaN = true ∨ y.isNaN = true) :
    x.toModel.unpack.compare y.toModel.unpack = none := by
  rw [isNaN_iff, isNaN_iff] at h
  obtain rfl | rfl := h
  · rw [unpack_nan]
    rfl
  · rw [unpack_nan]
    cases x.toModel.unpack <;> rfl

theorem le_iff : x ≤ y ↔ x.isNaN = false ∧ y.isNaN = false ∧ exactValue x ≤ exactValue y := by
  have hle : x ≤ y ↔ (x.toModel.unpack.compare y.toModel.unpack).any (·.isLE) = true :=
    decide_eq_true_iff
  rw [hle]
  cases hx : x.isNaN with
  | true => simp [compare_of_isNaN (.inl hx)]
  | false =>
      cases hy : y.isNaN with
      | true => simp [compare_of_isNaN (.inr hy)]
      | false => simp [compare_unpack hx hy, ← Ordering.ne_gt_iff_isLE, compare_le_iff_le]

theorem lt_iff : x < y ↔ x.isNaN = false ∧ y.isNaN = false ∧ exactValue x < exactValue y := by
  have hlt : x < y ↔ (x.toModel.unpack.compare y.toModel.unpack == some .lt) = true :=
    decide_eq_true_iff
  rw [hlt]
  cases hx : x.isNaN with
  | true => simp [compare_of_isNaN (.inl hx)]
  | false =>
      cases hy : y.isNaN with
      | true => simp [compare_of_isNaN (.inr hy)]
      | false => simp [compare_unpack hx hy, compare_lt_iff_lt]

theorem beq_iff :
    (x == y) = true ↔ x.isNaN = false ∧ y.isNaN = false ∧ exactValue x = exactValue y := by
  have hbeq : (x == y) = (x.toModel.unpack.compare y.toModel.unpack == some .eq) := rfl
  rw [hbeq]
  cases hx : x.isNaN with
  | true => simp [compare_of_isNaN (.inl hx)]
  | false =>
      cases hy : y.isNaN with
      | true => simp [compare_of_isNaN (.inr hy)]
      | false => simp [compare_unpack hx hy]

theorem float_le_trans (hxy : x ≤ y) (hyz : y ≤ z) : x ≤ z := by
  rw [le_iff] at *
  exact ⟨hxy.1, hyz.2.1, hxy.2.2.trans hyz.2.2⟩

theorem not_lt_iff (hx : x.isNaN = false) (hy : y.isNaN = false) : ¬ x < y ↔ y ≤ x := by
  rw [lt_iff, le_iff]
  simp only [hx, hy, true_and, not_lt]

/-! ### Signs -/

theorem unpack_neg (x : Float) : (-x).toModel.unpack = x.toModel.unpack.neg := by
  have hneg : -x = .ofModel (.pack x.toModel.unpack.neg) := rfl
  cases h : x.toModel.unpack with
  | notANumber =>
      obtain rfl : x = nan := isNaN_iff.1 (UnpackedFloat.isNaN_iff.2 h)
      rw [neg_nan, unpack_nan]
      rfl
  | infinity s | zero s =>
      rw [hneg, h]
      cases s <;> rfl
  | finite s m q hm =>
      have hc := isCanonical_of_unpack h
      rw [← stored_of_unpack hc h, neg_stored, unpack_stored]
      rfl

theorem exactValue_neg (x : Float) : exactValue (-x) = -exactValue x := by
  rw [exactValue, exactValue, unpack_neg]
  rcases x.toModel.unpack with s | - | s | ⟨s, m, q, hm⟩
  case notANumber => exact neg_zero.symm
  case zero => cases s <;> exact neg_zero.symm
  case infinity =>
    cases s with
    | positive => rfl
    | negative => exact (neg_neg overflow).symm
  case finite =>
    cases s with
    | positive => rfl
    | negative => exact (neg_neg ((m : ℚ) * 2 ^ q)).symm

theorem isNaN_neg (x : Float) : (-x).isNaN = x.isNaN := by
  show (-x).toModel.unpack.isNaN = x.toModel.unpack.isNaN
  rw [unpack_neg]
  cases x.toModel.unpack <;> rfl

theorem float_neg_neg (x : Float) : - -x = x := by
  have hneg : - -x = .ofModel (.pack (-x).toModel.unpack.neg) := rfl
  rw [hneg, unpack_neg]
  have hunpacked : x.toModel.unpack.neg.neg = x.toModel.unpack := by
    rcases x.toModel.unpack with s | - | s | ⟨s, m, q, hm⟩
    case notANumber => rfl
    all_goals cases s <;> rfl
  rw [hunpacked, ofModel_pack_unpack]

/-- Finite numbers lie between the infinities. -/
theorem abs_exactValue_lt (h : x.isFinite = true) : |exactValue x| < overflow := by
  obtain ⟨-, hunpack⟩ | ⟨hc, hunpack⟩ := unpack_ofFloat h
  · rw [exactValue, hunpack]
    simpa [unpackedValue] using overflow_pos
  · obtain ⟨hpos, hlt⟩ := magnitude_bounds hc
    rw [exactValue, hunpack]
    cases (Dyadic.ofFloat x).sign with
    | positive => rwa [unpackedValue, abs_of_pos hpos]
    | negative => rwa [unpackedValue, abs_neg, abs_of_pos hpos]

/-! ### Sums -/

theorem add_eq_stored (hx : x.isFinite = true) (hx' : 0 < exactValue x) (hy : y.isFinite = true)
    (hy' : 0 < exactValue y) (hc : IsCanonical m q)
    (hv : RoundsTo m q (exactValue x + exactValue y)) : x + y = stored .positive hc := by
  obtain ⟨m₁, e₁, hc₁, rfl⟩ := exists_stored hx hx'
  obtain ⟨m₂, e₂, hc₂, rfl⟩ := exists_stored hy hy'
  rw [exactValue_stored, exactValue_stored] at hv
  show Float.ofModel (.pack (UnpackedFloat.add Format.binary64 (stored .positive hc₁).toModel.unpack
    (stored .positive hc₂).toModel.unpack)) = _
  rw [unpack_stored, unpack_stored, add_finite_eq hc₁.pos hc₂.pos hc hv, stored]

/-! ### Natural numbers -/

/-- The number is the natural number `n`. -/
def IsNatural (n : ℕ) (x : Float) : Prop :=
  x.isFinite = true ∧ exactValue x = n

theorem IsNatural.isNaN (h : IsNatural n x) : x.isNaN = false := by
  have hfinite := h.1
  change x.toModel.unpack.isFinite = true at hfinite
  show x.toModel.unpack.isNaN = false
  cases hunpack : x.toModel.unpack with
  | notANumber =>
      rw [hunpack] at hfinite
      cases hfinite
  | infinity | zero | finite => rfl

theorem IsNatural.le_iff (h : IsNatural n x) :
    x ≤ y ↔ y.isNaN = false ∧ (n : ℚ) ≤ exactValue y := by
  rw [Number.le_iff, h.2]
  exact and_iff_right h.isNaN

theorem isNatural_stored (hc : IsCanonical m q) (h : (m : ℚ) * 2 ^ q = n) :
    IsNatural n (stored .positive hc) := by
  refine ⟨?_, (exactValue_stored hc).trans h⟩
  show (stored .positive hc).toModel.unpack.isFinite = true
  rw [unpack_stored]
  rfl

/-- The number that counting by one does not get past. -/
def countingLimit : Float := 9007199254740992.0

theorem isCanonical_countingLimit : IsCanonical (2 ^ 52) 1 :=
  ⟨by decide, by decide, by decide, by decide, .inl (le_refl _)⟩

/-- All natural numbers up to the limit are numbers. -/
theorem exists_isCanonical (hpos : 0 < n) (hle : n ≤ 2 ^ 53) :
    ∃ (m : ℕ) (q : ℤ), IsCanonical m q ∧ (m : ℚ) * 2 ^ q = n := by
  obtain hlt | rfl := Nat.lt_or_eq_of_le hle
  · obtain ⟨m, q, hm, hunpack, -, hvalue⟩ := unpack_toFloat hpos hlt
    exact ⟨m, q, isCanonical_of_unpack hunpack, hvalue⟩
  · exact ⟨2 ^ 52, 1, isCanonical_countingLimit, by norm_num⟩

theorem isNatural_one : IsNatural 1 1.0 := by
  have hc : IsCanonical (2 ^ 52) (-52) :=
    ⟨by decide, by decide, by decide, by decide, .inl (le_refl _)⟩
  rw [← stored_of_unpack (x := 1.0) (s := .positive) hc rfl]
  exact isNatural_stored hc (by norm_num)

theorem isNatural_countingLimit : IsNatural (2 ^ 53) countingLimit := by
  rw [← stored_of_unpack (x := countingLimit) (s := .positive) isCanonical_countingLimit rfl]
  exact isNatural_stored isCanonical_countingLimit (by norm_num)

/-- Below the limit one is added exactly. -/
theorem IsNatural.add_one (h : IsNatural n x) (hpos : 0 < n) (hlt : n < 2 ^ 53) :
    IsNatural (n + 1) (x + 1.0) := by
  obtain ⟨m, q, hc, hvalue⟩ := exists_isCanonical n.succ_pos hlt
  have hsum : exactValue x + exactValue 1.0 = m * 2 ^ q := by
    rw [hvalue, h.2, isNatural_one.2]
    push_cast
    rfl
  rw [add_eq_stored h.1 (h.2 ▸ Nat.cast_pos.2 hpos) isNatural_one.1
    (isNatural_one.2 ▸ Nat.cast_pos.2 one_pos) hc (hsum ▸ roundsTo_self m q)]
  exact isNatural_stored hc hvalue

/-- At the limit the exact sum lies half way to the next number, and the limit is even. -/
theorem IsNatural.add_one_countingLimit (h : IsNatural (2 ^ 53) x) :
    IsNatural (2 ^ 53) (x + 1.0) := by
  have hround : RoundsTo (2 ^ 52) 1 (exactValue x + exactValue 1.0) := by
    rw [h.2, isNatural_one.2, RoundsTo, if_pos (by decide), lowerGap, if_pos (by decide)]
    norm_num
  rw [add_eq_stored h.1 (h.2 ▸ Nat.cast_pos.2 (by decide)) isNatural_one.1
    (isNatural_one.2 ▸ Nat.cast_pos.2 one_pos) isCanonical_countingLimit hround]
  exact isNatural_stored isCanonical_countingLimit (by norm_num)

theorem Dyadic.le_split {d : Dyadic} (h : (n : ℚ) ≤ d.mantissa * 2 ^ d.exponent) :
    n ≤ d.split.1 := by
  rw [zpow_eq_toNat two_ne_zero] at h
  unfold Dyadic.split
  split
  · rename_i hexponent
    rw [Int.toNat_of_nonpos (neg_nonpos.2 hexponent), pow_zero, div_one] at h
    exact_mod_cast h
  · rename_i hexponent
    rw [Int.toNat_of_nonpos (not_le.1 hexponent).le, pow_zero, mul_one_div,
      le_div_iff₀ (by positivity)] at h
    exact (Nat.le_div_iff_mul_le (Nat.two_pow_pos _)).2 (by exact_mod_cast h)

/-- A natural number that is not above a number is not above its whole part. -/
theorem le_toInt64 (hpos : 0 < n) (hle : n ≤ 2 ^ 53) (hx : x.isNaN = false)
    (h : (n : ℚ) ≤ exactValue x) : (n : ℤ) ≤ toInt64 x := by
  have hvalue : 0 < exactValue x := (Nat.cast_pos.2 hpos).trans_le h
  cases hfinite : x.isFinite with
  | false =>
      obtain rfl | rfl := eq_infinity_of_not_isFinite hx hfinite
      · have hlast : toInt64 infinity = maxInt64 := by decide +kernel
        rw [hlast]
        unfold maxInt64
        omega
      · exact absurd hvalue (not_lt.2 (neg_nonpos.2 overflow_pos.le))
  | true =>
      rw [toInt64, hx, if_neg Bool.false_ne_true, if_pos hfinite]
      obtain ⟨-, hunpack⟩ | ⟨hc, hunpack⟩ := unpack_ofFloat hfinite
      · rw [exactValue, hunpack] at hvalue
        exact absurd hvalue (lt_irrefl 0)
      · rw [exactValue, hunpack, Dyadic.sign] at h hvalue
        cases hnegative : (Dyadic.ofFloat x).negative with
        | true =>
            rw [hnegative] at hvalue
            exact absurd hvalue (not_lt.2 (neg_nonpos.2 (by positivity)))
        | false =>
            rw [hnegative] at h
            have hwhole := Dyadic.le_split h
            simp only [clampInt64, Dyadic.truncated, hnegative, Bool.false_eq_true, if_false,
              minInt64, maxInt64]
            omega

end RowFormula.Number
