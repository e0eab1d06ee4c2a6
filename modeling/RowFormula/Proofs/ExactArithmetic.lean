/-
# Exact results

Natural numbers up to `2 ^ 53` are numbers, and arithmetic on numbers is exact where its result is
one of them: sums, differences and products, quotients that leave no rest, and rounding.  A natural
number other than zero is stored in one form only, so such results are not merely equal but the
same.
-/

import RowFormula.Proofs.ExactValues

namespace RowFormula.Number

open Float.Model (Format UnpackedFloat)
open Float.Model.UnpackedFloat

variable {m m' n a b c : ℕ} {q q' : ℤ} {x y : Float}

/-! ### How natural numbers are stored -/

/-- A value has one canonical form. -/
theorem IsCanonical.unique (hc : IsCanonical m q) (hc' : IsCanonical m' q')
    (h : (m : ℚ) * 2 ^ q = m' * 2 ^ q') : m = m' ∧ q = q' := by
  obtain hlt | rfl | hgt := lt_trichotomy q q'
  · exact absurd h (magnitude_lt hc hc' hlt).ne
  · refine ⟨?_, rfl⟩
    exact_mod_cast mul_right_cancel₀ (zpow_ne_zero q two_ne_zero) h
  · exact absurd h (magnitude_lt hc' hc hgt).ne'

/-- Natural numbers other than zero have all their digits. -/
theorem IsCanonical.le_of_value (hc : IsCanonical m q) (hn : 0 < n)
    (h : (m : ℚ) * 2 ^ q = n) : 2 ^ 52 ≤ m := by
  refine hc.normal.resolve_right fun hq => ?_
  have hone : (1 : ℚ) ≤ n := by exact_mod_cast hn
  have hm : (m : ℚ) < 2 ^ 53 := by exact_mod_cast hc.lt
  have hsmall : (m : ℚ) * 2 ^ q < 1 :=
    calc
      (m : ℚ) * 2 ^ q < 2 ^ 53 * 2 ^ q := by gcongr
      _ = 2 ^ (-1021 : ℤ) := by
        rw [hq, ← zpow_natCast, ← zpow_add₀ two_ne_zero]
        rfl
      _ ≤ 1 := zpow_le_one_of_nonpos₀ one_le_two (by norm_num)
  exact absurd (h ▸ hsmall) (not_lt.2 hone)

theorem IsNatural.exists_stored (h : IsNatural n x) (hpos : 0 < n) :
    ∃ (m : ℕ) (q : ℤ) (hc : IsCanonical m q),
      x = stored .positive hc ∧ (m : ℚ) * 2 ^ q = n ∧ 2 ^ 52 ≤ m := by
  obtain ⟨m, q, hc, rfl⟩ := Number.exists_stored h.1 (h.2 ▸ Nat.cast_pos.2 hpos)
  have hvalue : (m : ℚ) * 2 ^ q = n := (exactValue_stored hc).symm.trans h.2
  exact ⟨m, q, hc, rfl, hvalue, hc.le_of_value hpos hvalue⟩

/-- Natural numbers other than zero are told apart by their values. -/
theorem IsNatural.unique (hx : IsNatural n x) (hy : IsNatural n y) (hpos : 0 < n) : x = y := by
  obtain ⟨m, q, hc, rfl, hvalue, -⟩ := hx.exists_stored hpos
  obtain ⟨m', q', hc', rfl, hvalue', -⟩ := hy.exists_stored hpos
  obtain ⟨rfl, rfl⟩ := hc.unique hc' (hvalue.trans hvalue'.symm)
  rfl

/-- There are two zeros. -/
theorem IsNatural.exists_zero (h : IsNatural 0 x) : ∃ s, x.toModel.unpack = .zero s := by
  obtain ⟨hfinite, hvalue⟩ := h
  change x.toModel.unpack.isFinite = true at hfinite
  unfold exactValue at hvalue
  cases hunpack : x.toModel.unpack with
  | notANumber | infinity =>
      rw [hunpack] at hfinite
      cases hfinite
  | zero s => exact ⟨s, rfl⟩
  | finite s m q hm =>
      have hpos := (magnitude_bounds (isCanonical_of_unpack hunpack)).1
      rw [hunpack] at hvalue
      cases s with
      | positive => exact absurd hvalue hpos.ne'
      | negative => exact absurd hvalue (neg_ne_zero.2 hpos.ne')

theorem isNatural_zero_of_unpack {s : Sign} (h : x.toModel.unpack = .zero s) : IsNatural 0 x := by
  refine ⟨?_, ?_⟩
  · show x.toModel.unpack.isFinite = true
    rw [h]
    rfl
  · rw [exactValue, h]
    rfl

theorem isNatural_zero : IsNatural 0 0.0 :=
  isNatural_zero_of_unpack (s := .positive) rfl

/-- What becomes of a natural number as a number. -/
theorem isNatural_ofNat (hle : n ≤ 2 ^ 53) : IsNatural n (Float.ofNat n) := by
  obtain rfl | hpos := Nat.eq_zero_or_pos n
  · exact isNatural_zero_of_unpack (s := .positive) rfl
  · obtain ⟨m, q, hc, hvalue⟩ := exists_isCanonical hpos hle
    have hround : RoundsTo m q (Decimal.value ⟨n, 0⟩) := by
      rw [show Decimal.value ⟨n, 0⟩ = m * 2 ^ q by simp [Decimal.value, hvalue]]
      exact roundsTo_self m q
    show IsNatural n (Float.ofScientific n false 0)
    rw [show Float.ofScientific n false 0 = stored .positive hc from
      Decimal.denoted_of_roundsTo hc hround]
    exact isNatural_stored hc hvalue

/-! ### Comparison -/

theorem IsNatural.le_natural_iff (hx : IsNatural a x) (hy : IsNatural b y) : x ≤ y ↔ a ≤ b := by
  rw [hx.le_iff, hy.2, Nat.cast_le]
  exact and_iff_right hy.isNaN

theorem IsNatural.lt_natural_iff (hx : IsNatural a x) (hy : IsNatural b y) : x < y ↔ a < b := by
  rw [lt_iff, hx.2, hy.2, Nat.cast_lt]
  exact (and_iff_right hx.isNaN).trans (and_iff_right hy.isNaN)

/-! ### Sums and differences -/

theorem IsNatural.add (hx : IsNatural a x) (hy : IsNatural b y) (ha : 0 < a) (hb : 0 < b)
    (hle : a + b ≤ 2 ^ 53) : IsNatural (a + b) (x + y) := by
  obtain ⟨m, q, hc, hvalue⟩ := exists_isCanonical (Nat.add_pos_left ha b) hle
  have hsum : exactValue x + exactValue y = m * 2 ^ q := by
    rw [hvalue, hx.2, hy.2, Nat.cast_add]
  rw [add_eq_stored hx.1 (hx.2 ▸ Nat.cast_pos.2 ha) hy.1 (hy.2 ▸ Nat.cast_pos.2 hb) hc
    (hsum ▸ roundsTo_self m q)]
  exact isNatural_stored hc hvalue

/-- The difference of two positive numbers, if it is positive, is rounded from the exact one. -/
theorem sub_finite_eq {m₁ m₂ : ℕ} {e₁ e₂ : ℤ} (h₁ : 0 < m₁) (h₂ : 0 < m₂) (hc : IsCanonical m q)
    (hv : RoundsTo m q (m₁ * 2 ^ e₁ - m₂ * 2 ^ e₂)) :
    UnpackedFloat.sub Format.binary64 (.finite .positive m₁ e₁ h₁) (.finite .positive m₂ e₂ h₂) =
      .finite .positive m q hc.pos := by
  simp only [UnpackedFloat.sub, decreaseExponent, Sign.apply]
  generalize hk₁ : (e₁ - min e₁ e₂).toNat = k₁
  generalize hk₂ : (e₂ - min e₁ e₂).toNat = k₂
  have hvalue : ((m₁ <<< k₁ : ℕ) - (m₂ <<< k₂ : ℕ) : ℚ) * 2 ^ min e₁ e₂ =
      m₁ * 2 ^ e₁ - m₂ * 2 ^ e₂ := by
    rw [sub_mul]
    nth_rewrite 1 [show min e₁ e₂ = e₁ - k₁ by omega]
    rw [show min e₁ e₂ = e₂ - k₂ by omega, value_shiftLeft, value_shiftLeft]
  have hlt : m₂ <<< k₂ < m₁ <<< k₁ := by
    have hpos := pos_of_mul_pos_left (hvalue ▸ hv.pos hc) (zpow_pos two_pos _).le
    exact_mod_cast sub_pos.1 hpos
  have hcompare : compare ((m₁ <<< k₁ : ℕ) - (m₂ <<< k₂ : ℕ) : ℤ) 0 = .gt :=
    Int.compare_eq_gt.2 (by omega)
  simp only [UnpackedFloat.normalize, hcompare]
  rw [show (((m₁ <<< k₁ : ℕ) - (m₂ <<< k₂ : ℕ) : ℤ)).toNat = m₁ <<< k₁ - m₂ <<< k₂ by omega]
  refine round_eq .positive (Nat.sub_pos_of_lt hlt) hc ?_
  rwa [Nat.cast_sub hlt.le, hvalue]

theorem sub_finite_self {e : ℤ} (hm : 0 < m) :
    UnpackedFloat.sub Format.binary64 (.finite .positive m e hm) (.finite .positive m e hm) =
      .zero .positive := by
  simp [UnpackedFloat.sub, UnpackedFloat.normalize]

theorem IsNatural.sub (hx : IsNatural a x) (hy : IsNatural b y) (hle : b ≤ a) (ha : a ≤ 2 ^ 53) :
    IsNatural (a - b) (x - y) := by
  have hdifference : x - y = .ofModel (.pack (UnpackedFloat.sub Format.binary64
    x.toModel.unpack y.toModel.unpack)) := rfl
  obtain rfl | hb := Nat.eq_zero_or_pos b
  · obtain ⟨s, hy⟩ := hy.exists_zero
    obtain rfl | ha := Nat.eq_zero_or_pos a
    · obtain ⟨t, hx⟩ := hx.exists_zero
      rw [hdifference, hx, hy]
      cases s <;> cases t <;>
        first
        | exact isNatural_zero_of_unpack (s := .positive) rfl
        | exact isNatural_zero_of_unpack (s := .negative) rfl
    · obtain ⟨m, q, hc, rfl, hvalue, -⟩ := hx.exists_stored ha
      rw [hdifference, hy, unpack_stored]
      exact hx
  · obtain ⟨m₁, e₁, hc₁, rfl, hvalue₁, -⟩ := hx.exists_stored (hb.trans_le hle)
    obtain ⟨m₂, e₂, hc₂, rfl, hvalue₂, -⟩ := hy.exists_stored hb
    rw [hdifference, unpack_stored, unpack_stored]
    obtain rfl | hlt := Nat.eq_or_lt_of_le hle
    · obtain ⟨rfl, rfl⟩ := hc₁.unique hc₂ (hvalue₁.trans hvalue₂.symm)
      rw [sub_finite_self, Nat.sub_self]
      exact isNatural_zero_of_unpack (s := .positive) rfl
    · obtain ⟨m, q, hc, hvalue⟩ :=
        exists_isCanonical (Nat.sub_pos_of_lt hlt) ((Nat.sub_le a b).trans ha)
      have hexact : (m₁ : ℚ) * 2 ^ e₁ - m₂ * 2 ^ e₂ = m * 2 ^ q := by
        rw [hvalue₁, hvalue₂, hvalue, Nat.cast_sub hle]
      rw [sub_finite_eq hc₁.pos hc₂.pos hc (hexact ▸ roundsTo_self m q)]
      exact isNatural_stored hc hvalue

/-! ### Products and quotients -/

theorem IsNatural.mul (hx : IsNatural a x) (hy : IsNatural b y) (ha : 0 < a) (hb : 0 < b)
    (hle : a * b ≤ 2 ^ 53) : IsNatural (a * b) (x * y) := by
  obtain ⟨m₁, e₁, hc₁, rfl, hvalue₁, hlong⟩ := hx.exists_stored ha
  obtain ⟨m₂, e₂, hc₂, rfl, hvalue₂, -⟩ := hy.exists_stored hb
  obtain ⟨m, q, hc, hvalue⟩ := exists_isCanonical (Nat.mul_pos ha hb) hle
  have hexact : (m₁ : ℚ) * 2 ^ e₁ * (m₂ * 2 ^ e₂) = m * 2 ^ q := by
    rw [hvalue₁, hvalue₂, hvalue, Nat.cast_mul]
  show IsNatural (a * b) (.ofModel (.pack (UnpackedFloat.mul Format.binary64
    (stored .positive hc₁).toModel.unpack (stored .positive hc₂).toModel.unpack)))
  rw [unpack_stored, unpack_stored, mul_finite_eq .positive .positive hc₁.pos hc₂.pos hlong hc
    (hexact ▸ roundsTo_self m q)]
  exact isNatural_stored hc hvalue

/-- A quotient that leaves no rest. -/
theorem IsNatural.div (hx : IsNatural (b * c) x) (hy : IsNatural b y) (hb : 0 < b) (hc : 0 < c)
    (hle : c ≤ 2 ^ 53) : IsNatural c (x / y) := by
  obtain ⟨m₁, e₁, hc₁, rfl, hvalue₁, -⟩ := hx.exists_stored (Nat.mul_pos hb hc)
  obtain ⟨m₂, e₂, hc₂, rfl, hvalue₂, -⟩ := hy.exists_stored hb
  obtain ⟨m, q, hcanonical, hvalue⟩ := exists_isCanonical hc hle
  have hb' : (b : ℚ) ≠ 0 := Nat.cast_ne_zero.2 hb.ne'
  have hexact : (m₁ : ℚ) * 2 ^ e₁ / (m₂ * 2 ^ e₂) = m * 2 ^ q := by
    rw [hvalue₁, hvalue₂, hvalue, Nat.cast_mul, mul_div_cancel_left₀ _ hb']
  show IsNatural c (.ofModel (.pack (UnpackedFloat.div Format.binary64
    (stored .positive hc₁).toModel.unpack (stored .positive hc₂).toModel.unpack)))
  rw [unpack_stored, unpack_stored, div_finite_eq .positive .positive hc₁.pos hc₂.pos hcanonical
    (hexact ▸ roundsTo_self m q)]
  exact isNatural_stored hcanonical hvalue

/-! ### Whole parts -/

/-- The whole part of a value, toward zero. -/
def wholePart (v : ℚ) : ℤ :=
  if 0 ≤ v then ⌊v⌋ else ⌈v⌉

theorem wholePart_neg {v : ℚ} (hv : 0 < v) : wholePart (-v) = -⌊v⌋ := by
  rw [wholePart, if_neg (not_le.2 (neg_lt_zero.2 hv)), Int.ceil_neg]

theorem wholePart_signed {v : ℚ} (hv : 0 ≤ v) (negative : Bool) :
    wholePart (if negative then -v else v) = if negative then -⌊v⌋ else ⌊v⌋ := by
  cases negative with
  | false => exact if_pos hv
  | true =>
      obtain rfl | hpos := hv.eq_or_lt
      · rfl
      · exact wholePart_neg hpos

/-- The value of a finite number is that of its exact fraction. -/
theorem exactValue_ofFloat (h : x.isFinite = true) :
    exactValue x = if (Dyadic.ofFloat x).negative then
        -((Dyadic.ofFloat x).mantissa * 2 ^ (Dyadic.ofFloat x).exponent : ℚ)
      else (Dyadic.ofFloat x).mantissa * 2 ^ (Dyadic.ofFloat x).exponent := by
  obtain ⟨hzero, hunpack⟩ | ⟨hc, hunpack⟩ := unpack_ofFloat h
  · rw [exactValue, hunpack, hzero, Nat.cast_zero, zero_mul, neg_zero, ite_self]
    rfl
  · rw [exactValue, hunpack, Dyadic.sign]
    cases (Dyadic.ofFloat x).negative <;> rfl

theorem Dyadic.split_fst (d : Dyadic) :
    (d.split.1 : ℤ) = ⌊(d.mantissa : ℚ) * 2 ^ d.exponent⌋ := by
  rw [zpow_eq_toNat two_ne_zero]
  unfold Dyadic.split
  split
  · rename_i hexponent
    rw [Int.toNat_of_nonpos (neg_nonpos.2 hexponent), pow_zero, div_one]
    exact_mod_cast (Int.floor_natCast (R := ℚ) (d.mantissa * twoTo d.exponent.toNat)).symm
  · rename_i hexponent
    rw [Int.toNat_of_nonpos (not_le.1 hexponent).le, pow_zero, mul_one_div]
    exact_mod_cast (Rat.floor_natCast_div_natCast d.mantissa (twoTo (-d.exponent).toNat)).symm

theorem Dyadic.value_of_rest {d : Dyadic} (h : d.split.2.1 = 0) :
    (d.mantissa : ℚ) * 2 ^ d.exponent = d.split.1 := by
  have htwo (k : ℕ) : (2 : ℚ) ^ k = twoTo k := (Nat.cast_pow 2 k).symm
  rw [zpow_eq_toNat two_ne_zero, htwo, htwo]
  unfold Dyadic.split at *
  split
  · rename_i hexponent
    rw [Int.toNat_of_nonpos (neg_nonpos.2 hexponent), ← htwo 0, pow_zero, div_one, Nat.cast_mul]
  · rename_i hexponent
    rw [if_neg hexponent] at h
    rw [Int.toNat_of_nonpos (not_le.1 hexponent).le, ← htwo 0, pow_zero, mul_one_div]
    exact (Nat.cast_div_charZero (Nat.dvd_of_mod_eq_zero h)).symm

theorem clampInt64_of_mem {i : ℤ} (hmin : minInt64 ≤ i) (hmax : i ≤ maxInt64) :
    clampInt64 i = i := by
  unfold clampInt64
  omega

theorem maxInt64_lt_floor_overflow : maxInt64 < ⌊overflow⌋ := by
  refine Int.lt_of_add_one_le (Int.le_floor.2 ?_)
  calc
    ((maxInt64 + 1 : ℤ) : ℚ) ≤ 2 ^ (64 : ℤ) := by norm_num [maxInt64]
    _ ≤ overflow := zpow_le_zpow_right₀ one_le_two (by norm_num)

/-- Positions are whole parts, brought into the range of 64 bits; infinities lie beyond it. -/
theorem toInt64_eq (hx : x.isNaN = false) :
    toInt64 x = clampInt64 (wholePart (exactValue x)) := by
  have hoverflow := maxInt64_lt_floor_overflow
  cases hfinite : x.isFinite with
  | false =>
      obtain rfl | rfl := eq_infinity_of_not_isFinite hx hfinite
      · have hlast : toInt64 infinity = maxInt64 := by decide +kernel
        have hvalue : exactValue infinity = overflow := rfl
        rw [hlast, hvalue, wholePart, if_pos overflow_pos.le, clampInt64]
        unfold minInt64 maxInt64 at *
        omega
      · have hfirst : toInt64 negInfinity = minInt64 := by decide +kernel
        have hvalue : exactValue negInfinity = -overflow := rfl
        rw [hfirst, hvalue, wholePart_neg overflow_pos, clampInt64]
        unfold minInt64 maxInt64 at *
        omega
  | true =>
      rw [toInt64, hx, if_neg Bool.false_ne_true, if_pos hfinite, Dyadic.truncated,
        Dyadic.split_fst, exactValue_ofFloat hfinite, wholePart_signed (by positivity)]

/-- A whole number is its whole part. -/
theorem exactValue_of_isWhole (h : isWhole x = true) :
    exactValue x = wholePart (exactValue x) := by
  obtain ⟨hfinite, hrest⟩ := Bool.and_eq_true_iff.1 h
  have hvalue := Dyadic.value_of_rest (beq_iff_eq.1 hrest)
  rw [exactValue_ofFloat hfinite, wholePart_signed (by positivity), hvalue, Int.floor_natCast]
  push_cast
  rfl

/-- What becomes of a whole number as a number. -/
theorem exactValue_ofInt {i : ℤ} (h : i.natAbs ≤ 2 ^ 53) :
    (ofInt i).isNaN = false ∧ exactValue (ofInt i) = i := by
  cases i with
  | ofNat n =>
      have hn := isNatural_ofNat (n := n) h
      exact ⟨hn.isNaN, hn.2⟩
  | negSucc n =>
      have hn := isNatural_ofNat (n := n + 1) h
      show (-Float.ofNat (n + 1)).isNaN = false ∧ exactValue (-Float.ofNat (n + 1)) = _
      rw [isNaN_neg, exactValue_neg, hn.2]
      exact ⟨hn.isNaN, by push_cast [Int.negSucc_eq]; ring⟩

theorem IsNatural.toInt64 (h : IsNatural n x) (hle : n ≤ 2 ^ 53) : toInt64 x = n := by
  rw [toInt64_eq h.isNaN, h.2, wholePart, if_pos (Nat.cast_nonneg n), Int.floor_natCast]
  refine clampInt64_of_mem ?_ ?_
  · unfold minInt64
    omega
  · unfold maxInt64
    omega

/-! ### Rounding -/

/-- The exact fraction of a natural number. -/
theorem IsNatural.value_ofFloat (h : IsNatural n x) :
    ((Dyadic.ofFloat x).mantissa : ℚ) * 2 ^ (Dyadic.ofFloat x).exponent = n := by
  obtain ⟨hfinite, hvalue⟩ := h
  obtain ⟨hzero, hunpack⟩ | ⟨hc, hunpack⟩ := unpack_ofFloat hfinite
  · rw [exactValue, hunpack] at hvalue
    rw [hzero, Nat.cast_zero, zero_mul]
    exact hvalue
  · have hpos := (magnitude_bounds hc).1
    have hn : (0 : ℚ) ≤ n := Nat.cast_nonneg n
    rw [exactValue, hunpack, Dyadic.sign] at hvalue
    cases hnegative : (Dyadic.ofFloat x).negative with
    | false => rwa [hnegative] at hvalue
    | true =>
        rw [hnegative] at hvalue
        exact absurd hn (not_le.2 (hvalue ▸ neg_lt_zero.2 hpos))

theorem IsNatural.isCanonical_ofFloat (h : IsNatural n x) (hpos : 0 < n) :
    (Dyadic.ofFloat x).negative = false ∧
      IsCanonical (Dyadic.ofFloat x).mantissa (Dyadic.ofFloat x).exponent := by
  obtain ⟨-, hunpack⟩ | ⟨hc, hunpack⟩ := unpack_ofFloat h.1
  · have hvalue := h.2
    rw [exactValue, hunpack] at hvalue
    exact absurd hvalue (Nat.cast_ne_zero.2 hpos.ne').symm
  · refine ⟨?_, hc⟩
    obtain ⟨m, q, hc', rfl, -, -⟩ := h.exists_stored hpos
    rw [unpack_stored] at hunpack
    injection hunpack with hsign
    cases hnegative : (Dyadic.ofFloat (stored .positive hc')).negative with
    | false => rfl
    | true =>
        rw [Dyadic.sign, hnegative] at hsign
        cases hsign

/-- The exact fraction of a whole number leaves no rest. -/
theorem Dyadic.split_of_value {d : Dyadic} (hexponent : ¬ 0 ≤ d.exponent)
    (h : (d.mantissa : ℚ) * 2 ^ d.exponent = n) :
    d.split = (n, 0, twoTo (-d.exponent).toNat) := by
  have hmantissa : d.mantissa = n * twoTo (-d.exponent).toNat := by
    rw [zpow_eq_toNat two_ne_zero, Int.toNat_of_nonpos (not_le.1 hexponent).le, pow_zero,
      mul_one_div, div_eq_iff (by positivity)] at h
    exact_mod_cast h
  have hpos : 0 < twoTo (-d.exponent).toNat := Nat.two_pow_pos _
  rw [split, if_neg hexponent, hmantissa]
  simp only [Nat.mul_div_cancel _ hpos, Nat.mul_mod_left]

theorem IsNatural.isWhole (h : IsNatural n x) : isWhole x = true := by
  have hrest : (Dyadic.ofFloat x).split.2.1 = 0 := by
    by_cases hexponent : 0 ≤ (Dyadic.ofFloat x).exponent
    · rw [Dyadic.split, if_pos hexponent]
    · rw [Dyadic.split_of_value hexponent h.value_ofFloat]
  rw [Number.isWhole, h.1, hrest]
  rfl

/-- The bits of a number that has all its digits. -/
theorem Dyadic.toNat_toBits (hlong : 2 ^ 52 ≤ (ofFloat x).mantissa) :
    x.toBits.toNat = (if (ofFloat x).negative then 2 ^ 63 else 0) +
      (((ofFloat x).exponent + 1075).toNat * 2 ^ 52 + ((ofFloat x).mantissa - 2 ^ 52)) := by
  have hbits : x.toBits.toNat < 2 ^ 64 := x.toBits.toNat_lt
  unfold ofFloat at *
  simp only [show twoTo 52 = 2 ^ 52 from rfl, show twoTo 11 = 2 ^ 11 from rfl,
    show twoTo 63 = 2 ^ 63 from rfl] at *
  by_cases hbiased : x.toBits.toNat / 2 ^ 52 % 2 ^ 11 = 0
  · simp only [hbiased, beq_self_eq_true, if_true] at hlong
    omega
  · simp only [beq_false_of_ne hbiased, Bool.false_eq_true, if_false, beq_iff_eq] at *
    split <;> omega

theorem ofBits_toBits (x : Float) : Float.ofBits x.toBits = x :=
  ofModel_pack_unpack x

theorem Dyadic.bitLength_eq {s : ℕ} (hs : s ≤ 52) (hlow : 2 ^ 52 ≤ n * 2 ^ s)
    (hhigh : n * 2 ^ s < 2 ^ 53) : bitLength n = 53 - s := by
  have hn : n ≠ 0 := by
    rintro rfl
    omega
  have hlog : n.log2 = 52 - s := by
    obtain ⟨t, ht⟩ := Nat.le.dest hs
    rw [Nat.log2_eq_iff hn, ← ht, Nat.add_sub_cancel_left]
    have hpos := Nat.two_pow_pos s
    constructor
    · refine Nat.le_of_mul_le_mul_right ?_ hpos
      rwa [← Nat.pow_add, Nat.add_comm, ht]
    · refine Nat.lt_of_mul_lt_mul_right (a := 2 ^ s) ?_
      rwa [← Nat.pow_add, show t + 1 + s = 53 by omega]
  rw [bitLength, if_neg hn, hlog]
  omega

/-- A whole number with fewer digits than fit is shifted to the left to be stored. -/
theorem Dyadic.toFloat_ofNat (hc : IsCanonical (ofFloat x).mantissa (ofFloat x).exponent)
    (hvalue : ((ofFloat x).mantissa : ℚ) * 2 ^ (ofFloat x).exponent = n) (hpos : 0 < n)
    (hlt : n < 2 ^ 53) : (ofNat (ofFloat x).negative n).toFloat = x := by
  have hlong := hc.le_of_value hpos hvalue
  have hshort := hc.lt
  have hbits := toNat_toBits hlong
  generalize (ofFloat x).negative = b at *
  generalize (ofFloat x).mantissa = m at *
  generalize (ofFloat x).exponent = q at *
  have hq : q ≤ 0 := by
    by_contra hpositive
    have htwo : (2 : ℚ) ^ (1 : ℤ) ≤ 2 ^ q := zpow_le_zpow_right₀ one_le_two (by omega)
    have hlarge : (2 ^ 52 : ℚ) * 2 ^ (1 : ℤ) ≤ m * 2 ^ q := by
      gcongr
      exact_mod_cast hlong
    rw [hvalue] at hlarge
    have hlarge' : (2 ^ 53 : ℚ) ≤ n := le_trans (by norm_num) hlarge
    exact absurd (by exact_mod_cast hlarge') (not_le.2 hlt)
  obtain ⟨s, rfl⟩ : ∃ s : ℕ, q = -s := ⟨(-q).toNat, by omega⟩
  have hm : m = n * 2 ^ s := by
    rw [zpow_neg, zpow_natCast] at hvalue
    have hm : (m : ℚ) = n * 2 ^ s := by
      rw [← hvalue, inv_mul_cancel_right₀ (by positivity)]
    exact_mod_cast hm
  have hs : s ≤ 52 := by
    refine Nat.lt_succ_iff.1 ((Nat.pow_lt_pow_iff_right one_lt_two).1 (lt_of_le_of_lt ?_ hshort))
    rw [hm]
    exact Nat.le_mul_of_pos_left _ hpos
  have hlength := bitLength_eq hs (hm ▸ hlong) (hm ▸ hshort)
  rw [← ofBits_toBits x, toFloat]
  congr 1
  refine UInt64.toNat_inj.1 ?_
  rw [hbits, UInt64.toNat_ofNat',
    show (if (ofNat b n).negative then twoTo 63 else 0) = if b then 2 ^ 63 else 0 from rfl]
  have hsign : (if b then 2 ^ 63 else 0) ≤ 2 ^ 63 := by
    cases b <;> decide
  generalize (if b then 2 ^ 63 else 0) = sign at *
  simp only [ofNat, hpos.ne', hlength, show 53 - (53 - s) = s by omega,
    show n * twoTo s = m from hm.symm, minExponent, if_false]
  rw [if_neg (by omega), if_neg (by omega), show twoTo 52 = 2 ^ 52 from rfl]
  omega

/-- Natural numbers are not changed by rounding. -/
theorem IsNatural.round (h : IsNatural n x) (hpos : 0 < n) : round x = x := by
  have hvalue := h.value_ofFloat
  obtain ⟨hnegative, hc⟩ := h.isCanonical_ofFloat hpos
  show roundBy _ x = x
  rw [roundBy, if_pos h.1]
  dsimp only
  split
  · rfl
  · rename_i hexponent
    have hdenominator : ¬ twoTo (-(Dyadic.ofFloat x).exponent).toNat ≤ 2 * 0 :=
      (Nat.two_pow_pos _).not_ge
    have hlt : n < 2 ^ 53 := by
      refine lt_of_le_of_lt ?_ hc.lt
      have hone : (2 : ℚ) ^ (Dyadic.ofFloat x).exponent ≤ 1 :=
        zpow_le_one_of_nonpos₀ one_le_two (not_le.1 hexponent).le
      have hn : (n : ℚ) ≤ (Dyadic.ofFloat x).mantissa :=
        hvalue ▸ mul_le_of_le_one_right (Nat.cast_nonneg _) hone
      exact_mod_cast hn
    simp only [Dyadic.split_of_value hexponent hvalue, decide_eq_false hdenominator,
      Bool.false_eq_true, if_false]
    exact Dyadic.toFloat_ofNat hc hvalue hpos hlt

end RowFormula.Number
