/-
# Rounding to the nearest number

A number is rounded by shifting its digits to the right until they fit, with two bits that
remember what was shifted out.  `Represents` is the meaning of these bits, and a shift keeps it.
Hence what counts for rounding is the interval that the exact value lies in: `RoundsTo` is the
interval of the values that are nearer to a number than to its neighbours, and every value in it
is rounded to this number.
-/

import Mathlib
import RowFormula.Proofs.Numerals

namespace RowFormula.Number

open Float.Model (Format UnpackedFloat totalExponent)
open Float.Model.UnpackedFloat

/-! ### The bits behind a mantissa -/

/-- The mantissa with its two bits stands for the value: the round bit tells whether the rest is
at least a half, and the sticky bit whether it differs from zero or a half. -/
def Represents (x : ExtendedMantissa) (y : ℚ) : Prop :=
  match x.roundBit, x.stickyBit with
  | false, false => y = x.mantissa
  | false, true => (x.mantissa : ℚ) < y ∧ y < x.mantissa + 1 / 2
  | true, false => y = x.mantissa + 1 / 2
  | true, true => (x.mantissa : ℚ) + 1 / 2 < y ∧ y < x.mantissa + 1

variable {x : ExtendedMantissa} {y : ℚ} {m : ℕ} {q : ℤ}

theorem Represents.bounds (h : Represents x y) :
    (x.mantissa : ℚ) ≤ y ∧ y < x.mantissa + 1 := by
  obtain ⟨m, round, sticky⟩ := x
  cases round <;> cases sticky <;> simp only [Represents] at h <;> constructor <;> linarith

/-- A shift by one place halves the value. -/
theorem Represents.shiftRightOne (h : Represents x y) : Represents x.shiftRightOne (y / 2) := by
  obtain ⟨m, round, sticky⟩ := x
  have hm : (m : ℚ) = 2 * (m / 2 : ℕ) + (m % 2 : ℕ) := by exact_mod_cast (Nat.div_add_mod m 2).symm
  obtain heven | hodd := Nat.mod_two_eq_zero_or_one m
  · rw [heven, Nat.cast_zero, add_zero] at hm
    cases round <;> cases sticky <;>
      simp only [Represents, ExtendedMantissa.shiftRightOne, heven, bne_self_eq_false,
        Bool.or_false, Bool.or_true] at h ⊢
    · linarith
    · constructor <;> linarith
    · constructor <;> linarith
    · constructor <;> linarith
  · rw [hodd, Nat.cast_one] at hm
    cases round <;> cases sticky <;>
      simp only [Represents, ExtendedMantissa.shiftRightOne, hodd, Nat.reduceBneDiff,
        Bool.or_false, Bool.or_true] at h ⊢
    · linarith
    · constructor <;> linarith
    · constructor <;> linarith
    · constructor <;> linarith

theorem Represents.shiftRight (h : Represents x y) (n : ℕ) : Represents (x >>> n) (y / 2 ^ n) := by
  induction n with
  | zero =>
      rw [pow_zero, div_one]
      exact h
  | succ n ih =>
      rw [pow_succ, ← div_div]
      exact ih.shiftRightOne

/-- The nearest natural number is what the mantissa is rounded to; of two it is the even one. -/
theorem Represents.roundedMantissa_eq (h : Represents x y) (hlow : m - 1 / 2 ≤ y)
    (hhigh : y ≤ m + 1 / 2) (htie : m % 2 = 0 ∨ (m - 1 / 2 < y ∧ y < m + 1 / 2)) :
    x.roundedMantissa = m := by
  obtain ⟨M, round, sticky⟩ := x
  cases round <;> cases sticky <;>
    simp only [Represents, ExtendedMantissa.roundedMantissa, ExtendedMantissa.accuracy,
      Accuracy.roundToNearestEven] at h ⊢
  · have hle : M < m + 1 := by exact_mod_cast (by linarith : (M : ℚ) < m + 1)
    have hge : m < M + 1 := by exact_mod_cast (by linarith : (m : ℚ) < M + 1)
    omega
  · have hle : M < m + 1 := by exact_mod_cast (by linarith : (M : ℚ) < m + 1)
    have hge : m < M + 1 := by exact_mod_cast (by linarith : (m : ℚ) < M + 1)
    omega
  · have hle : M ≤ m := by exact_mod_cast (by linarith : (M : ℚ) ≤ m)
    have hge : m ≤ M + 1 := by exact_mod_cast (by linarith : (m : ℚ) ≤ M + 1)
    obtain heven | ⟨hlow, hhigh⟩ := htie
    · omega
    · -- Half way between two neighbours nothing is nearest.
      have hle' : M < m := by exact_mod_cast (by linarith : (M : ℚ) < m)
      have hge' : m < M + 1 := by exact_mod_cast (by linarith : (m : ℚ) < M + 1)
      omega
  · have hle : M < m := by exact_mod_cast (by linarith : (M : ℚ) < m)
    have hge : m < M + 2 := by exact_mod_cast (by linarith : (m : ℚ) < M + 2)
    omega

/-- Rounding adds at most a half. -/
theorem Represents.roundedMantissa_le (h : Represents x y) :
    (x.roundedMantissa : ℚ) ≤ y + 1 / 2 := by
  obtain ⟨M, round, sticky⟩ := x
  cases round <;> cases sticky <;>
    simp only [Represents, ExtendedMantissa.roundedMantissa, ExtendedMantissa.accuracy,
      Accuracy.roundToNearestEven] at h ⊢
  · linarith
  · linarith
  · -- Half way between two neighbours the even one is taken.
    have hle : M + M % 2 ≤ M + 1 := by omega
    have hle' : ((M + M % 2 : ℕ) : ℚ) ≤ M + 1 := by exact_mod_cast hle
    linarith
  · push_cast
    linarith

/-- What an accuracy says about a value above a mantissa. -/
theorem represents_exact : Represents (.ofMantissaAndAccuracy m .exact) m := rfl

/-- The quotient of two natural numbers is represented by its whole part and what the rest is to
the divisor. -/
theorem represents_quotient {a b : ℕ} (hb : 0 < b) :
    Represents (.ofMantissaAndAccuracy (a / b) (accuracyOfFraction (a % b) b)) (a / b) := by
  have hdiv : (a : ℚ) = b * (a / b : ℕ) + (a % b : ℕ) := by
    exact_mod_cast (Nat.div_add_mod a b).symm
  have hb' : (0 : ℚ) < b := by exact_mod_cast hb
  have hrest : ((a % b : ℕ) : ℚ) < b := by exact_mod_cast Nat.mod_lt a hb
  have hvalue : (a : ℚ) / b = (a / b : ℕ) + (a % b : ℕ) / b := by
    rw [hdiv]
    field_simp
  rw [hvalue, accuracyOfFraction]
  split
  · rename_i hzero
    rw [hzero, Nat.cast_zero, zero_div, add_zero]
    exact represents_exact
  · rename_i hpos
    have hpos' : (0 : ℚ) < (a % b : ℕ) := by exact_mod_cast Nat.pos_of_ne_zero hpos
    cases hcompare : compare (2 * (a % b)) b with
    | lt =>
        have hhalf : (2 : ℚ) * (a % b : ℕ) < b := by
          exact_mod_cast Nat.compare_eq_lt.1 hcompare
        refine ⟨?_, ?_⟩
        · exact lt_add_of_pos_right _ (div_pos hpos' hb')
        · refine add_lt_add_right ?_ _
          rw [div_lt_div_iff₀ hb' two_pos]
          linarith
    | eq =>
        have hhalf : (2 : ℚ) * (a % b : ℕ) = b := by
          exact_mod_cast Nat.compare_eq_eq.1 hcompare
        have hrest' : ((a % b : ℕ) : ℚ) / b = 1 / 2 := by
          rw [div_eq_div_iff hb'.ne' two_ne_zero]
          linarith
        exact congrArg _ hrest'
    | gt =>
        have hhalf : (b : ℚ) < 2 * (a % b : ℕ) := by
          exact_mod_cast Nat.compare_eq_gt.1 hcompare
        refine ⟨?_, ?_⟩
        · refine add_lt_add_right ?_ _
          rw [div_lt_div_iff₀ two_pos hb']
          linarith
        · refine add_lt_add_right ?_ _
          rw [div_lt_one hb']
          exact hrest

/-! ### The exponent of a value -/

/-- Shifting gives the value at the exponent that its first digit asks for. -/
theorem shiftToTargetExponent_spec {M : ℕ} {E : ℤ} {accuracy : Accuracy}
    (h : Represents (.ofMantissaAndAccuracy M accuracy) y) (hfits : 52 ≤ M.log2 ∨ E ≤ -1074) :
    ∃ t, (shiftToTargetExponent Format.binary64 M E accuracy).2 = t ∧
      Represents (shiftToTargetExponent Format.binary64 M E accuracy).1 (y * 2 ^ E / 2 ^ t) ∧
      -1074 ≤ t ∧ y * 2 ^ E < 2 ^ (t + 53) ∧ (t = -1074 ∨ (2 : ℚ) ^ (t + 52) ≤ y * 2 ^ E) := by
  obtain ⟨hge, hlt⟩ := h.bounds
  rw [mantissa_ofMantissaAndAccuracy] at hge hlt
  have htarget : ∀ t, max (totalExponent M E - 53) (-1074) = t → E ≤ t := by
    rintro t rfl
    unfold totalExponent
    omega
  have hE : (0 : ℚ) < 2 ^ E := zpow_pos two_pos E
  simp only [shiftToTargetExponent, shiftToExponent, targetExponent_binary64]
  generalize ht : max (totalExponent M E - 53) (-1074) = t
  obtain ⟨k, hk⟩ := Int.le.dest (htarget t ht)
  have hshift : (t - E).toNat = k := by omega
  refine ⟨t, by omega, ?_, by omega, ?_, ?_⟩
  · have hscale : y * 2 ^ E / 2 ^ t = y / 2 ^ k := by
      rw [← hk, zpow_add₀ two_ne_zero, zpow_natCast]
      field_simp
    rw [hshift, hscale]
    exact h.shiftRight k
  · have hM : (M : ℚ) + 1 ≤ 2 ^ (M.log2 + 1) := by exact_mod_cast Nat.lt_log2_self
    calc
      y * 2 ^ E < (2 ^ (M.log2 + 1) : ℚ) * 2 ^ E := by gcongr; linarith
      _ = 2 ^ ((M.log2 + 1 : ℕ) + E) := by rw [zpow_add₀ two_ne_zero, zpow_natCast]
      _ ≤ 2 ^ (t + 53) := by
        refine zpow_le_zpow_right₀ one_le_two ?_
        unfold totalExponent at ht
        push_cast
        omega
  · by_cases hmin : t = -1074
    · exact .inl hmin
    · unfold totalExponent at ht
      have hlog : 52 ≤ M.log2 := by omega
      have hM : (2 : ℚ) ^ M.log2 ≤ M := by
        exact_mod_cast Nat.log2_self_le (fun hzero => by simp [hzero] at hlog)
      refine .inr ?_
      calc
        (2 : ℚ) ^ (t + 52) = 2 ^ ((M.log2 : ℕ) + E) := by congr 1; omega
        _ = 2 ^ M.log2 * 2 ^ E := by rw [zpow_add₀ two_ne_zero, zpow_natCast]
        _ ≤ y * 2 ^ E := by gcongr; linarith

/-! ### The interval around a number -/

/-- Mantissa and exponent of a positive number in the only form that numbers are stored in. -/
structure IsCanonical (m : ℕ) (q : ℤ) : Prop where
  pos : 0 < m
  lt : m < 2 ^ 53
  le_exponent : -1074 ≤ q
  exponent_le : q ≤ 971
  normal : 2 ^ 52 ≤ m ∨ q = -1074

/-- Half the distance to the next smaller number, in units of the last place.  The distance
halves below a power of two. -/
def lowerGap (m : ℕ) (q : ℤ) : ℚ :=
  if m = 2 ^ 52 ∧ -1074 < q then 1 / 4 else 1 / 2

/-- The value is nearer to `m · 2 ^ q` than to other numbers, or half way to a neighbour and `m`
is even. -/
def RoundsTo (m : ℕ) (q : ℤ) (v : ℚ) : Prop :=
  if m % 2 = 0 then (m - lowerGap m q) * 2 ^ q ≤ v ∧ v ≤ (m + 1 / 2) * 2 ^ q
  else (m - lowerGap m q) * 2 ^ q < v ∧ v < (m + 1 / 2) * 2 ^ q

variable {v : ℚ}

theorem lowerGap_le (m : ℕ) (q : ℤ) : lowerGap m q ≤ 1 / 2 := by
  unfold lowerGap
  split <;> norm_num

theorem RoundsTo.bounds (h : RoundsTo m q v) :
    (m - lowerGap m q) * 2 ^ q ≤ v ∧ v ≤ (m + 1 / 2) * 2 ^ q := by
  unfold RoundsTo at h
  split at h
  · exact h
  · exact h.imp le_of_lt le_of_lt

/-- What lies inside is rounded to the number, whether the mantissa is even or odd. -/
theorem roundsTo_of_lt (hlow : (m - lowerGap m q) * 2 ^ q < v) (hhigh : v < (m + 1 / 2) * 2 ^ q) :
    RoundsTo m q v := by
  unfold RoundsTo
  split
  · exact ⟨hlow.le, hhigh.le⟩
  · exact ⟨hlow, hhigh⟩

/-- A value has the exponent of the number that it rounds to, unless the number is a power of
two and the value is below it. -/
theorem RoundsTo.exponent_cases (hv : RoundsTo m q v) (hc : IsCanonical m q) {t : ℤ}
    (hmin : -1074 ≤ t) (hlt : v < 2 ^ (t + 53)) (hge : t = -1074 ∨ (2 : ℚ) ^ (t + 52) ≤ v) :
    t = q ∨ (t = q - 1 ∧ m = 2 ^ 52 ∧ -1074 < q ∧ v < 2 ^ (q + 52)) := by
  obtain ⟨hlow, hhigh⟩ := hv.bounds
  have hpos : (0 : ℚ) < 2 ^ q := zpow_pos two_pos q
  have hsplit : ∀ n : ℕ, (2 : ℚ) ^ (q + n) = 2 ^ n * 2 ^ q := fun n => by
    rw [zpow_add₀ two_ne_zero, zpow_natCast, mul_comm]
  have hm : (m : ℚ) ≤ 2 ^ 53 - 1 := by
    have : (m : ℚ) + 1 ≤ 2 ^ 53 := by exact_mod_cast hc.lt
    linarith
  have hgap := lowerGap_le m q
  obtain hless | heq | hgreater := lt_trichotomy t q
  · -- The value is below the power of two with which numbers of exponent `q` begin.
    have hbelow : v < 2 ^ (q + 52) :=
      hlt.trans_le (zpow_le_zpow_right₀ one_le_two (by omega))
    have hnormal : 2 ^ 52 ≤ m := hc.normal.resolve_right (by omega)
    have hm52 : m = 2 ^ 52 := by
      have hunits : (m : ℚ) - 1 / 2 < 2 ^ 52 := by
        refine lt_of_mul_lt_mul_right ?_ hpos.le
        calc
          (m - 1 / 2) * 2 ^ q ≤ (m - lowerGap m q) * 2 ^ q := by gcongr
          _ ≤ v := hlow
          _ < 2 ^ 52 * 2 ^ q := hsplit 52 ▸ hbelow
      have : (m : ℚ) < 2 ^ 52 + 1 := by linarith
      have : m < 2 ^ 52 + 1 := by exact_mod_cast this
      omega
    refine .inr ⟨?_, hm52, by omega, hbelow⟩
    have hhalf : (2 : ℚ) ^ (q + 51) < v := by
      have hm' : (2 : ℚ) ^ 52 ≤ m := by exact_mod_cast hnormal
      calc
        (2 : ℚ) ^ (q + 51) = 2 ^ 51 * 2 ^ q := hsplit 51
        _ < (m - lowerGap m q) * 2 ^ q := by gcongr; linarith
        _ ≤ v := hlow
    have := (zpow_lt_zpow_iff_right₀ one_lt_two).1 (hhalf.trans hlt)
    omega
  · exact .inl heq
  · have hlarge : (2 : ℚ) ^ (q + 53) ≤ v :=
      (zpow_le_zpow_right₀ one_le_two (by omega)).trans (hge.resolve_left (by have := hc.3; omega))
    have hsmall : v < 2 ^ (q + 53) := by
      calc
        v ≤ (m + 1 / 2) * 2 ^ q := hhigh
        _ < 2 ^ 53 * 2 ^ q := by gcongr; linarith
        _ = 2 ^ (q + 53) := (hsplit 53).symm
    exact absurd hlarge (not_le.2 hsmall)

/-- Digits that fit are not shifted any further. -/
theorem shiftToTargetExponent_of_lt (hlt : m < 2 ^ 53) (hmin : -1074 ≤ q) :
    shiftToTargetExponent Format.binary64 m q .exact = (⟨m, false, false⟩, q) := by
  have hlog : m.log2 < 53 := by
    obtain rfl | hm := eq_or_ne m 0
    · decide
    · exact (Nat.log2_lt hm).2 hlt
  have hshift : (max (totalExponent m q - 53) (-1074) - q).toNat = 0 := by
    unfold totalExponent
    omega
  simp only [shiftToTargetExponent, shiftToExponent, targetExponent_binary64, hshift]
  exact congrArg _ (Int.add_zero q)

/-- A mantissa that has become too long is a power of two. -/
theorem shiftToTargetExponent_of_carry (hq : -1074 < q) :
    shiftToTargetExponent Format.binary64 (2 ^ 53) (q - 1) .exact =
      (⟨2 ^ 52, false, false⟩, q) := by
  have hshift : (max (totalExponent (2 ^ 53) (q - 1) - 53) (-1074) - (q - 1)).toNat = 1 := by
    unfold totalExponent
    rw [Nat.log2_two_pow]
    omega
  simp only [shiftToTargetExponent, shiftToExponent, targetExponent_binary64, hshift]
  exact congrArg _ (by omega)

section Rounding

variable {M : ℕ} {E t : ℤ} {accuracy : Accuracy}

/-- Rounding is over when the digits fit. -/
theorem roundWithAccuracy_of_shift (s : Sign) (hm : 0 < m)
    (hexponent : (shiftToTargetExponent Format.binary64 M E accuracy).2 = t)
    (hfinal : shiftToTargetExponent Format.binary64
      (shiftToTargetExponent Format.binary64 M E accuracy).1.roundedMantissa t .exact =
        (⟨m, false, false⟩, q)) :
    roundWithAccuracy Format.binary64 s M E accuracy = .finite s m q hm := by
  simp only [roundWithAccuracy, hexponent, hfinal, dif_neg hm.ne']

/-- Rounding gives the number whose interval the exact value lies in. -/
theorem roundWithAccuracy_eq (s : Sign) (h : Represents (.ofMantissaAndAccuracy M accuracy) y)
    (hfits : 52 ≤ M.log2 ∨ E ≤ -1074) (hc : IsCanonical m q) (hv : RoundsTo m q (y * 2 ^ E)) :
    roundWithAccuracy Format.binary64 s M E accuracy = .finite s m q hc.pos := by
  obtain ⟨t, hexponent, hrepresents, hmin, hlt, hge⟩ := shiftToTargetExponent_spec h hfits
  generalize hvalue : y * 2 ^ E = v at *
  have hpos : (0 : ℚ) < 2 ^ t := zpow_pos two_pos t
  obtain rfl | ⟨rfl, rfl, hq, hbelow⟩ := hv.exponent_cases hc hmin hlt hge
  · refine roundWithAccuracy_of_shift s hc.pos hexponent ?_
    obtain ⟨hlow, hhigh⟩ := hv.bounds
    have hgap := lowerGap_le m t
    rw [hrepresents.roundedMantissa_eq ?_ ((div_le_iff₀ hpos).2 hhigh) ?_]
    · exact shiftToTargetExponent_of_lt hc.lt hc.le_exponent
    · exact le_trans (by linarith) ((le_div_iff₀ hpos).2 hlow)
    · by_cases heven : m % 2 = 0
      · exact .inl heven
      · rw [RoundsTo, if_neg heven] at hv
        exact .inr ⟨lt_of_le_of_lt (by linarith) ((lt_div_iff₀ hpos).2 hv.1),
          (div_lt_iff₀ hpos).2 hv.2⟩
  · refine roundWithAccuracy_of_shift s hc.pos hexponent ?_
    have htwo : (2 : ℚ) ^ q = 2 * 2 ^ (q - 1) := by
      rw [← zpow_one_add₀ two_ne_zero]
      congr 1
      omega
    have hgap : lowerGap (2 ^ 52) q = 1 / 4 := if_pos ⟨rfl, hq⟩
    have hlow := hv.bounds.1
    rw [hgap, htwo] at hlow
    rw [show q + 52 = (q - 1) + (53 : ℕ) by omega, zpow_add₀ two_ne_zero, zpow_natCast] at hbelow
    -- The mantissa is rounded up to a digit more than fits.
    rw [hrepresents.roundedMantissa_eq (m := 2 ^ 53) ((le_div_iff₀ hpos).2 ?_)
      ((div_le_iff₀ hpos).2 ?_) (.inl (by decide))]
    · exact shiftToTargetExponent_of_carry hq
    · push_cast at hlow ⊢
      linarith
    · push_cast
      linarith

/-- What a value is rounded to: at most `2 ^ 53` units of its last place, and that many from half a
unit below on. -/
theorem roundWithAccuracy_cases (s : Sign)
    (h : Represents (.ofMantissaAndAccuracy M accuracy) y) (hfits : 52 ≤ M.log2 ∨ E ≤ -1074) :
    ∃ t : ℤ, -1074 ≤ t ∧ y * 2 ^ E < 2 ^ (t + 53) ∧
      (t = -1074 ∨ (2 : ℚ) ^ (t + 52) ≤ y * 2 ^ E) ∧
      if y * 2 ^ E < (2 ^ 53 - 1 / 2) * 2 ^ t then
        ∃ n : ℕ, n < 2 ^ 53 ∧ (2 ^ 52 ≤ n ∨ t = -1074) ∧
          roundWithAccuracy Format.binary64 s M E accuracy =
            if hn : n = 0 then .zero s else .finite s n t (Nat.pos_of_ne_zero hn)
      else roundWithAccuracy Format.binary64 s M E accuracy =
        .finite s (2 ^ 52) (t + 1) (Nat.two_pow_pos 52) := by
  obtain ⟨t, hexponent, hrepresents, hmin, hlt, hge⟩ := shiftToTargetExponent_spec h hfits
  refine ⟨t, hmin, hlt, hge, ?_⟩
  generalize y * 2 ^ E = v at *
  have hpos : (0 : ℚ) < 2 ^ t := zpow_pos two_pos t
  have hlt' : v / 2 ^ t < 2 ^ 53 := by
    rw [div_lt_iff₀ hpos, ← zpow_natCast, ← zpow_add₀ two_ne_zero]
    refine hlt.trans_eq (congrArg _ ?_)
    push_cast
    ring
  have hle := hrepresents.roundedMantissa_le
  have habove := hrepresents.bounds.2
  have hrounded := mantissa_le_roundedMantissa
    (shiftToTargetExponent Format.binary64 M E accuracy).1
  split
  · rename_i hbelow
    have hshort : (shiftToTargetExponent Format.binary64 M E accuracy).1.roundedMantissa <
        2 ^ 53 := by
      have hvalue := (div_lt_iff₀ hpos).2 hbelow
      exact_mod_cast (by linarith : ((shiftToTargetExponent Format.binary64 M E
        accuracy).1.roundedMantissa : ℚ) < 2 ^ 53)
    refine ⟨_, hshort, ?_, ?_⟩
    · refine hge.symm.imp_left fun hge => ?_
      have hvalue : (2 : ℚ) ^ 52 ≤ v / 2 ^ t := by
        rw [le_div_iff₀ hpos, ← zpow_natCast, ← zpow_add₀ two_ne_zero]
        refine le_trans (le_of_eq (congrArg _ ?_)) hge
        push_cast
        ring
      have hfirst : 2 ^ 52 <
          (shiftToTargetExponent Format.binary64 M E accuracy).1.mantissa + 1 := by
        exact_mod_cast hvalue.trans_lt habove
      omega
    · simp only [roundWithAccuracy, hexponent, shiftToTargetExponent_of_lt hshort hmin]
  · rename_i hcarry
    have hfull : (shiftToTargetExponent Format.binary64 M E accuracy).1.roundedMantissa =
        2 ^ 53 := by
      refine hrepresents.roundedMantissa_eq ?_ ?_ (.inl (by decide))
      · push_cast
        exact (le_div_iff₀ hpos).2 (not_lt.1 hcarry)
      · push_cast
        linarith
    refine roundWithAccuracy_of_shift s (by decide) hexponent ?_
    have hfinal := @shiftToTargetExponent_of_carry (t + 1) (by omega)
    rwa [Int.add_sub_cancel, ← hfull] at hfinal

/-- A value that is not small is rounded to a number with all its digits, however large. -/
theorem exists_roundWithAccuracy (s : Sign)
    (h : Represents (.ofMantissaAndAccuracy M accuracy) y) (hfits : 52 ≤ M.log2 ∨ E ≤ -1074)
    (hlarge : (2 : ℚ) ^ (-1021 : ℤ) ≤ y * 2 ^ E) :
    ∃ m q hm, roundWithAccuracy Format.binary64 s M E accuracy = .finite s m q hm ∧
      2 ^ 52 ≤ m ∧ m < 2 ^ 53 ∧ -1074 ≤ q := by
  obtain ⟨t, hmin, hlt, -, hresult⟩ := roundWithAccuracy_cases s h hfits
  have ht : -1074 < t := by
    have := (zpow_lt_zpow_iff_right₀ one_lt_two).1 (hlarge.trans_lt hlt)
    omega
  split at hresult
  · obtain ⟨n, hshort, hlong, hround⟩ := hresult
    have hlong := hlong.resolve_right ht.ne'
    rw [dif_neg (by omega)] at hround
    exact ⟨n, t, _, hround, hlong, hshort, hmin⟩
  · exact ⟨2 ^ 52, t + 1, _, hresult, le_refl _, by decide, by omega⟩

theorem value_shiftLeft (M k : ℕ) (E : ℤ) : ((M <<< k : ℕ) : ℚ) * 2 ^ (E - k) = M * 2 ^ E := by
  rw [Nat.shiftLeft_eq, Nat.cast_mul, Nat.cast_pow, Nat.cast_ofNat, zpow_sub₀ two_ne_zero,
    zpow_natCast]
  field_simp

/-- Any value in the interval of a number is rounded to it, with few digits or many. -/
theorem round_eq (s : Sign) (hM : 0 < M) (hc : IsCanonical m q) (hv : RoundsTo m q (M * 2 ^ E)) :
    UnpackedFloat.round Format.binary64 s M E = .finite s m q hc.pos := by
  simp only [UnpackedFloat.round, targetExponent_binary64, decreaseExponent]
  generalize hk : (E - max (totalExponent M E - 53) (-1074)).toNat = k
  unfold totalExponent at hk
  refine roundWithAccuracy_eq s represents_exact ?_ hc ?_
  · have hlog : M.log2 + k ≤ (M <<< k).log2 := by
      rw [Nat.le_log2 (Nat.shiftLeft_pos_iff.2 hM).ne', Nat.shiftLeft_eq, Nat.pow_add]
      exact Nat.mul_le_mul_right _ (Nat.log2_self_le hM.ne')
    omega
  · rwa [value_shiftLeft]

end Rounding

/-! ### Sums, products and quotients -/

variable {m₁ m₂ : ℕ} {e₁ e₂ : ℤ}

/-- The sum of two positive numbers is rounded from their exact sum. -/
theorem add_finite_eq (h₁ : 0 < m₁) (h₂ : 0 < m₂) (hc : IsCanonical m q)
    (hv : RoundsTo m q (m₁ * 2 ^ e₁ + m₂ * 2 ^ e₂)) :
    UnpackedFloat.add Format.binary64 (.finite .positive m₁ e₁ h₁) (.finite .positive m₂ e₂ h₂) =
      .finite .positive m q hc.pos := by
  simp only [UnpackedFloat.add, decreaseExponent, Sign.apply]
  generalize hk₁ : (e₁ - min e₁ e₂).toNat = k₁
  generalize hk₂ : (e₂ - min e₁ e₂).toNat = k₂
  have hpos : 0 < m₁ <<< k₁ + m₂ <<< k₂ := Nat.add_pos_left (Nat.shiftLeft_pos_iff.2 h₁) _
  have hcompare : compare ((m₁ <<< k₁ : ℕ) + (m₂ <<< k₂ : ℕ) : ℤ) 0 = .gt :=
    Int.compare_eq_gt.2 (by exact_mod_cast hpos)
  simp only [UnpackedFloat.normalize, hcompare]
  refine round_eq .positive hpos hc ?_
  rw [Nat.cast_add, add_mul]
  nth_rewrite 1 [show min e₁ e₂ = e₁ - k₁ by omega]
  rwa [show min e₁ e₂ = e₂ - k₂ by omega, value_shiftLeft, value_shiftLeft]

/-- A product has digits enough if one factor has. -/
theorem le_log2_mul (h₁ : 0 < m₁) (h₂ : 0 < m₂) (hlong : 2 ^ 52 ≤ m₁) : 52 ≤ (m₁ * m₂).log2 :=
  (Nat.le_log2 (Nat.mul_pos h₁ h₂).ne').2 (hlong.trans (Nat.le_mul_of_pos_right m₁ h₂))

theorem mul_zpow_add (m₁ m₂ : ℕ) (e₁ e₂ : ℤ) :
    ((m₁ * m₂ : ℕ) : ℚ) * 2 ^ (e₁ + e₂) = m₁ * 2 ^ e₁ * (m₂ * 2 ^ e₂) := by
  rw [zpow_add₀ two_ne_zero, Nat.cast_mul, mul_mul_mul_comm]

/-- A product of which one factor has all its digits is rounded exactly. -/
theorem mul_finite_eq (s₁ s₂ : Sign) (h₁ : 0 < m₁) (h₂ : 0 < m₂) (hlong : 2 ^ 52 ≤ m₁)
    (hc : IsCanonical m q) (hv : RoundsTo m q (m₁ * 2 ^ e₁ * (m₂ * 2 ^ e₂))) :
    UnpackedFloat.mul Format.binary64 (.finite s₁ m₁ e₁ h₁) (.finite s₂ m₂ e₂ h₂) =
      .finite (s₁ * s₂) m q hc.pos := by
  refine roundWithAccuracy_eq (s₁ * s₂) represents_exact (.inl (le_log2_mul h₁ h₂ hlong)) hc ?_
  rw [mul_zpow_add]
  exact hv

/-- The dividend is shifted far enough that the quotient has all its digits. -/
theorem fits_divCore (h₁ : 0 < m₁) (h₂ : 0 < m₂) :
    52 ≤ (divCore Format.binary64 m₁ e₁ m₂ e₂).1.log2 ∨
      (divCore Format.binary64 m₁ e₁ m₂ e₂).2.1 ≤ -1074 := by
  simp only [divCore, targetExponent_binary64]
  generalize htarget : totalExponent m₁ e₁ - totalExponent m₂ e₂ - 53 = target
  by_cases hmin : target ≤ -1074
  · exact .inr (by omega)
  · refine .inl ?_
    generalize hshift : (e₁ - e₂ - min (e₁ - e₂) (max target (-1074))).toNat = shift
    unfold totalExponent at htarget
    have hexponent : 52 + (m₂.log2 + 1) ≤ m₁.log2 + shift := by omega
    have hquotient : 2 ^ 52 ≤ m₁ <<< shift / m₂ := by
      rw [Nat.le_div_iff_mul_le h₂, Nat.shiftLeft_eq]
      calc
        2 ^ 52 * m₂ ≤ 2 ^ 52 * 2 ^ (m₂.log2 + 1) := by gcongr; exact Nat.lt_log2_self.le
        _ = 2 ^ (52 + (m₂.log2 + 1)) := (Nat.pow_add 2 _ _).symm
        _ ≤ 2 ^ (m₁.log2 + shift) := Nat.pow_le_pow_right two_pos hexponent
        _ = 2 ^ m₁.log2 * 2 ^ shift := Nat.pow_add 2 _ _
        _ ≤ m₁ * 2 ^ shift := by gcongr; exact Nat.log2_self_le h₁.ne'
    exact (Nat.le_log2 (Nat.ne_of_gt (Nat.lt_of_lt_of_le (Nat.two_pow_pos 52) hquotient))).2
      hquotient

/-- The shifted quotient stands for the exact one. -/
theorem represents_divCore (h₂ : 0 < m₂) :
    ∃ y, Represents (.ofMantissaAndAccuracy (divCore Format.binary64 m₁ e₁ m₂ e₂).1
        (divCore Format.binary64 m₁ e₁ m₂ e₂).2.2) y ∧
      y * 2 ^ (divCore Format.binary64 m₁ e₁ m₂ e₂).2.1 = m₁ * 2 ^ e₁ / (m₂ * 2 ^ e₂) := by
  refine ⟨_, represents_quotient h₂, ?_⟩
  simp only [divCore]
  generalize htarget : min (e₁ - e₂) (Format.binary64.targetExponent
    (totalExponent m₁ e₁ - totalExponent m₂ e₂)) = target
  obtain ⟨shift, hshift⟩ := Int.le.dest (show target ≤ e₁ - e₂ by omega)
  have hshifted : (e₁ - e₂ - target).toNat = shift := by omega
  have hm₂ : (m₂ : ℚ) ≠ 0 := by exact_mod_cast h₂.ne'
  have hpow : (2 : ℚ) ^ shift * 2 ^ target * 2 ^ e₂ = 2 ^ e₁ := by
    rw [← zpow_natCast, ← zpow_add₀ two_ne_zero, ← zpow_add₀ two_ne_zero]
    congr 1
    omega
  have he₂ : (2 : ℚ) ^ e₂ ≠ 0 := (zpow_pos two_pos e₂).ne'
  rw [hshifted, Nat.shiftLeft_eq, ← hpow]
  push_cast
  field_simp

theorem div_finite_eq (s₁ s₂ : Sign) (h₁ : 0 < m₁) (h₂ : 0 < m₂) (hc : IsCanonical m q)
    (hv : RoundsTo m q (m₁ * 2 ^ e₁ / (m₂ * 2 ^ e₂))) :
    UnpackedFloat.div Format.binary64 (.finite s₁ m₁ e₁ h₁) (.finite s₂ m₂ e₂ h₂) =
      .finite (s₁ / s₂) m q hc.pos := by
  obtain ⟨y, hrepresents, hvalue⟩ := @represents_divCore m₁ m₂ e₁ e₂ h₂
  exact roundWithAccuracy_eq (s₁ / s₂) hrepresents (fits_divCore h₁ h₂) hc (hvalue ▸ hv)

end RowFormula.Number
