/-
# The numbers that literals denote

A `Numeral` is a number as the grammar spells it, taken apart into its digits, its point and its
exponent.  It denotes the number of the scientific literal with the same digits and the same
power of ten.  Reading the text of a numeral gives just this number: the shortcuts for decimals
far outside the range of numbers agree with rounding.
-/

import Mathlib
import RowFormula.Number.Read
import RowFormula.Proofs.Tokens

namespace RowFormula.Number

/-! ### Decimals far outside the range -/

section Rounding

open Float.Model (Format UnpackedFloat totalExponent)
open Float.Model.UnpackedFloat

variable {m e : Nat} {exponent : Int} {s : Sign} {accuracy : Accuracy}

theorem mantissa_shiftRight (x : ExtendedMantissa) (n : Nat) :
    (x >>> n).mantissa = x.mantissa / 2 ^ n := by
  induction n with
  | zero => exact (Nat.div_one _).symm
  | succ n ih =>
      calc
        (x >>> (n + 1)).mantissa = (x >>> n).mantissa / 2 := rfl
        _ = x.mantissa / 2 ^ (n + 1) := by rw [ih, Nat.div_div_eq_div_mul, Nat.pow_succ]

theorem mantissa_le_roundedMantissa (x : ExtendedMantissa) : x.mantissa ≤ x.roundedMantissa := by
  rcases x with ⟨m, round, sticky⟩
  cases round <;> cases sticky <;>
    simp only [ExtendedMantissa.roundedMantissa, ExtendedMantissa.accuracy,
      Accuracy.roundToNearestEven] <;> omega

/-- Less than half of the last place is rounded off. -/
theorem roundedMantissa_of_roundBit {x : ExtendedMantissa} (h : x.roundBit = false) :
    x.roundedMantissa = x.mantissa := by
  rcases x with ⟨m, round, sticky⟩
  cases h
  cases sticky <;> rfl

theorem roundBit_shiftRight {x : ExtendedMantissa} (hmantissa : x.mantissa = 0)
    (hround : x.roundBit = false) (n : Nat) : (x >>> n).roundBit = false := by
  cases n with
  | zero => exact hround
  | succ n =>
      have h : (x >>> (n + 1)).roundBit = ((x >>> n).mantissa % 2 != 0) := rfl
      rw [h, mantissa_shiftRight, hmantissa, Nat.zero_div]
      rfl

theorem targetExponent_binary64 (total : Int) :
    Format.binary64.targetExponent total = max (total - 53) (-1074) := rfl

theorem mantissa_ofMantissaAndAccuracy (m : Nat) (accuracy : Accuracy) :
    (ExtendedMantissa.ofMantissaAndAccuracy m accuracy).mantissa = m := by
  rcases accuracy with _ | order
  · rfl
  · cases order <;> rfl

/-- Shifting a mantissa to the exponent that is due never drops the first digit of a number
that is not small. -/
theorem shiftToTargetExponent_of_large (hm : m ≠ 0) (h : -1021 ≤ totalExponent m exponent) :
    (shiftToTargetExponent Format.binary64 m exponent accuracy).1.mantissa ≠ 0 ∧
      totalExponent m exponent ≤
        totalExponent (shiftToTargetExponent Format.binary64 m exponent accuracy).1.mantissa
          (shiftToTargetExponent Format.binary64 m exponent accuracy).2 ∧
      totalExponent m exponent - 53 ≤
        (shiftToTargetExponent Format.binary64 m exponent accuracy).2 := by
  simp only [shiftToTargetExponent, shiftToExponent, mantissa_shiftRight,
    mantissa_ofMantissaAndAccuracy, targetExponent_binary64]
  generalize hk : (max (totalExponent m exponent - 53) (-1074) - exponent).toNat = k
  unfold totalExponent at *
  have hle : k ≤ m.log2 := by omega
  have hshifted : 2 ^ (m.log2 - k) ≤ m / 2 ^ k := by
    rw [Nat.le_div_iff_mul_le (Nat.two_pow_pos k), ← Nat.pow_add, Nat.sub_add_cancel hle]
    exact Nat.log2_self_le hm
  have hne : m / 2 ^ k ≠ 0 := Nat.ne_of_gt (Nat.lt_of_lt_of_le (Nat.two_pow_pos _) hshifted)
  have hlog := (Nat.le_log2 hne).2 hshifted
  refine ⟨hne, ?_, ?_⟩ <;> omega

/-- A number beyond the range is rounded to an infinity. -/
theorem pack_roundWithAccuracy_of_large (hm : m ≠ 0) (h : 1025 ≤ totalExponent m exponent) :
    pack Format.binary64 (roundWithAccuracy Format.binary64 s m exponent accuracy) =
      packedInfinity Format.binary64 s := by
  obtain ⟨hne, htotal, -⟩ := @shiftToTargetExponent_of_large m exponent accuracy hm (by omega)
  rw [roundWithAccuracy]
  generalize shiftToTargetExponent Format.binary64 m exponent accuracy = first at *
  have hrounded := mantissa_le_roundedMantissa first.1
  have hne' : first.1.roundedMantissa ≠ 0 := by omega
  have htotal' : 1025 ≤ totalExponent first.1.roundedMantissa first.2 := by
    have hlog : first.1.mantissa.log2 ≤ first.1.roundedMantissa.log2 :=
      (Nat.le_log2 hne').2 (Nat.le_trans (Nat.log2_self_le hne) hrounded)
    unfold totalExponent at *
    omega
  obtain ⟨hne'', -, hexponent⟩ :=
    @shiftToTargetExponent_of_large _ first.2 Accuracy.exact hne' (by omega)
  simp only [dif_neg hne'', pack]
  refine if_pos ?_
  change 2048 ≤ (_ + 1023 + 52 : Int).toNat + 1
  omega

/-- What is not a half of the last place is rounded to zero. -/
theorem roundWithAccuracy_zero (h : (ExtendedMantissa.ofMantissaAndAccuracy 0 accuracy).roundBit =
    false) : roundWithAccuracy Format.binary64 s 0 exponent accuracy = .zero s := by
  have hmantissa : ∀ (accuracy : Accuracy) (exponent : Int),
      (shiftToTargetExponent Format.binary64 0 exponent accuracy).1.mantissa = 0 := by
    intro accuracy exponent
    simp only [shiftToTargetExponent, shiftToExponent, mantissa_shiftRight,
      mantissa_ofMantissaAndAccuracy, Nat.zero_div]
  have hround :
      (shiftToTargetExponent Format.binary64 0 exponent accuracy).1.roundedMantissa = 0 := by
    rw [roundedMantissa_of_roundBit, hmantissa]
    exact roundBit_shiftRight (mantissa_ofMantissaAndAccuracy 0 accuracy) h _
  simp only [roundWithAccuracy, hround, hmantissa, dite_true]

theorem totalExponent_of_le {k : Nat} (h : 2 ^ k ≤ m) :
    k + 1 + exponent ≤ totalExponent m exponent := by
  have hm : m ≠ 0 := Nat.ne_of_gt (Nat.lt_of_lt_of_le (Nat.two_pow_pos k) h)
  have hlog := (Nat.le_log2 hm).2 h
  unfold totalExponent
  omega

/-- A decimal that is far too large denotes an infinity. -/
theorem pack_ofScientific_of_large {e : Int} {k : Nat} (hk : 1030 ≤ k) (hm : m ≠ 0)
    (h : 2 ^ k * 10 ^ (-e).toNat ≤ m * 10 ^ e.toNat) :
    pack Format.binary64 (ofScientific Format.binary64 m e) =
      packedInfinity Format.binary64 .positive := by
  rw [ofScientific, dif_neg hm]
  split
  · rfl
  split
  · rename_i hsmall
    exfalso
    change e < -(2048 + m.log2 : Int) at hsmall
    have hdigits : m < 10 ^ (-e).toNat :=
      calc
        m < 2 ^ (m.log2 + 1) := Nat.lt_log2_self
        _ ≤ 2 ^ (-e).toNat := Nat.pow_le_pow_right (by decide) (by omega)
        _ ≤ 10 ^ (-e).toNat := Nat.pow_le_pow_left (by decide) _
    rw [show e.toNat = 0 by omega, Nat.pow_zero, Nat.mul_one] at h
    exact absurd (Nat.le_trans (Nat.le_mul_of_pos_left _ (Nat.two_pow_pos k)) h)
      (Nat.not_le.2 hdigits)
  split
  · rename_i he
    rw [show (-e).toNat = 0 by omega, Nat.pow_zero, Nat.mul_one] at h
    have hproduct : 2 ^ (k + 53) ≤ m <<< Format.binary64.mantissaBits * 10 ^ e.toNat :=
      calc
        2 ^ (k + 53) = 2 ^ k * 2 ^ 53 := Nat.pow_add 2 k 53
        _ ≤ (m * 10 ^ e.toNat) * 2 ^ 53 := Nat.mul_le_mul_right _ h
        _ = m <<< Format.binary64.mantissaBits * 10 ^ e.toNat := by
          rw [Nat.shiftLeft_eq, Nat.mul_right_comm]
          rfl
    have htotal := @totalExponent_of_le _ (-53 + 0) _ hproduct
    refine pack_roundWithAccuracy_of_large ?_ ?_
    · exact Nat.ne_of_gt (Nat.lt_of_lt_of_le (Nat.two_pow_pos _) hproduct)
    · refine Int.le_trans ?_ htotal
      omega
  · rename_i he
    rw [show e.toNat = 0 by omega, Nat.pow_zero, Nat.mul_one] at h
    generalize hshift : (0 - 0 - min (0 - 0 : Int) (Format.binary64.targetExponent
      (totalExponent m 0 - totalExponent (10 ^ (-e).toNat) 0))).toNat = shift
    have hquotient : 2 ^ (k + shift) ≤ m <<< shift / 10 ^ (-e).toNat := by
      rw [Nat.le_div_iff_mul_le (Nat.pow_pos (by decide)), Nat.shiftLeft_eq, Nat.pow_add,
        Nat.mul_right_comm]
      exact Nat.mul_le_mul_right _ h
    have htotal := @totalExponent_of_le _ (min (0 - 0 : Int) (Format.binary64.targetExponent
      (totalExponent m 0 - totalExponent (10 ^ (-e).toNat) 0))) _ hquotient
    simp only [div, divCore, hshift]
    refine pack_roundWithAccuracy_of_large ?_ ?_
    · exact Nat.ne_of_gt (Nat.lt_of_lt_of_le (Nat.two_pow_pos _) hquotient)
    · omega

/-- A decimal that is far too small denotes zero. -/
theorem ofScientific_of_small {e : Int} {k : Nat} (hk : 1075 ≤ k)
    (h : m * 2 ^ k < 10 ^ (-e).toNat) :
    ofScientific Format.binary64 m e = .zero .positive := by
  rw [ofScientific]
  split
  · rfl
  rename_i hm
  have he : e < 0 := by
    refine Int.not_le.1 fun he => ?_
    rw [show (-e).toNat = 0 by omega, Nat.pow_zero] at h
    exact Nat.not_lt.2 (Nat.mul_pos (Nat.pos_of_ne_zero hm) (Nat.two_pow_pos k)) h
  rw [if_neg (show ¬ e > 2 ^ 11 by omega)]
  split
  · rfl
  rw [if_neg (Int.not_le.2 he)]
  simp only [div, divCore]
  generalize htarget : min (0 - 0 : Int) (Format.binary64.targetExponent
    (totalExponent m 0 - totalExponent (10 ^ (-e).toNat) 0)) = target
  have hshift : (0 - 0 - target).toNat + 1 ≤ k := by
    rw [targetExponent_binary64] at htarget
    omega
  have hless : 2 * (m <<< (0 - 0 - target).toNat) < 10 ^ (-e).toNat :=
    calc
      2 * (m <<< (0 - 0 - target).toNat) = m * 2 ^ ((0 - 0 - target).toNat + 1) := by
        rw [Nat.shiftLeft_eq, Nat.mul_left_comm, ← Nat.pow_succ']
      _ ≤ m * 2 ^ k := Nat.mul_le_mul_left _ (Nat.pow_le_pow_right (by decide) hshift)
      _ < 10 ^ (-e).toNat := h
  rw [Nat.div_eq_of_lt (by omega), Nat.mod_eq_of_lt (by omega)]
  refine roundWithAccuracy_zero ?_
  rw [accuracyOfFraction]
  split
  · rfl
  · rw [Nat.compare_eq_lt.2 hless]
    rfl

end Rounding

/-! ### Decimals -/

namespace Decimal

/-- The number of the scientific literal with these digits and this exponent. -/
def denoted (d : Decimal) : Float :=
  Float.ofScientific d.digits (decide (d.exponent < 0)) d.exponent.natAbs

variable {d : Decimal}

/-- Decimals with many digits or large exponents are not read by a table of powers. -/
theorem denoted_eq (h : 2 ^ 53 ≤ d.digits ∨ 22 < d.exponent.natAbs) :
    d.denoted = .ofModel (Float.Model.ofScientific d.digits d.exponent) := by
  rw [denoted, Float.ofScientific, dif_neg (by omega)]
  by_cases hneg : d.exponent < 0
  · rw [decide_eq_true hneg, if_pos rfl, Int.negOfNat_eq, Int.ofNat_eq_natCast]
    rw [show -(d.exponent.natAbs : Int) = d.exponent by omega]
  · rw [decide_eq_false hneg, if_neg Bool.false_ne_true, Int.ofNat_eq_natCast]
    rw [show (d.exponent.natAbs : Int) = d.exponent by omega]

theorem denoted_of_digits_eq_zero (h : d.digits = 0) : d.denoted = 0.0 := by
  by_cases hexponent : d.exponent.natAbs ≤ 22
  · have hzero : ∀ e : Fin 23, ∀ s : Bool, Float.ofScientific 0 s e = 0.0 := by decide +kernel
    rw [denoted, h]
    exact hzero ⟨d.exponent.natAbs, by omega⟩ _
  · have hzero : Float.Model.ofScientific 0 d.exponent = .pack (.zero .positive) := rfl
    rw [denoted_eq (.inr (by omega)), h, hzero]
    decide +kernel

theorem pow_le_digits (h : d.digits ≠ 0) : 10 ^ (digitCount d.digits - 1) ≤ d.digits := by
  rcases Nat.eq_zero_or_pos (digitCount d.digits - 1) with hzero | hpos
  · rw [hzero, Nat.pow_zero]
    exact Nat.pos_of_ne_zero h
  · refine Nat.not_lt.1 fun hlt => ?_
    have := (Nat.length_toDigits_le_iff (by decide) hpos).2 hlt
    unfold digitCount at *
    omega

theorem digits_lt_pow : d.digits < 10 ^ digitCount d.digits :=
  (Nat.length_toDigits_le_iff (by decide) Nat.length_toDigits_pos).1 (Nat.le_refl _)

/-- The digits and the exponent are small only if the exponent of the first digit is. -/
theorem large_of_leadingExponent (h : d.leadingExponent < -22 ∨ 37 < d.leadingExponent) :
    2 ^ 53 ≤ d.digits ∨ 22 < d.exponent.natAbs := by
  rw [leadingExponent] at h
  by_cases hdigits : 2 ^ 53 ≤ d.digits
  · exact .inl hdigits
  · have hcount : digitCount d.digits ≤ 16 :=
      (Nat.length_toDigits_le_iff (by decide) (by decide)).2 (by omega)
    have hpos : 0 < digitCount d.digits := Nat.length_toDigits_pos
    omega

theorem denoted_of_leadingExponent_gt (hd : d.digits ≠ 0) (h : d.leadingExponent > 310) :
    d.denoted = infinity := by
  obtain ⟨k, n, hk, hn, hbound⟩ : ∃ k n, 1030 ≤ k ∧ n ≤ 311 ∧ 2 ^ k ≤ 10 ^ n :=
    ⟨1030, 311, by decide, by decide, by decide +kernel⟩
  have hlarge : 2 ^ k * 10 ^ (-d.exponent).toNat ≤ d.digits * 10 ^ d.exponent.toNat :=
    calc
      2 ^ k * 10 ^ (-d.exponent).toNat ≤ 10 ^ n * 10 ^ (-d.exponent).toNat :=
        Nat.mul_le_mul_right _ hbound
      _ = 10 ^ (n + (-d.exponent).toNat) := (Nat.pow_add _ _ _).symm
      _ ≤ 10 ^ (digitCount d.digits - 1 + d.exponent.toNat) := by
        refine Nat.pow_le_pow_right (by decide) ?_
        rw [leadingExponent] at h
        omega
      _ = 10 ^ (digitCount d.digits - 1) * 10 ^ d.exponent.toNat := Nat.pow_add _ _ _
      _ ≤ d.digits * 10 ^ d.exponent.toNat := Nat.mul_le_mul_right _ (pow_le_digits hd)
  have hmodel : Float.Model.ofScientific d.digits d.exponent = .pack (.infinity .positive) := by
    rw [Float.Model.ofScientific, Float.Model.pack, Float.Model.pack, Float.Model.mk.injEq,
      pack_ofScientific_of_large hk hd hlarge]
    rfl
  rw [denoted_eq (large_of_leadingExponent (.inr (by omega))), hmodel]
  decide +kernel

theorem denoted_of_leadingExponent_lt (h : d.leadingExponent < -330) : d.denoted = 0.0 := by
  obtain ⟨k, n, hk, hn, hbound⟩ : ∃ k n, 1075 ≤ k ∧ n ≤ 330 ∧ 2 ^ k ≤ 10 ^ n :=
    ⟨1075, 330, by decide, by decide, by decide +kernel⟩
  have hsmall : d.digits * 2 ^ k < 10 ^ (-d.exponent).toNat :=
    calc
      d.digits * 2 ^ k ≤ d.digits * 10 ^ n := Nat.mul_le_mul_left _ hbound
      _ < 10 ^ digitCount d.digits * 10 ^ n :=
        Nat.mul_lt_mul_of_pos_right digits_lt_pow (Nat.pow_pos (by decide))
      _ = 10 ^ (digitCount d.digits + n) := (Nat.pow_add _ _ _).symm
      _ ≤ 10 ^ (-d.exponent).toNat := by
        refine Nat.pow_le_pow_right (by decide) ?_
        rw [leadingExponent] at h
        omega
  have hmodel : Float.Model.ofScientific d.digits d.exponent = .pack (.zero .positive) := by
    rw [Float.Model.ofScientific, ofScientific_of_small hk hsmall]
  rw [denoted_eq (large_of_leadingExponent (.inl (by omega))), hmodel]
  decide +kernel

end Decimal

/-- Reading a decimal gives the number that it denotes. -/
theorem ofDecimal_eq_denoted (d : Decimal) : ofDecimal d = d.denoted := by
  unfold ofDecimal
  split
  · rename_i h
    exact (Decimal.denoted_of_digits_eq_zero h).symm
  split
  · rename_i hd h
    exact (Decimal.denoted_of_leadingExponent_gt hd h).symm
  split
  · rename_i h
    exact (Decimal.denoted_of_leadingExponent_lt h).symm
  split
  · rename_i h
    rw [Decimal.denoted, decide_eq_false (Int.not_lt.2 h),
      show d.exponent.toNat = d.exponent.natAbs by omega]
  · rename_i h
    rw [Decimal.denoted, decide_eq_true (Int.not_le.1 h),
      show (-d.exponent).toNat = d.exponent.natAbs by omega]

end RowFormula.Number

namespace RowFormula.Grammar

open Number

/-! ### Numerals -/

/-- Digits that make up a number. -/
abbrev Digits : Type := { cs : List Char // IsDigits cs }

/-- An exponent as it is spelled, with its letter and possibly a sign. -/
structure Exponent where
  letter : { c : Char // (c == 'e' || c == 'E') = true }
  sign? : Option { c : Char // (c == '+' || c == '-') = true }
  digits : Digits

namespace Exponent

def chars (e : Exponent) : List Char :=
  e.letter.1 :: (e.sign?.toList.map Subtype.val ++ e.digits.1)

/-- The power of ten. -/
def value (e : Exponent) : Int :=
  if e.sign?.any (·.1 == '-') then -(digitsValue e.digits.1 : Int) else digitsValue e.digits.1

end Exponent

/-- A number as it is spelled. -/
inductive Numeral where
  | integer (digits : Digits)
  | point (whole : Digits) (fraction : { cs : List Char // ∀ c ∈ cs, c.isDigit = true })
      (exponent? : Option Exponent)
  | leadingPoint (fraction : Digits) (exponent? : Option Exponent)
  | exponent (whole : Digits) (exponent : Exponent)

namespace Numeral

/-- The digits in front of the point. -/
def whole : Numeral → List Char
  | integer digits => digits.1
  | point whole _ _ => whole.1
  | leadingPoint _ _ => []
  | exponent whole _ => whole.1

/-- The digits behind the point. -/
def fraction : Numeral → List Char
  | integer _ => []
  | point _ fraction _ => fraction.1
  | leadingPoint fraction _ => fraction.1
  | exponent _ _ => []

def exponent? : Numeral → Option Exponent
  | integer _ => none
  | point _ _ e => e
  | leadingPoint _ e => e
  | exponent _ e => some e

def hasPoint : Numeral → Bool
  | point .. | leadingPoint .. => true
  | integer .. | exponent .. => false

/-- The text of a number. -/
def chars (n : Numeral) : List Char :=
  n.whole ++ ((if n.hasPoint then '.' :: n.fraction else []) ++
    (n.exponent?.map Exponent.chars).getD [])

/-- The digits without the point, and the power of ten by which they are scaled. -/
def decimal (n : Numeral) : Decimal :=
  ⟨digitsValue (n.whole ++ n.fraction), (n.exponent?.map Exponent.value).getD 0 - n.fraction.length⟩

/-- The number that is meant. -/
def denoted (n : Numeral) : Float := n.decimal.denoted

/-- The operand of which this is the text. -/
def leaf (n : Numeral) : Leaf :=
  match n with
  | integer _ => .integer n.chars
  | _ => .float n.chars

end Numeral

section Spelling

variable {cs rest : List Char}

theorem isExponent_iff : IsExponent cs ↔ ∃ e : Exponent, e.chars = cs := by
  constructor
  · intro h
    cases h with
    | unsigned he hdigits => exact ⟨⟨⟨_, he⟩, none, ⟨_, hdigits⟩⟩, rfl⟩
    | signed he hsign hdigits => exact ⟨⟨⟨_, he⟩, some ⟨_, hsign⟩, ⟨_, hdigits⟩⟩, rfl⟩
  · rintro ⟨⟨letter, sign?, digits⟩, rfl⟩
    cases sign? with
    | none => exact .unsigned letter.2 digits.2
    | some sign => exact .signed letter.2 sign.2 digits.2

theorem optionalExponent_iff :
    (cs = [] ∨ IsExponent cs) ↔ ∃ e : Option Exponent, (e.map Exponent.chars).getD [] = cs := by
  constructor
  · rintro (rfl | h)
    · exact ⟨none, rfl⟩
    · obtain ⟨e, rfl⟩ := isExponent_iff.1 h
      exact ⟨some e, rfl⟩
  · rintro ⟨_ | e, rfl⟩
    · exact .inl rfl
    · exact .inr (isExponent_iff.2 ⟨e, rfl⟩)

theorem spellsLeaf_leaf (n : Numeral) : SpellsLeaf n.chars n.leaf := by
  cases n with
  | integer digits =>
      have hchars : (Numeral.integer digits).chars = digits.1 := List.append_nil _
      rw [Numeral.leaf, hchars]
      exact .integer digits.2
  | point whole fraction e =>
      have hfloat := IsFloat.point whole.2 fraction.2 (optionalExponent_iff.2 ⟨e, rfl⟩)
      rw [List.append_assoc] at hfloat
      exact .float hfloat
  | leadingPoint fraction e =>
      exact .float (.leadingPoint fraction.2 (optionalExponent_iff.2 ⟨e, rfl⟩))
  | exponent whole e => exact .float (.exponent whole.2 (isExponent_iff.2 ⟨e, rfl⟩))

/-- Every number of the grammar is a numeral. -/
theorem exists_numeral (h : IsDigits cs ∨ IsFloat cs) : ∃ n : Numeral, n.chars = cs := by
  rcases h with h | h
  · exact ⟨.integer ⟨cs, h⟩, List.append_nil _⟩
  · cases h with
    | point hwhole hfraction he =>
        obtain ⟨e, rfl⟩ := optionalExponent_iff.1 he
        exact ⟨.point ⟨_, hwhole⟩ ⟨_, hfraction⟩ e, (List.append_assoc _ _ _).symm⟩
    | leadingPoint hfraction he =>
        obtain ⟨e, rfl⟩ := optionalExponent_iff.1 he
        exact ⟨.leadingPoint ⟨_, hfraction⟩ e, rfl⟩
    | exponent hwhole he =>
        obtain ⟨e, rfl⟩ := isExponent_iff.1 he
        exact ⟨.exponent ⟨_, hwhole⟩ e, rfl⟩

end Spelling

/-! ### Reading numerals -/

section Reading

theorem toLower_of_isDigit {c : Char} (h : c.isDigit = true) : c.toLower = c := by
  simp only [Char.isDigit, Bool.and_eq_true, decide_eq_true_eq, UInt32.le_iff_toNat_le,
    ge_iff_le] at h
  have hnine : '9'.val.toNat = 57 := rfl
  unfold Char.toLower
  split
  · rename_i hupper
    have hbig : 'A'.val.toNat = 65 := rfl
    simp only [UInt32.le_iff_toNat_le, ge_iff_le] at hupper
    omega
  · rfl

theorem exponent?_chars (e : Exponent) : Number.exponent? e.chars = some e.value := by
  obtain ⟨letter, sign?, digits, hne, hdigits⟩ := e
  have hall : (!digits.isEmpty && digits.all Char.isDigit) = true := by
    rw [Bool.and_eq_true, List.all_eq_true, Bool.not_eq_true', List.isEmpty_eq_false_iff]
    exact ⟨hne, hdigits⟩
  cases sign? with
  | none =>
      obtain ⟨d, ds, rfl⟩ := List.exists_cons_of_ne_nil hne
      have hd := hdigits d List.mem_cons_self
      simp only [Exponent.chars, Option.toList_none, List.map_nil, List.nil_append,
        Number.exponent?, letter.2, if_true]
      -- No digit is a sign.
      split
      · rename_i heq
        obtain ⟨rfl, -⟩ := List.cons.inj heq
        exact absurd hd (by decide)
      · rename_i heq
        obtain ⟨rfl, -⟩ := List.cons.inj heq
        exact absurd hd (by decide)
      · rw [if_pos hall]
        rfl
  | some sign =>
      obtain ⟨sign, hsign⟩ := sign
      simp only [Exponent.chars, Option.toList_some, List.map_cons, List.map_nil, List.cons_append,
        List.nil_append, Number.exponent?, letter.2, if_true]
      rcases Bool.or_eq_true _ _ ▸ hsign with hsign | hsign
      · obtain rfl := eq_of_beq hsign
        simp only [hall, if_true]
        rfl
      · obtain rfl := eq_of_beq hsign
        simp only [hall, if_true]
        rfl

theorem optionalExponent?_chars (e : Option Exponent) :
    Number.exponent? ((e.map Exponent.chars).getD []) = some ((e.map Exponent.value).getD 0) := by
  cases e with
  | none => rfl
  | some e => exact exponent?_chars e

namespace Numeral

variable (n : Numeral)

theorem isDigit_whole : ∀ c ∈ n.whole, c.isDigit = true := by
  cases n with
  | integer digits => exact digits.2.2
  | point whole _ _ => exact whole.2.2
  | leadingPoint _ _ => exact nofun
  | exponent whole _ => exact whole.2.2

theorem isDigit_fraction : ∀ c ∈ n.fraction, c.isDigit = true := by
  cases n with
  | integer _ => exact nofun
  | point _ fraction _ => exact fraction.2
  | leadingPoint fraction _ => exact fraction.2.2
  | exponent _ _ => exact nofun

theorem whole_or_fraction_ne_nil : n.whole ≠ [] ∨ n.fraction ≠ [] := by
  cases n with
  | integer digits => exact .inl digits.2.1
  | point whole _ _ => exact .inl whole.2.1
  | leadingPoint fraction _ => exact .inr fraction.2.1
  | exponent whole _ => exact .inl whole.2.1

/-- A number without a point has nothing behind it. -/
theorem fraction_of_hasPoint (h : n.hasPoint = false) : n.fraction = [] := by
  cases n with
  | integer _ => rfl
  | point _ _ _ => cases h
  | leadingPoint _ _ => cases h
  | exponent _ _ => rfl

theorem exponent_head_of_optional (e : Option Exponent) :
    ∀ c ∈ ((e.map Exponent.chars).getD []).head?, c.isDigit = false ∧ c ≠ '.' := by
  cases e with
  | none => exact nofun
  | some e =>
      have hhead := @exponent_head e.chars [] (isExponent_iff.2 ⟨e, rfl⟩)
      rwa [List.append_nil] at hhead

/-- A numeral is taken apart into its digits and its power of ten. -/
theorem decimal?_chars : decimal? n.chars = some n.decimal := by
  have hexponent := exponent_head_of_optional n.exponent?
  have hne : (n.whole.isEmpty && n.fraction.isEmpty) = false := by
    rw [Bool.and_eq_false_iff, List.isEmpty_eq_false_iff, List.isEmpty_eq_false_iff]
    exact n.whole_or_fraction_ne_nil
  cases hpoint : n.hasPoint with
  | true =>
      have hchars : n.chars = n.whole ++ '.' ::
          (n.fraction ++ (n.exponent?.map Exponent.chars).getD []) := by
        rw [chars, hpoint, if_pos rfl, List.cons_append]
      obtain ⟨htake, hdrop⟩ := @takeWhile_dropWhile_append _
        ('.' :: (n.fraction ++ (n.exponent?.map Exponent.chars).getD [])) _ n.isDigit_whole
        (forall_mem_head rfl)
      obtain ⟨htake', hdrop'⟩ := takeWhile_dropWhile_append n.isDigit_fraction
        fun c hc => (hexponent c hc).1
      rw [decimal?, hchars, htake, hdrop]
      simp only [htake', hdrop', hne, Bool.false_eq_true, if_false, optionalExponent?_chars]
      rfl
  | false =>
      have hchars : n.chars = n.whole ++ (n.exponent?.map Exponent.chars).getD [] := by
        rw [chars, hpoint, if_neg Bool.false_ne_true, List.nil_append]
      obtain ⟨htake, hdrop⟩ := takeWhile_dropWhile_append n.isDigit_whole
        fun c hc => (hexponent c hc).1
      have hnoPoint : ∀ tail, (n.exponent?.map Exponent.chars).getD [] ≠ '.' :: tail :=
        fun tail heq => (hexponent '.' (by rw [heq]; rfl)).2 rfl
      rw [n.fraction_of_hasPoint hpoint] at hne
      rw [decimal?, hchars, htake, hdrop, decimal, n.fraction_of_hasPoint hpoint]
      simp only [hne, Bool.false_eq_true, if_false, optionalExponent?_chars]
      rfl

/-- A numeral begins with a digit or a point. -/
theorem exists_cons : ∃ c cs, n.chars = c :: cs ∧ (c.isDigit = true ∨ c = '.') := by
  cases hwhole : n.whole with
  | cons c cs =>
      have hc := n.isDigit_whole c (by rw [hwhole]; exact List.mem_cons_self)
      exact ⟨c, _, by rw [chars, hwhole]; rfl, .inl hc⟩
  | nil =>
      have hpoint : n.hasPoint = true := by
        rcases n.whole_or_fraction_ne_nil with hne | hne
        · exact absurd hwhole hne
        · exact Bool.of_not_eq_false fun hpoint => hne (n.fraction_of_hasPoint hpoint)
      exact ⟨'.', _, by rw [chars, hwhole, hpoint]; rfl, .inr rfl⟩

/-- The text of a numeral is read as the number that it denotes. -/
theorem magnitude?_chars : magnitude? n.chars = some n.denoted := by
  obtain ⟨c, cs, hchars, hc⟩ := n.exists_cons
  have hdecimal := n.decimal?_chars
  rw [hchars] at hdecimal ⊢
  -- A text that begins like a number is no word.
  have hword : ∀ word : String, (∀ d ∈ word.toList.head?, d.isDigit = false ∧ d ≠ '.') →
      word.toList ≠ [] → String.ofList ((c :: cs).map Char.toLower) ≠ word := by
    rintro _ hhead - rfl
    have hlower : c.toLower = c := by
      rcases hc with hc | rfl
      · exact toLower_of_isDigit hc
      · rfl
    obtain ⟨hdigit, hpoint⟩ := hhead c (by rw [String.toList_ofList, List.map_cons, hlower]; rfl)
    rcases hc with hc | hc
    · exact Bool.false_ne_true (hdigit.symm.trans hc)
    · exact hpoint hc
  unfold magnitude?
  split
  · rename_i heq
    exact absurd heq (hword _ (forall_mem_head (by decide)) (by decide))
  · rename_i heq
    exact absurd heq (hword _ (forall_mem_head (by decide)) (by decide))
  · rename_i heq
    exact absurd heq (hword _ (forall_mem_head (by decide)) (by decide))
  · rw [hdecimal, denoted, ← ofDecimal_eq_denoted]
    rfl

/-- Reading the text of a numeral gives the number that it denotes. -/
theorem read?_chars : read? (String.ofList n.chars) = some n.denoted := by
  obtain ⟨c, cs, hchars, hc⟩ := n.exists_cons
  have hmagnitude := n.magnitude?_chars
  rw [hchars] at hmagnitude ⊢
  -- A text that begins like a number is not signed.
  have hsign : ∀ {d : Char} {ds : List Char}, d.isDigit = false → d ≠ '.' →
      c :: cs ≠ d :: ds := by
    rintro d ds hdigit hpoint heq
    obtain ⟨rfl, -⟩ := List.cons.inj heq
    rcases hc with hc | hc
    · exact Bool.false_ne_true (hdigit.symm.trans hc)
    · exact hpoint hc
  unfold read?
  rw [String.toList_ofList]
  split
  · rename_i heq
    exact absurd heq (hsign rfl (by decide))
  · rename_i heq
    exact absurd heq (hsign rfl (by decide))
  · exact hmagnitude

end Numeral

end Reading

end RowFormula.Grammar
