/-
# Numbers without a sign

Equality of numbers differs from identity in two places: zero has two signs, and the missing
number is not equal to itself.  The numbers that literals denote have no sign, because rounding,
products and quotients keep it, and they are never missing; so literals are equal exactly if they
are the same.
-/

import RowFormula.Proofs.Numerals

namespace RowFormula.Number

open Float.Model (Format UnpackedFloat)
open Float.Model.UnpackedFloat

/-! ### Signs -/

/-- The number is not negative, nor a negative zero. -/
def IsMagnitude : UnpackedFloat → Prop
  | .infinity s | .zero s | .finite s _ _ _ => s = .positive
  | .notANumber => True

theorem isMagnitude_round (spec : Format) (m : Nat) (e : Int) (accuracy : Accuracy) :
    IsMagnitude (roundWithAccuracy spec .positive m e accuracy) := by
  unfold roundWithAccuracy
  dsimp only
  split <;> rfl

theorem isMagnitude_mul (spec : Format) {x y : UnpackedFloat} (hx : IsMagnitude x)
    (hy : IsMagnitude y) : IsMagnitude (mul spec x y) := by
  cases x <;> cases y <;> cases hx <;> cases hy <;>
    first | exact isMagnitude_round .. | trivial

theorem isMagnitude_div (spec : Format) {x y : UnpackedFloat} (hx : IsMagnitude x)
    (hy : IsMagnitude y) : IsMagnitude (div spec x y) := by
  cases x <;> cases y <;> cases hx <;> cases hy <;>
    first | exact isMagnitude_round .. | trivial

theorem isMagnitude_ofNat (spec : Format) (n : Nat) : IsMagnitude (UnpackedFloat.ofNat spec n) := by
  unfold UnpackedFloat.ofNat UnpackedFloat.ofInt UnpackedFloat.normalize
  split
  · rename_i h
    have := Int.compare_eq_lt.1 h
    omega
  · rfl
  · exact isMagnitude_round ..

theorem isMagnitude_ofScientific (spec : Format) (m : Nat) (e : Int) :
    IsMagnitude (ofScientific spec m e) := by
  unfold ofScientific
  split
  · rfl
  split
  · rfl
  split
  · rfl
  split
  · exact isMagnitude_mul spec rfl rfl
  · exact isMagnitude_div spec rfl rfl

/-! ### Numbers -/

/-- The bits of a number. -/
def bitsOf (x : Float) : BitVec Format.binary64.numBits :=
  x.toModel.toBits.toBitVec

/-- The sign bit of the number is not set. -/
def Unsigned (x : Float) : Prop :=
  unpackSign (bitsOf x) = 0#1

instance (x : Float) : Decidable (Unsigned x) :=
  inferInstanceAs (Decidable (_ = _))

theorem unsigned_pack {u : UnpackedFloat} (h : IsMagnitude u) :
    Unsigned (.ofModel (.pack u)) := by
  show unpackSign (pack Format.binary64 u) = 0#1
  unfold pack
  cases u with
  | notANumber => rfl
  | infinity s | zero s =>
      cases h
      rfl
  | finite s m e hm =>
      cases h
      dsimp only
      split
      · rfl
      split
      · exact unpackSign_packComponents ..
      · exact unpackSign_packComponents ..

theorem Unsigned.isMagnitude {x : Float} (h : Unsigned x) : IsMagnitude x.toModel.unpack := by
  show IsMagnitude (unpack Format.binary64 (bitsOf x))
  unfold unpack
  rw [show unpackSign (bitsOf x) = 0#1 from h]
  dsimp only
  split
  · split
    · rfl
    · trivial
  · split
    · split <;> rfl
    · rfl

theorem Unsigned.mul {x y : Float} (hx : Unsigned x) (hy : Unsigned y) : Unsigned (x * y) :=
  unsigned_pack (isMagnitude_mul _ hx.isMagnitude hy.isMagnitude)

theorem Unsigned.div {x y : Float} (hx : Unsigned x) (hy : Unsigned y) : Unsigned (x / y) :=
  unsigned_pack (isMagnitude_div _ hx.isMagnitude hy.isMagnitude)

theorem unsigned_ofScientific (m : Nat) (s : Bool) (e : Nat) :
    Unsigned (Float.ofScientific m s e) := by
  have hpowers : ∀ i : Fin 23, Unsigned (Float.exactlyRepresentablePowersOfTen[i]) := by
    decide +kernel
  have hdigits : Unsigned m.toUInt64.toFloat := unsigned_pack (isMagnitude_ofNat ..)
  unfold Float.ofScientific
  split
  · rename_i h
    have hpower := hpowers ⟨e, by omega⟩
    dsimp only
    split
    · exact hdigits.div hpower
    · exact hdigits.mul hpower
  · exact unsigned_pack (isMagnitude_ofScientific ..)

/-- Numbers without a sign that are equal are the same. -/
theorem Unsigned.eq_of_beq {x y : Float} (hx : Unsigned x) (hy : Unsigned y)
    (h : (x == y) = true) : x = y := by
  have hnegative : ¬ Unsigned (-0) := by decide +kernel
  obtain ⟨-, -, heq | ⟨-, rfl⟩ | ⟨rfl, -⟩⟩ := Float.beq_iff_ne_nan_and_eq.1 h
  · exact heq
  · exact absurd hy hnegative
  · exact absurd hx hnegative

/-! ### The missing number -/

theorem isNaN_round (spec : Format) (s : Sign) (m : Nat) (e : Int) (accuracy : Accuracy) :
    (roundWithAccuracy spec s m e accuracy).isNaN = false := by
  unfold roundWithAccuracy
  dsimp only
  split <;> rfl

theorem isNaN_mul (spec : Format) {x : UnpackedFloat} (hx : x.isNaN = false) (s : Sign) (m : Nat)
    (e : Int) (hm : 0 < m) : (mul spec x (.finite s m e hm)).isNaN = false := by
  cases x with
  | notANumber => cases hx
  | infinity | zero => rfl
  | finite => exact isNaN_round ..

theorem isNaN_div (spec : Format) {x : UnpackedFloat} (hx : x.isNaN = false) (s : Sign) (m : Nat)
    (e : Int) (hm : 0 < m) : (div spec x (.finite s m e hm)).isNaN = false := by
  cases x with
  | notANumber => cases hx
  | infinity | zero => rfl
  | finite => exact isNaN_round ..

theorem isNaN_ofNat (spec : Format) (n : Nat) : (UnpackedFloat.ofNat spec n).isNaN = false := by
  unfold UnpackedFloat.ofNat UnpackedFloat.ofInt UnpackedFloat.normalize
  split
  · exact isNaN_round ..
  · rfl
  · exact isNaN_round ..

theorem isNaN_ofScientific (spec : Format) (m : Nat) (e : Int) :
    (ofScientific spec m e).isNaN = false := by
  unfold ofScientific
  split
  · rfl
  split
  · rfl
  split
  · rfl
  split
  · exact isNaN_mul spec rfl ..
  · exact isNaN_div spec rfl ..

/-- Packing does not lose a number, however large it is. -/
theorem isNaN_unpack_pack (spec : Format) {x : UnpackedFloat} (h : x.isNaN = false) :
    (unpack spec (pack spec x)).isNaN = false := by
  fun_cases pack with
  | case1 => cases h
  | case2 s => simp [unpack, packedInfinity, isNaN]
  | case3 s => simp [isNaN]
  | case4 s m e hm biasedExponent hlarge => simp [unpack, packedInfinity, isNaN]
  | case5 s m e hm bits biasedExponent hsmall hnormal =>
      have hexponent : BitVec.ofNat spec.exponentBits biasedExponent ≠ -1#_ := by
        intro heq
        have htoNat := congrArg BitVec.toNat heq
        rw [BitVec.toNat_ofNat, BitVec.neg_one_eq_allOnes, BitVec.toNat_allOnes,
          Nat.mod_eq_of_lt (by omega)] at htoNat
        omega
      simp only [unpack, unpackExponent_packComponents, if_neg hexponent]
      split
      · split <;> rfl
      · rfl
  | case6 s m e hm bits biasedExponent hsmall hsubnormal =>
      have hexponent : BitVec.ofNat spec.exponentBits 0 ≠ -1#_ := by
        simp [Nat.pos_iff_ne_zero.1 spec.he]
      simp only [unpack, unpackExponent_packComponents, if_neg hexponent, if_pos]
      split <;> rfl

/-- Literals denote numbers, and a number is equal to itself. -/
theorem ofScientific_beq_self (m : Nat) (s : Bool) (e : Nat) :
    (Float.ofScientific m s e == Float.ofScientific m s e) = true := by
  have hpowers : ∀ i : Fin 23, ∃ s m e hm,
      (Float.exactlyRepresentablePowersOfTen[i]).toModel.unpack = .finite s m e hm := by
    intro i
    have hcheck : ∀ i : Fin 23,
        (match (Float.exactlyRepresentablePowersOfTen[i]).toModel.unpack with
          | .finite .. => true
          | _ => false) = true := by
      decide +kernel
    have hi := hcheck i
    split at hi
    · rename_i hfinite
      exact ⟨_, _, _, _, hfinite⟩
    · cases hi
  have hpack : ∀ {x : UnpackedFloat}, x.isNaN = false → (Float.ofModel (.pack x)).isNaN = false :=
    isNaN_unpack_pack Format.binary64
  have hdigits : m.toUInt64.toFloat.isNaN = false := hpack (isNaN_ofNat ..)
  have hnumber : (Float.ofScientific m s e).isNaN = false := by
    unfold Float.ofScientific
    split
    · rename_i h
      obtain ⟨s, m, e, hm, hpower⟩ := hpowers ⟨e, by omega⟩
      dsimp only
      split
      · refine hpack ?_
        have := isNaN_div Format.binary64 hdigits s m e hm
        rwa [← hpower] at this
      · refine hpack ?_
        have := isNaN_mul Format.binary64 hdigits s m e hm
        rwa [← hpower] at this
    · exact hpack (isNaN_ofScientific ..)
  rw [Float.isNaN_eq_decide_eq_nan, decide_eq_false_iff_not] at hnumber
  exact Float.beq_iff_ne_nan_and_eq.2 ⟨hnumber, hnumber, .inl rfl⟩

end RowFormula.Number
