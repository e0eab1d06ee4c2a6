/-
# How numbers are stored

A finite number other than zero has exactly one form `± m · 2 ^ q` in which it is stored, and
storing a number in this form loses nothing.  The exact fraction that a number is taken apart
into is this form.
-/

import RowFormula.Number.Dyadic
import RowFormula.Proofs.Missing
import RowFormula.Proofs.Rounding

namespace RowFormula.Number

open Float.Model (Format UnpackedFloat)
open Float.Model.UnpackedFloat

variable {m : ℕ} {q : ℤ} {x : Float}

/-! ### Packing -/

/-- A number in its stored form is packed without loss. -/
theorem unpack_pack_finite (s : Sign) (hc : IsCanonical m q) :
    unpack Format.binary64 (pack Format.binary64 (.finite s m q hc.pos)) =
      .finite s m q hc.pos := by
  obtain ⟨hpos, hlt, hmin, hmax, hnormal⟩ := hc
  have hsmall : ¬ 2048 ≤ (q + 1023 + 52).toNat + 1 := by omega
  have hexponent : (BitVec.ofNat 11 (q + 1023 + 52).toNat).toNat = (q + 1075).toNat := by
    rw [BitVec.toNat_ofNat, Nat.mod_eq_of_lt (by omega)]
    omega
  have hpack : pack Format.binary64 (.finite s m q hpos) =
      if m.log2 + 1 = 53 then
        packComponents Format.binary64 s (BitVec.ofNat 11 (q + 1023 + 52).toNat) (BitVec.ofNat 52 m)
      else packComponents Format.binary64 s 0#11 (BitVec.ofNat 52 m) := if_neg hsmall
  rw [hpack]
  by_cases hlarge : 2 ^ 52 ≤ m
  · have hlog : m.log2 = 52 := (Nat.log2_eq_iff hpos.ne').2 ⟨hlarge, hlt⟩
    rw [if_pos (by omega), unpack]
    simp only [unpackExponent_packComponents, unpackMantissa_packComponents,
      unpackSign_packComponents, Sign.ofBitVec_toBitVec]
    rw [if_neg, if_neg, UnpackedFloat.finite.injEq, hexponent]
    · refine ⟨rfl, ?_, ?_⟩
      · have hrest : m % 2 ^ 52 < 2 ^ 52 := Nat.mod_lt m (Nat.two_pow_pos 52)
        have hjoin := Nat.two_pow_add_eq_or_of_lt hrest 1
        rw [BitVec.toNat_append, BitVec.toNat_ofNat, BitVec.toNat_ofNat, Nat.shiftLeft_eq,
          Nat.mul_comm]
        exact hjoin.symm.trans (by omega)
      · show ((q + 1075).toNat : Int) - (1023 + 52) = q
        omega
    · intro hzero
      have := congrArg BitVec.toNat hzero
      rw [hexponent] at this
      change (q + 1075).toNat = 0 at this
      omega
    · intro hones
      have := congrArg BitVec.toNat hones
      rw [hexponent] at this
      change (q + 1075).toNat = 2047 at this
      omega
  · have hq : q = -1074 := hnormal.resolve_left hlarge
    have hlog : m.log2 < 52 := (Nat.log2_lt hpos.ne').2 (by omega)
    have hmantissa : (BitVec.ofNat 52 m).toNat = m := by
      rw [BitVec.toNat_ofNat, Nat.mod_eq_of_lt (by omega)]
    have hne : BitVec.ofNat 52 m ≠ 0#52 := by
      intro hzero
      have := congrArg BitVec.toNat hzero
      rw [hmantissa] at this
      exact hpos.ne' this
    rw [if_neg (by omega), unpack]
    simp only [unpackExponent_packComponents, unpackMantissa_packComponents,
      unpackSign_packComponents, Sign.ofBitVec_toBitVec]
    rw [if_neg (by decide), if_pos trivial, dif_neg hne, UnpackedFloat.finite.injEq]
    exact ⟨rfl, hmantissa, hq.symm⟩

theorem ofModel_pack_unpack (x : Float) : Float.ofModel (.pack x.toModel.unpack) = x := by
  have hbits : pack Format.binary64 x.toModel.unpack = x.toBits.toBitVec :=
    pack_unpack_of_valid x.toModel.valid
  refine Float.toBits_inj.1 (UInt64.toBitVec_inj.1 ?_)
  exact hbits

/-- A number that is too large becomes an infinity. -/
theorem ofModel_pack_of_large (s : Sign) (hpos : 0 < m) (hlarge : 971 < q) :
    Float.ofModel (.pack (.finite s m q hpos)) = .ofModel (.pack (.infinity s)) := by
  have hpack : pack Format.binary64 (.finite s m q hpos) = packedInfinity Format.binary64 s :=
    if_pos (show 2048 ≤ (q + 1023 + 52).toNat + 1 by omega)
  exact Float.toBits_inj.1 (UInt64.toBitVec_inj.1 hpack)

/-- The number `± m · 2 ^ q`. -/
def stored (s : Sign) (hc : IsCanonical m q) : Float :=
  .ofModel (.pack (.finite s m q hc.pos))

theorem unpack_stored (s : Sign) (hc : IsCanonical m q) :
    (stored s hc).toModel.unpack = .finite s m q hc.pos :=
  unpack_pack_finite s hc

theorem stored_of_unpack {s : Sign} (hc : IsCanonical m q)
    (h : x.toModel.unpack = .finite s m q hc.pos) : stored s hc = x := by
  rw [stored, ← h, ofModel_pack_unpack]

theorem neg_stored (s : Sign) (hc : IsCanonical m q) : -stored s hc = stored (-s) hc := by
  show Float.ofModel (.pack (stored s hc).toModel.unpack.neg) = _
  rw [unpack_stored]
  rfl

/-! ### Taking apart -/

/-- The sign of an exact fraction. -/
def Dyadic.sign (d : Dyadic) : Sign :=
  if d.negative then .negative else .positive

theorem toNat_unpackMantissa (b : BitVec 64) :
    (@unpackMantissa Format.binary64 b).toNat = b.toNat % twoTo 52 := by
  rw [unpackMantissa_def, BitVec.extractLsb'_toNat, Nat.shiftRight_zero]
  rfl

theorem toNat_unpackExponent (b : BitVec 64) :
    (@unpackExponent Format.binary64 b).toNat = b.toNat / twoTo 52 % twoTo 11 := by
  rw [unpackExponent_def, BitVec.extractLsb'_toNat, Nat.shiftRight_eq_div_pow]
  rfl

theorem ofBitVec_unpackSign (b : BitVec 64) :
    Sign.ofBitVec (@unpackSign Format.binary64 b) =
      if b.toNat / twoTo 63 == 1 then .negative else .positive := by
  have htop : (@unpackSign Format.binary64 b).toNat = b.toNat / 2 ^ 63 := by
    rw [unpackSign_def, BitVec.extractLsb'_toNat, Nat.shiftRight_eq_div_pow]
    exact Nat.mod_eq_of_lt (Nat.div_lt_of_lt_mul b.isLt)
  rw [Sign.ofBitVec, show twoTo 63 = 2 ^ 63 from rfl, ← htop]
  generalize @unpackSign Format.binary64 b = top
  obtain rfl | rfl := BitVec.eq_zero_or_eq_one top
  · rfl
  · rfl

/-- A finite number is unpacked by its components: with the exponent zero it has no implicit
digit. -/
theorem unpack_of_isFinite {b : BitVec 64} (h : (unpack Format.binary64 b).isFinite = true) :
    let s := Sign.ofBitVec (@unpackSign Format.binary64 b)
    let e := (@unpackExponent Format.binary64 b).toNat
    let f := (@unpackMantissa Format.binary64 b).toNat
    e < 2047 ∧
      (e = 0 → f = 0 → unpack Format.binary64 b = .zero s) ∧
      (e = 0 → ∀ hf : 0 < f, unpack Format.binary64 b = .finite s f (-1074) hf) ∧
      (e ≠ 0 → ∀ hm : 0 < 2 ^ 52 + f,
        unpack Format.binary64 b = .finite s (2 ^ 52 + f) (e - 1075) hm) := by
  unfold unpack at h ⊢
  dsimp only at h ⊢
  have hones : @unpackExponent Format.binary64 b ≠ -1#11 := by
    intro heq
    rw [if_pos heq] at h
    split at h <;> cases h
  rw [if_neg hones]
  have hlt : (@unpackExponent Format.binary64 b).toNat < 2 ^ 11 :=
    (@unpackExponent Format.binary64 b).isLt
  refine ⟨?_, fun he hf => ?_, fun he hf => ?_, fun he hm => ?_⟩
  · refine Nat.lt_of_le_of_ne (by omega) fun heq => hones (BitVec.eq_of_toNat_eq heq)
  · rw [if_pos (BitVec.eq_of_toNat_eq he), dif_pos (BitVec.eq_of_toNat_eq hf)]
  · have hne : @unpackMantissa Format.binary64 b ≠ 0#52 := by
      intro heq
      rw [heq] at hf
      exact Nat.lt_irrefl 0 hf
    rw [if_pos (BitVec.eq_of_toNat_eq he), dif_neg hne, UnpackedFloat.finite.injEq]
    refine ⟨rfl, rfl, ?_⟩
    rw [he]
    rfl
  · have hne : @unpackExponent Format.binary64 b ≠ 0#11 := by
      intro heq
      exact he (congrArg BitVec.toNat heq)
    rw [if_neg hne, UnpackedFloat.finite.injEq]
    refine ⟨rfl, ?_, rfl⟩
    have hjoin := Nat.two_pow_add_eq_or_of_lt
      (@unpackMantissa Format.binary64 b).isLt 1
    rw [BitVec.toNat_append, Nat.shiftLeft_eq, Nat.mul_comm]
    exact hjoin.symm

/-- The exact fraction of a number is the form in which it is stored. -/
theorem unpack_ofFloat (h : x.isFinite = true) :
    ((Dyadic.ofFloat x).mantissa = 0 ∧ x.toModel.unpack = .zero (Dyadic.ofFloat x).sign) ∨
      ∃ hc : IsCanonical (Dyadic.ofFloat x).mantissa (Dyadic.ofFloat x).exponent,
        x.toModel.unpack = .finite (Dyadic.ofFloat x).sign (Dyadic.ofFloat x).mantissa
          (Dyadic.ofFloat x).exponent hc.pos := by
  obtain ⟨hmax, hzero, hsubnormal, hnormal⟩ := @unpack_of_isFinite x.toBits.toBitVec h
  have hfraction := (@unpackMantissa Format.binary64 x.toBits.toBitVec).isLt
  rw [ofBitVec_unpackSign, toNat_unpackExponent, toNat_unpackMantissa] at *
  change x.toBits.toBitVec.toNat % twoTo 52 < 2 ^ 52 at hfraction
  by_cases he : x.toBits.toBitVec.toNat / twoTo 52 % twoTo 11 = 0
  · have hd : Dyadic.ofFloat x = ⟨x.toBits.toBitVec.toNat / twoTo 63 == 1,
        x.toBits.toBitVec.toNat % twoTo 52, -1074⟩ := if_pos (beq_iff_eq.2 he)
    rw [hd]
    by_cases hf : x.toBits.toBitVec.toNat % twoTo 52 = 0
    · exact .inl ⟨hf, hzero he hf⟩
    · have hc : IsCanonical (x.toBits.toBitVec.toNat % twoTo 52) (-1074) :=
        ⟨Nat.pos_of_ne_zero hf, by omega, by omega, by omega, .inr rfl⟩
      exact .inr ⟨hc, hsubnormal he hc.pos⟩
  · have hd : Dyadic.ofFloat x = ⟨x.toBits.toBitVec.toNat / twoTo 63 == 1,
        2 ^ 52 + x.toBits.toBitVec.toNat % twoTo 52,
        (x.toBits.toBitVec.toNat / twoTo 52 % twoTo 11 : ℕ) - 1075⟩ :=
      if_neg (mt beq_iff_eq.1 he)
    rw [hd]
    have hc : IsCanonical (2 ^ 52 + x.toBits.toBitVec.toNat % twoTo 52)
        ((x.toBits.toBitVec.toNat / twoTo 52 % twoTo 11 : ℕ) - 1075) :=
      ⟨by omega, by omega, by omega, by omega, .inl (by omega)⟩
    exact .inr ⟨hc, hnormal he hc.pos⟩

end RowFormula.Number
