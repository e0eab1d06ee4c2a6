/-
# Rounding to decimal places

Rounding at a number of places scales by a power of ten.  Only the number of places is looked at
before: from three hundred on the number stays as it is, and from minus three hundred on nothing
but zero is left.  Between these the division that is part of the way never overflows, but the
multiplication does, exactly if its exact product is not below `roundingLimit`.  So a finite number
may be rounded to an infinity, by an early multiplication or by the one that scales back.
-/

import RowFormula.Catalog
import RowFormula.Proofs.ExactArithmetic
import RowFormula.Proofs.Overflow
import RowFormula.Proofs.Substrings

namespace RowFormula

/-! ### Rounding to whole numbers -/

namespace Number

open Float.Model.UnpackedFloat

variable {n last steps fuel : ℕ} {x p base result : Float}
  {up : Bool → ℕ → ℕ → ℕ → Bool}

theorem Dyadic.ofFloat_of_unpack {m : ℕ} {q : ℤ} {b : Bool} {hm : 0 < m}
    (hfinite : x.isFinite = true)
    (h : x.toModel.unpack = .finite (if b then .negative else .positive) m q hm) :
    ofFloat x = ⟨b, m, q⟩ := by
  obtain ⟨-, hunpack⟩ | ⟨hc, hunpack⟩ := unpack_ofFloat hfinite
  · rw [h] at hunpack
    cases hunpack
  · rw [h] at hunpack
    injection hunpack with hsign hmantissa hexponent
    rw [hmantissa, hexponent]
    generalize ofFloat x = d at hsign ⊢
    obtain ⟨negative, m', q'⟩ := d
    cases b <;> cases negative <;> first | rfl | cases hsign

/-- A whole number that fits is stored with its value. -/
theorem Dyadic.toFloat_ofNat_spec (b : Bool) (hlt : n < 2 ^ 53) :
    (ofNat b n).toFloat.isFinite = true ∧
      exactValue (ofNat b n).toFloat = if b then -(n : ℚ) else n := by
  obtain rfl | hpos := Nat.eq_zero_or_pos n
  · rw [Nat.cast_zero, neg_zero, ite_self]
    cases b <;> exact ⟨rfl, rfl⟩
  · obtain ⟨m, q, hc, hvalue⟩ := exists_isCanonical hpos hlt.le
    have hx := isFinite_stored (s := if b then .negative else .positive) hc
    have hstored := ofFloat_of_unpack hx (unpack_stored _ hc)
    have hexact := exactValue_ofFloat hx
    have hback := @toFloat_ofNat n (stored (if b then .negative else .positive) hc)
    rw [hstored] at hback hexact
    rw [hback hc hvalue hpos hlt]
    exact ⟨hx, by rw [hexact, hvalue]⟩

theorem Dyadic.split_lt (hfinite : x.isFinite = true) (h : ¬ 0 ≤ (ofFloat x).exponent) :
    (ofFloat x).split.1 < 2 ^ 52 := by
  have hmantissa : (ofFloat x).mantissa < 2 ^ 53 := by
    obtain ⟨hzero, -⟩ | ⟨hc, -⟩ := unpack_ofFloat hfinite
    · rw [hzero]
      exact Nat.two_pow_pos 53
    · exact hc.lt
  have htwo : 2 ^ 1 ≤ twoTo (-(ofFloat x).exponent).toNat :=
    Nat.pow_le_pow_right two_pos (by omega)
  rw [split, if_neg h]
  refine Nat.div_lt_of_lt_mul (hmantissa.trans_le ?_)
  calc
    2 ^ 53 = 2 ^ 1 * 2 ^ 52 := rfl
    _ ≤ twoTo (-(ofFloat x).exponent).toNat * 2 ^ 52 := Nat.mul_le_mul_right _ htwo

/-- Rounding to whole numbers does not lead out of the finite numbers. -/
theorem isFinite_roundBy (h : x.isFinite = true) : (roundBy up x).isFinite = true := by
  rw [roundBy, if_pos h]
  dsimp only
  split
  · exact h
  · rename_i hexponent
    have hwhole := Dyadic.split_lt h hexponent
    refine (Dyadic.toFloat_ofNat_spec _ ?_).1
    split <;> omega

theorem IsInfinite.roundBy (h : IsInfinite x) : roundBy up x = x := by
  rw [Number.roundBy, h.not_isFinite, if_neg Bool.false_ne_true]

/-- Cutting off the fraction leaves the whole part. -/
theorem exactValue_trunc (h : x.isFinite = true) :
    exactValue (trunc x) = wholePart (exactValue x) := by
  rw [exactValue_ofFloat h, wholePart_signed (by positivity), trunc, roundBy, if_pos h]
  dsimp only
  split
  · rename_i hexponent
    obtain ⟨k, hk⟩ := Int.eq_ofNat_of_zero_le hexponent
    have hinteger : ((Dyadic.ofFloat x).mantissa : ℚ) * 2 ^ (Dyadic.ofFloat x).exponent =
        ((Dyadic.ofFloat x).mantissa * 2 ^ k : ℕ) := by
      rw [hk, zpow_natCast]
      push_cast
      rfl
    rw [exactValue_ofFloat h, hinteger, Int.floor_natCast]
    push_cast
    rfl
  · rename_i hexponent
    have hwhole := Dyadic.split_lt h hexponent
    simp only [Bool.false_eq_true, if_false]
    rw [(Dyadic.toFloat_ofNat_spec _ (by omega)).2, ← Dyadic.split_fst]
    push_cast
    rfl

/-! ### Powers of ten -/

/-- Tests what repeated squaring gives for all exponents up to the last one, and computes the
squares and the products that they have in common only once. -/
def powersPass (test : Float → Bool) : (steps last : ℕ) → (base result : Float) → Bool
  | 0, last, _, result => last == 0 && test result
  | steps + 1, last, base, result =>
    if last = 0 then test result
    else powersPass test steps (last / 2) (base * base) result &&
      powersPass test steps ((last - 1) / 2) (base * base) (result * base)

variable {test : Float → Bool}

theorem powersPass_self (h : powersPass test steps last base result = true) :
    test result = true := by
  induction steps generalizing last base with
  | zero =>
      rw [powersPass, Bool.and_eq_true] at h
      exact h.2
  | succ steps ih =>
      rw [powersPass] at h
      split at h
      · exact h
      · rw [Bool.and_eq_true] at h
        exact ih h.1

theorem powersPass_powerBySquaring (h : powersPass test steps last base result = true)
    (hn : n ≤ last) : test (powerBySquaring fuel n base result) = true := by
  induction fuel generalizing steps last n base result with
  | zero => exact powersPass_self h
  | succ fuel ih =>
      obtain rfl | hlast := Nat.eq_zero_or_pos last
      · obtain rfl := Nat.le_zero.1 hn
        exact powersPass_self h
      · cases steps with
        | zero =>
            rw [powersPass, beq_false_of_ne hlast.ne', Bool.false_and] at h
            cases h
        | succ steps =>
            rw [powersPass, if_neg hlast.ne', Bool.and_eq_true] at h
            obtain heven | hodd := Nat.mod_two_eq_zero_or_one n
            · have hbit : n % 2 ≠ 1 := by omega
              simp only [powerBySquaring, hbit, if_false]
              split
              · exact powersPass_self h.1
              · exact ih h.1 (by omega)
            · simp only [powerBySquaring, hodd, if_true]
              split
              · exact powersPass_self h.2
              · exact ih h.2 (by omega)

/-- The powers that rounding scales by are finite and not below one. -/
theorem powerOfTen_bounds (hn : n < 300) :
    (powerOfTen n).isFinite = true ∧ 1 ≤ exactValue (powerOfTen n) := by
  have hpass : powersPass (fun x => x.isFinite && 1.0 ≤ x) 9 299 10.0 1.0 = true := by
    decide +kernel
  have hpower := @powersPass_powerBySquaring n 299 9 (n + 1) _ _ _ hpass (Nat.le_of_lt_succ hn)
  rw [Bool.and_eq_true, decide_eq_true_iff, le_iff, isNatural_one.2, Nat.cast_one] at hpower
  exact hpower.imp_right fun h => h.2.2

/-! ### Scaling -/

theorem wholePart_intCast (k : ℤ) : wholePart k = k := by
  unfold wholePart
  split
  · exact Int.floor_intCast k
  · exact Int.ceil_intCast k

theorem isNatural_maxPlaces : IsNatural 300 maxPlaces := by
  have hc : IsCanonical (300 * 2 ^ 44) (-44) :=
    ⟨by decide, by decide, by decide, by decide, .inl (by decide)⟩
  rw [← stored_of_unpack (x := maxPlaces) (s := .positive) hc rfl]
  exact isNatural_stored hc (by norm_num)

theorem isNaN_trunc (h : p.isFinite = true) : (trunc p).isNaN = false :=
  isNaN_of_isFinite (isFinite_roundBy h)

/-- The places that are left when the fraction is cut off, as `roundToPlaces` compares them. -/
theorem trunc_compare (h : p.isFinite = true) :
    (trunc p ≥ maxPlaces ↔ 300 ≤ wholePart (exactValue p)) ∧
      (trunc p ≤ -maxPlaces ↔ wholePart (exactValue p) ≤ -300) ∧
      (trunc p ≥ 0.0 ↔ 0 ≤ wholePart (exactValue p)) := by
  rw [ge_iff_le, ge_iff_le, isNatural_maxPlaces.le_iff, isNatural_zero.le_iff, le_iff, isNaN_neg,
    isNatural_maxPlaces.isNaN, exactValue_neg, isNatural_maxPlaces.2, exactValue_trunc h,
    isNaN_trunc h]
  refine ⟨(and_iff_right rfl).trans ?_, ?_, (and_iff_right rfl).trans ?_⟩
  · exact_mod_cast Iff.rfl
  · rw [and_iff_right rfl, and_iff_right rfl]
    exact_mod_cast Iff.rfl
  · exact_mod_cast Iff.rfl

theorem toInt64_trunc (h : p.isFinite = true) (hlow : -300 < wholePart (exactValue p))
    (hhigh : wholePart (exactValue p) < 300) : toInt64 (trunc p) = wholePart (exactValue p) := by
  rw [toInt64_eq (isNaN_trunc h), exactValue_trunc h, wholePart_intCast]
  refine clampInt64_of_mem ?_ ?_
  · unfold minInt64
    omega
  · unfold maxInt64
    omega

/-- Rounding `x` at `d` places overflows: a product on the way is not below the limit. -/
def ScalesOut (rounding : Float → Float) (x : Float) (d : ℤ) : Prop :=
  (0 ≤ d ∧ d < 300 ∧
    roundingLimit ≤ |exactValue x * exactValue (powerOfTen d.natAbs)|) ∨
  (-300 < d ∧ d < 0 ∧
    roundingLimit ≤ |exactValue (rounding (x / powerOfTen d.natAbs)) *
      exactValue (powerOfTen d.natAbs)|)

/-- Finitely many places are compared and cut as whole numbers. -/
theorem roundToPlaces_some {rounding : Float → Float} (hx : x.isFinite = true)
    (hp : p.isFinite = true) :
    roundToPlaces rounding x (some p) =
      if 300 ≤ wholePart (exactValue p) then x
      else if wholePart (exactValue p) ≤ -300 then rounding 0.0 * signum x
      else if 0 ≤ wholePart (exactValue p) then
        rounding (x * powerOfTen (wholePart (exactValue p)).natAbs) /
          powerOfTen (wholePart (exactValue p)).natAbs
      else rounding (x / powerOfTen (wholePart (exactValue p)).natAbs) *
        powerOfTen (wholePart (exactValue p)).natAbs := by
  obtain ⟨hmany, hfew, hsign⟩ := trunc_compare hp
  rw [roundToPlaces, isNaN_of_isFinite hp, beq_of_isInfinite hp (.inl rfl),
    beq_of_isInfinite hp (.inr rfl)]
  simp only [Bool.false_eq_true, if_false, hx, Bool.not_true, Bool.false_or, decide_eq_true_eq,
    hmany, hfew, hsign]
  split
  · rfl
  · split
    · rfl
    · rw [toInt64_trunc hp (by omega) (by omega)]

theorem abs_exactValue_signum (h : x.isFinite = true) :
    (signum x).isFinite = true ∧ |exactValue (signum x)| = 1 := by
  rw [signum, isNaN_of_isFinite h, if_neg Bool.false_ne_true]
  split
  · refine ⟨by decide, ?_⟩
    rw [exactValue_neg, abs_neg, isNatural_one.2]
    norm_num
  · refine ⟨by decide, ?_⟩
    rw [isNatural_one.2]
    norm_num

/-- Rounding a finite number at finitely many places gives a finite number, unless a product on
the way is not below the limit; then it gives an infinity. -/
theorem isFinite_roundToPlaces (hx : x.isFinite = true) (hp : p.isFinite = true) :
    (¬ ScalesOut (roundBy up) x (wholePart (exactValue p)) →
      (roundToPlaces (roundBy up) x (some p)).isFinite = true) ∧
    (ScalesOut (roundBy up) x (wholePart (exactValue p)) →
      IsInfinite (roundToPlaces (roundBy up) x (some p))) := by
  rw [roundToPlaces_some hx hp]
  generalize wholePart (exactValue p) = d
  unfold ScalesOut
  split
  · exact ⟨fun _ => hx, fun h => absurd h (by omega)⟩
  · split
    · refine ⟨fun _ => ?_, fun h => absurd h (by omega)⟩
      obtain ⟨hfinite, hone⟩ := abs_exactValue_signum hx
      have hzero : (roundBy up 0.0).isFinite = true := isFinite_roundBy isNatural_zero.1
      have hproduct := isFinite_mul hzero hfinite
      rwa [abs_mul, hone, mul_one, if_pos (abs_exactValue_lt_limit hzero)] at hproduct
    · obtain ⟨hpower, hone⟩ := powerOfTen_bounds (n := d.natAbs) (by omega)
      split
      · rename_i hsign
        have hproduct := isFinite_mul hx hpower
        constructor
        · intro h
          rw [if_pos (by by_contra hle; exact h (.inl ⟨hsign, by omega, not_lt.1 hle⟩))] at hproduct
          exact isFinite_div_of_one_le (isFinite_roundBy hproduct) hpower hone
        · rintro (⟨-, -, hle⟩ | ⟨-, hnegative, -⟩)
          · rw [if_neg (not_lt.2 hle)] at hproduct
            rw [hproduct.roundBy]
            exact hproduct.div hpower (zero_lt_one.trans_le hone).ne'
          · omega
      · rename_i hsign
        have hquotient : (roundBy up (x / powerOfTen d.natAbs)).isFinite = true :=
          isFinite_roundBy (isFinite_div_of_one_le hx hpower hone)
        have hproduct := isFinite_mul hquotient hpower
        constructor
        · intro h
          rwa [if_pos (by by_contra hle; exact h (.inr ⟨by omega, by omega, not_lt.1 hle⟩))]
            at hproduct
        · rintro (⟨hpositive, -, -⟩ | ⟨-, -, hle⟩)
          · omega
          · rwa [if_neg (not_lt.2 hle)] at hproduct

end Number

/-! ### The functions -/

namespace Catalog

open Number

variable {v w : Value} {name : String} {mode : Float → Float}

/-- The names of the rounding functions with their ways of rounding. -/
def roundingModes : List (String × (Float → Float)) :=
  [("round", Number.round), ("rint", roundEven), ("floor", Number.floor), ("ceil", Number.ceil)]

theorem mem_functions_of_rounding {f : Function} (hf : f ∈ rounding) : f ∈ functions := by
  simp only [functions, List.mem_append]
  tauto

/-- Each way of rounding rounds magnitudes to whole numbers. -/
theorem exists_roundBy (hmode : (name, mode) ∈ roundingModes) :
    (∃ description, roundingFunction name description mode ∈ functions) ∧
      ∃ up, mode = roundBy up := by
  simp only [roundingModes, List.mem_cons, List.not_mem_nil, or_false, Prod.mk.injEq] at hmode
  obtain ⟨rfl, rfl⟩ | ⟨rfl, rfl⟩ | ⟨rfl, rfl⟩ | ⟨rfl, rfl⟩ := hmode
  · exact ⟨⟨_, mem_functions_of_rounding (List.mem_of_getElem? (i := 0) rfl)⟩, _, rfl⟩
  · exact ⟨⟨_, mem_functions_of_rounding (List.mem_of_getElem? (i := 1) rfl)⟩, _, rfl⟩
  · exact ⟨⟨_, mem_functions_of_rounding (List.mem_of_getElem? (i := 2) rfl)⟩, _, rfl⟩
  · exact ⟨⟨_, mem_functions_of_rounding (List.mem_of_getElem? (i := 3) rfl)⟩, _, rfl⟩

theorem answers_rounding (hmode : (name, mode) ∈ roundingModes)
    (hv : v.kind.isNumeric = true) (hw : w.kind.isNumeric = true) :
    Answers name [v, w] .double (.double (roundToPlaces mode v.toNumber (some w.toNumber))) := by
  obtain ⟨⟨description, hf⟩, -⟩ := exists_roundBy hmode
  refine answers_of_mem hf ?_ (fun request hrequest => ?_) fun call hcall => ?_
  · show (Signature.optionalAfter 1 [.numeric, .numeric]).Accepts [v.kind, w.kind]
    generalize v.kind = k at hv
    generalize w.kind = l at hw
    revert hv hw
    cases k <;> cases l <;> decide
  · have hlength : request.args.length = 2 := by
      simpa using congrArg List.length hrequest
    show Except.ok (if request.args.length ≤ 1 then Kind.integer else .double) = _
    rw [hlength]
    rfl
  · show pure (Value.number call.resultKind _) = _
    rw [hcall]
    rfl

/-- Rounding a finite number at finitely many places gives a number that is finite, unless scaling
by a power of ten leads beyond the limit on the way.  Then it gives an infinity. -/
theorem rounding_finite_iff (hmode : (name, mode) ∈ roundingModes)
    (hv : v.kind.isNumeric = true) (hw : w.kind.isNumeric = true)
    (hx : v.toNumber.isFinite = true) (hp : w.toNumber.isFinite = true) :
    ∃ y, Answers name [v, w] .double (.double y) ∧
      (y.isFinite = true ↔ ¬ ScalesOut mode v.toNumber (wholePart (exactValue w.toNumber))) ∧
      (y.isFinite = true ∨ IsInfinite y) := by
  obtain ⟨-, up, rfl⟩ := exists_roundBy hmode
  obtain ⟨hin, hout⟩ := @isFinite_roundToPlaces _ _ up hx hp
  refine ⟨_, answers_rounding hmode hv hw, ⟨fun h hscales => ?_, hin⟩, ?_⟩
  · rw [(hout hscales).not_isFinite] at h
    cases h
  · by_cases hscales : ScalesOut (roundBy up) v.toNumber (wholePart (exactValue w.toNumber))
    · exact .inr (hout hscales)
    · exact .inl (hin hscales)

theorem rounding_finite_of_one_place :
    (∃ mode, ("round", mode) ∈ roundingModes) ∧ (1.0 : Float).isFinite = true ∧
      ∃ y, Answers "round" [.double 1.0, .integer 1.0] .double (.double y) ∧
        y.isFinite = true := by
  have hmode : ("round", Number.round) ∈ roundingModes := List.mem_cons_self
  obtain ⟨y, hanswers, hiff, -⟩ := rounding_finite_iff (v := .double 1.0) (w := .integer 1.0)
    hmode rfl rfl isNatural_one.1 isNatural_one.1
  refine ⟨⟨_, hmode⟩, isNatural_one.1, y, hanswers, hiff.2 ?_⟩
  have hplaces : wholePart (exactValue (Value.integer 1.0).toNumber) = 1 := by
    show wholePart (exactValue 1.0) = 1
    rw [isNatural_one.2]
    exact wholePart_intCast 1
  rw [hplaces]
  rintro (⟨-, -, hle⟩ | ⟨-, hnegative, -⟩)
  · change roundingLimit ≤ |exactValue 1.0 * exactValue (powerOfTen 1)| at hle
    rw [isNatural_one.2, Nat.cast_one, one_mul] at hle
    exact absurd hle (not_le.2 (abs_exactValue_lt_limit (powerOfTen_bounds (by decide)).1))
  · exact absurd hnegative (by decide)

/-- Both products overflow for some finite numbers: the early one, which leaves the number as it
is when it does not, and the one that scales back, when the number was rounded away from zero. -/
theorem rounding_overflows :
    (1e300 : Float).isFinite = true ∧ (1.7976931348623157e308 : Float).isFinite = true ∧
      Answers "round" [.double 1e300, .integer 20.0] .double (.double infinity) ∧
      Answers "ceil" [.double 1.7976931348623157e308, .integer (-299.0)] .double
        (.double infinity) := by
  have hearly : roundToPlaces Number.round 1e300 (some 20.0) = infinity := by decide +kernel
  have hback : roundToPlaces Number.ceil 1.7976931348623157e308 (some (-299.0)) = infinity := by
    decide +kernel
  refine ⟨by decide +kernel, by decide +kernel, hearly ▸ ?_, hback ▸ ?_⟩
  · exact answers_rounding (v := .double 1e300) (w := .integer 20.0)
      (List.mem_of_getElem? (i := 0) rfl) rfl rfl
  · exact answers_rounding (v := .double 1.7976931348623157e308) (w := .integer (-299.0))
      (List.mem_of_getElem? (i := 3) rfl) rfl rfl

end Catalog

end RowFormula
