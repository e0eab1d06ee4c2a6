/-
# The order of texts

Texts are ordered by the difference of their code units, which is the difference of the first
units that differ, or else that of the lengths.  A text is determined by its units, because a
unit shows whether another one belongs to it; so the difference is zero for equal texts only, and
the order is total.  The comparisons of formulas and the function `compare` follow the same
difference.
-/

import Mathlib
import RowFormula.Catalog
import RowFormula.Proofs.WholeNumbers

namespace RowFormula

namespace Text

/-! ### Texts and their units -/

/-- A character has a unit of its own, or two that no other character has. -/
theorem unitsOf_cases (c : Char) :
    (unitsOf c = [c.toNat] ∧ (c.toNat < 0xD800 ∨ 0xDFFF < c.toNat ∧ c.toNat < 0x10000)) ∨
      ∃ high low, unitsOf c = [0xD800 + high, 0xDC00 + low] ∧ high < 0x400 ∧ low < 0x400 ∧
        c.toNat = 0x10000 + high * 0x400 + low := by
  have hvalid : c.toNat < 0xD800 ∨ 0xDFFF < c.toNat ∧ c.toNat < 0x110000 := c.valid
  unfold unitsOf
  split
  · exact .inl ⟨rfl, by omega⟩
  · refine .inr ⟨(c.toNat - 0x10000) / 0x400, (c.toNat - 0x10000) % 0x400, rfl, ?_, ?_, ?_⟩
    · omega
    · omega
    · omega

theorem unitsOf_append_inj {c d : Char} {us vs : List ℕ}
    (h : unitsOf c ++ us = unitsOf d ++ vs) : c = d ∧ us = vs := by
  have hchar : c.toNat = d.toNat → c = d := Char.toNat_inj.1
  obtain ⟨hc, hrange⟩ | ⟨high, low, hc, hhigh, hlow, hvalue⟩ := unitsOf_cases c <;>
    obtain ⟨hd, hrange'⟩ | ⟨high', low', hd, hhigh', hlow', hvalue'⟩ := unitsOf_cases d <;>
    simp only [hc, hd, List.cons_append, List.nil_append, List.cons.injEq] at h
  · exact ⟨hchar h.1, h.2⟩
  · omega
  · omega
  · exact ⟨hchar (by omega), h.2.2⟩

theorem unitsOf_ne_nil (c : Char) : unitsOf c ≠ [] := by
  unfold unitsOf
  split <;> exact List.cons_ne_nil _ _

/-- One text continues another exactly if its units do. -/
theorem units_prefix_iff {a b : String} : units a <+: units b ↔ a.toList <+: b.toList := by
  unfold units
  generalize a.toList = cs
  generalize b.toList = ds
  constructor
  · intro h
    induction cs generalizing ds with
    | nil => exact List.nil_prefix
    | cons c cs ih =>
        obtain ⟨us, hus⟩ := h
        rw [List.flatMap_cons, List.append_assoc] at hus
        cases ds with
        | nil => exact absurd (List.append_eq_nil_iff.1 hus).1 (unitsOf_ne_nil c)
        | cons d ds =>
            rw [List.flatMap_cons] at hus
            obtain ⟨rfl, hrest⟩ := unitsOf_append_inj hus
            exact (List.prefix_cons_inj c).2 (ih ds ⟨us, hrest⟩)
  · rintro ⟨es, rfl⟩
    rw [List.flatMap_append]
    exact List.prefix_append _ _

/-- A text is determined by its units. -/
theorem units_inj {a b : String} : units a = units b ↔ a = b := by
  refine ⟨fun h => String.toList_injective ?_, congrArg units⟩
  have hab := units_prefix_iff.1 (h ▸ List.prefix_rfl : units a <+: units b)
  have hba := units_prefix_iff.1 (h ▸ List.prefix_rfl : units b <+: units a)
  exact hab.eq_of_length (le_antisymm hab.length_le hba.length_le)

/-! ### Differences of units -/

section Units

variable {as bs cs : List ℕ}

theorem unitDifference_nil_left (bs : List ℕ) : unitDifference [] bs = -bs.length := by
  cases bs <;> rfl

theorem unitDifference_nil_right (as : List ℕ) : unitDifference as [] = as.length := by
  cases as <;> rfl

theorem unitDifference_cons (x : ℕ) (as bs : List ℕ) :
    unitDifference (x :: as) (x :: bs) = unitDifference as bs := if_pos rfl

theorem unitDifference_cons_of_ne {x y : ℕ} (h : x ≠ y) (as bs : List ℕ) :
    unitDifference (x :: as) (y :: bs) = x - y := if_neg h

/-- Induction over two lists of units in the steps of their comparison. -/
theorem units_induct {motive : List ℕ → List ℕ → Prop}
    (left : ∀ bs, motive [] bs) (right : ∀ as, motive as [])
    (same : ∀ x as bs, motive as bs → motive (x :: as) (x :: bs))
    (differ : ∀ x y as bs, x ≠ y → motive (x :: as) (y :: bs)) : ∀ as bs, motive as bs := by
  intro as
  induction as with
  | nil => exact left
  | cons x as ih =>
      intro bs
      cases bs with
      | nil => exact right _
      | cons y bs =>
          by_cases h : x = y
          · subst h
            exact same x as bs (ih bs)
          · exact differ x y as bs h

theorem unitDifference_swap (as bs : List ℕ) : unitDifference as bs = -unitDifference bs as := by
  induction as, bs using units_induct with
  | left bs => rw [unitDifference_nil_left, unitDifference_nil_right]
  | right as => rw [unitDifference_nil_left, unitDifference_nil_right, neg_neg]
  | same x as bs ih => rw [unitDifference_cons, unitDifference_cons, ih]
  | differ x y as bs h =>
      rw [unitDifference_cons_of_ne h, unitDifference_cons_of_ne h.symm]
      ring

theorem unitDifference_eq_zero_iff (as bs : List ℕ) : unitDifference as bs = 0 ↔ as = bs := by
  induction as, bs using units_induct with
  | left bs => rw [unitDifference_nil_left]; cases bs <;> simp; omega
  | right as => rw [unitDifference_nil_right]; cases as <;> simp; omega
  | same x as bs ih => rw [unitDifference_cons, ih, List.cons_inj_right]
  | differ x y as bs h =>
      rw [unitDifference_cons_of_ne h]
      refine iff_of_false (by omega) fun heq => h (List.cons.inj heq).1

/-- The difference is negative exactly in the lexicographic order. -/
theorem unitDifference_neg_iff (as bs : List ℕ) : unitDifference as bs < 0 ↔ as < bs := by
  induction as, bs using units_induct with
  | left bs =>
      rw [unitDifference_nil_left]
      cases bs <;> simp
      omega
  | right as =>
      rw [unitDifference_nil_right]
      simp
  | same x as bs ih => rw [unitDifference_cons, ih, List.cons_lt_cons_iff]; simp
  | differ x y as bs h =>
      rw [unitDifference_cons_of_ne h, List.cons_lt_cons_iff]
      simp [h]

/-- The difference is that of the first units that differ, or of the lengths if one list
continues the other. -/
theorem unitDifference_spec (as bs : List ℕ) :
    (∃ (pre : List ℕ) (x y : ℕ) (as' bs' : List ℕ),
      as = pre ++ x :: as' ∧ bs = pre ++ y :: bs' ∧ x ≠ y ∧
      unitDifference as bs = x - y) ∨
    ((as <+: bs ∨ bs <+: as) ∧ unitDifference as bs = as.length - bs.length) := by
  induction as, bs using units_induct with
  | left bs =>
      refine .inr ⟨.inl List.nil_prefix, ?_⟩
      rw [unitDifference_nil_left, List.length_nil]
      simp
  | right as =>
      refine .inr ⟨.inr List.nil_prefix, ?_⟩
      rw [unitDifference_nil_right, List.length_nil]
      simp
  | same x as bs ih =>
      rw [unitDifference_cons]
      obtain ⟨pre, y, z, as', bs', rfl, rfl, hne, hd⟩ | ⟨hfront, hd⟩ := ih
      · exact .inl ⟨x :: pre, y, z, as', bs', rfl, rfl, hne, hd⟩
      · refine .inr ⟨hfront.imp (List.prefix_cons_inj x).2 (List.prefix_cons_inj x).2, ?_⟩
        rw [hd, List.length_cons, List.length_cons]
        push_cast
        ring
  | differ x y as bs h =>
      exact .inl ⟨[], x, y, as, bs, rfl, rfl, h, unitDifference_cons_of_ne h as bs⟩

end Units

theorem difference_swap (a b : String) : difference a b = -difference b a :=
  unitDifference_swap _ _

theorem difference_eq_zero_iff {a b : String} : difference a b = 0 ↔ a = b :=
  (unitDifference_eq_zero_iff _ _).trans units_inj

end Text

/-! ### Comparisons -/

/-- The comparison holds between a whole number and zero. -/
def ComparisonOp.HoldsToZero (op : ComparisonOp) (n : ℤ) : Prop :=
  match op with
  | .eq => n = 0
  | .ne => n ≠ 0
  | .lt => n < 0
  | .le => n ≤ 0
  | .gt => 0 < n
  | .ge => 0 ≤ n

/-- A whole number is on exactly one side of zero, or zero itself. -/
theorem ComparisonOp.existsUnique_holdsToZero (n : ℤ) :
    ∃! op : ComparisonOp, op ∈ [.lt, .eq, .gt] ∧ op.HoldsToZero n := by
  have hunique : ∀ op op' : ComparisonOp, op ∈ [ComparisonOp.lt, .eq, .gt] ∧ op.HoldsToZero n →
      op' ∈ [ComparisonOp.lt, .eq, .gt] ∧ op'.HoldsToZero n → op = op' := by
    rintro op op' ⟨hmem, h⟩ ⟨hmem', h'⟩
    fin_cases hmem <;> fin_cases hmem' <;> simp only [HoldsToZero] at h h' <;> first | rfl | omega
  obtain hlt | heq | hgt := lt_trichotomy n 0
  · exact ⟨.lt, ⟨by decide, hlt⟩, fun op h => hunique _ _ h ⟨by decide, hlt⟩⟩
  · exact ⟨.eq, ⟨by decide, heq⟩, fun op h => hunique _ _ h ⟨by decide, heq⟩⟩
  · exact ⟨.gt, ⟨by decide, hgt⟩, fun op h => hunique _ _ h ⟨by decide, hgt⟩⟩

/-- Values whose order is that of a whole number to zero compare as this number does. -/
theorem Value.compare_iff_holdsToZero {v w : Value} {n : ℤ} (op : ComparisonOp)
    (horder : order? v w = some (Ord.compare n 0)) (hequals : v.equals w = true ↔ n = 0) :
    compare op v w = true ↔ op.HoldsToZero n := by
  have hlt : (Ord.compare n 0 == Ordering.lt) = true ↔ n < 0 := by
    rw [beq_iff_eq, compare_lt_iff_lt]
  have heq : (Ord.compare n 0 == Ordering.eq) = true ↔ n = 0 := by
    rw [beq_iff_eq, compare_eq_iff_eq]
  have hgt : (Ord.compare n 0 == Ordering.gt) = true ↔ 0 < n := by
    rw [beq_iff_eq, compare_gt_iff_gt]
  cases op with
  | eq => exact hequals
  | ne =>
      rw [compare, ComparisonOp.HoldsToZero, ne_eq, ← hequals, Bool.not_eq_true,
        Bool.not_eq_true']
  | lt =>
      simp only [compare, horder, Option.some_beq_some]
      exact hlt
  | le =>
      simp only [compare, horder, Option.some_beq_some, Bool.or_eq_true, hlt, heq]
      exact le_iff_lt_or_eq.symm
  | gt =>
      simp only [compare, horder, Option.some_beq_some]
      exact hgt
  | ge =>
      simp only [compare, horder, Option.some_beq_some, Bool.or_eq_true, hgt, heq]
      rw [ComparisonOp.HoldsToZero, le_iff_lt_or_eq, eq_comm]

namespace Text

variable {a b c : String}

/-- The comparison holds between two texts in a formula. -/
def Compares (op : ComparisonOp) (a b : String) : Prop :=
  Value.compare op (.ofString a) (.ofString b) = true

instance (op : ComparisonOp) (a b : String) : Decidable (Compares op a b) :=
  inferInstanceAs (Decidable (_ = true))

theorem compares_iff {op : ComparisonOp} : Compares op a b ↔ op.HoldsToZero (difference a b) := by
  refine Value.compare_iff_holdsToZero op rfl ?_
  rw [Value.equals_ofString_iff rfl, difference_eq_zero_iff]
  exact Option.some_inj

/-- The difference of two texts as a value. -/
def distance (a b : String) : Value :=
  .integer (Number.ofInt (difference a b))

/-- Exchanging two texts negates the value. -/
theorem distance_equals_neg (a b : String) :
    (distance a b).equals (Value.unary .neg (distance b a)) = true := by
  have hpresent : (distance a b).isMissing = false := Number.isNaN_ofInt _
  have hbeq : (Number.ofInt (difference a b) == -Number.ofInt (difference b a)) = true := by
    rw [difference_swap a b]
    exact Number.ofInt_neg _
  obtain ⟨-, hnan, -⟩ := Float.beq_iff_ne_nan_and_eq.1 hbeq
  have hneg : (-Number.ofInt (difference b a)).isNaN = false :=
    Bool.eq_false_iff.2 fun h => hnan ((Number.isNaN_iff.1 h).trans Number.nan_eq_nan)
  rw [Value.equals_of_present hpresent, Bool.and_eq_true, Bool.not_eq_true']
  exact ⟨hneg, hbeq⟩

/-- Two texts compare as their difference does to zero. -/
theorem compare_distance_iff {op : ComparisonOp} :
    Value.compare op (distance a b) (.integer 0.0) = true ↔ Compares op a b := by
  have hpresent : (distance a b).isMissing = false := Number.isNaN_ofInt _
  have hzero : (Value.integer 0.0).isMissing = false := by rfl
  rw [compares_iff]
  refine Value.compare_iff_holdsToZero op ?_ ?_
  · unfold Value.order?
    rw [hpresent, hzero, ← Number.orderNumbers_ofInt]
    rfl
  · rw [Value.equals_of_present hpresent, hzero]
    exact Number.ofInt_beq_zero_iff

/-- The order of texts is total, and comparisons follow the sign of the difference.  This is the
difference of the first units that differ, or of the lengths if one text continues the other.
The function `compare` returns it, and comparing the result with zero is comparing the texts. -/
theorem order_total (a b c : String) :
    (difference a b = -difference b a ∧ (difference a b = 0 ↔ a = b) ∧
      (Compares .lt a b → Compares .lt b c → Compares .lt a c)) ∧
    ((∀ op, Compares op a b ↔ op.HoldsToZero (difference a b)) ∧
      (∃! op, op ∈ [ComparisonOp.lt, .eq, .gt] ∧ Compares op a b) ∧
      (Compares .le a b ↔ Compares .lt a b ∨ Compares .eq a b) ∧
      (Compares .ge a b ↔ Compares .gt a b ∨ Compares .eq a b)) ∧
    ((∃ (pre : List ℕ) (x y : ℕ) (as bs : List ℕ), units a = pre ++ x :: as ∧
        units b = pre ++ y :: bs ∧ x ≠ y ∧ difference a b = x - y) ∨
      ((a.toList <+: b.toList ∨ b.toList <+: a.toList) ∧
        difference a b = (units a).length - (units b).length)) ∧
    ((∃ f, Catalog.registry.get? "compare" = some f ∧
        ∀ call, f.body call [.ofString a, .ofString b] = pure (distance a b)) ∧
      (distance a b).equals (Value.unary .neg (distance b a)) = true ∧
      ∀ op, Value.compare op (distance a b) (.integer 0.0) = true ↔ Compares op a b) := by
  refine ⟨⟨difference_swap a b, difference_eq_zero_iff, ?_⟩,
    ⟨fun _ => compares_iff, ?_, ?_, ?_⟩, ?_,
    ⟨⟨_, rfl, fun _ => rfl⟩, distance_equals_neg a b, fun _ => compare_distance_iff⟩⟩
  · -- The order is the lexicographic one of the units.
    intro hab hbc
    rw [compares_iff] at *
    exact (unitDifference_neg_iff _ _).2
      (lt_trans ((unitDifference_neg_iff _ _).1 hab) ((unitDifference_neg_iff _ _).1 hbc))
  · simp only [compares_iff]
    exact ComparisonOp.existsUnique_holdsToZero _
  · rw [compares_iff, compares_iff, compares_iff]
    exact le_iff_lt_or_eq
  · rw [compares_iff, compares_iff, compares_iff]
    exact le_iff_lt_or_eq.trans (or_congr_right eq_comm)
  · simp only [← units_prefix_iff]
    exact unitDifference_spec _ _

/-- A character beyond the basic plane comes before the last ones in it, and a text comes before
what continues it. -/
theorem order_total_of_planes :
    (Compares .lt "😀" "￥" ∧ Compares .lt "￥" "￥10" ∧ Compares .lt "😀" "￥10") ∧
      difference "￥10" "￥" = 2 ∧ difference "￥" "￥10" = -2 := by
  have hplane : Compares .lt "😀" "￥" := by decide
  have hfront : Compares .lt "￥" "￥10" := by decide
  obtain ⟨⟨-, -, htrans⟩, -⟩ := order_total "😀" "￥" "￥10"
  obtain ⟨⟨hswap, -⟩, -⟩ := order_total "￥" "￥10" "￥"
  have hdifference : difference "￥10" "￥" = 2 := by decide
  exact ⟨⟨hplane, hfront, htrans hplane hfront⟩, hdifference, hdifference ▸ hswap⟩

end Text

end RowFormula
