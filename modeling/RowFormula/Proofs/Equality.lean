/-
# Laws of equality

Equality as formulas write it compares values of different kinds through a common form, so
that it has one case for every pair of kinds.  It is reflexive and symmetric, and transitive
within a category; across categories it cannot be, as the truth value `true` is equal to all
numbers but zero.  A text is equal to exactly the present values that a concatenation would
write as this text.
-/

import Mathlib
import RowFormula.Proofs.Missing
import RowFormula.Value.Compare

namespace RowFormula

namespace Kind

theorem sameCategory_iff {k l : Kind} :
    k.sameCategory l = true ↔ k = l ∨ (k.isNumeric = true ∧ l.isNumeric = true) := by
  rw [sameCategory, Bool.or_eq_true, Bool.and_eq_true, beq_iff_eq]

theorem sameCategory_self (k : Kind) : k.sameCategory k = true :=
  sameCategory_iff.2 (.inl rfl)

theorem sameCategory_comm (k l : Kind) : k.sameCategory l = l.sameCategory k := by
  rw [Bool.eq_iff_iff, sameCategory_iff, sameCategory_iff, eq_comm, and_comm]

theorem sameCategory_trans {k l m : Kind} (h : k.sameCategory l = true)
    (h' : l.sameCategory m = true) : k.sameCategory m = true := by
  obtain rfl | ⟨hk, -⟩ := sameCategory_iff.1 h
  · exact h'
  · obtain rfl | ⟨-, hm⟩ := sameCategory_iff.1 h'
    · exact h
    · exact sameCategory_iff.2 (.inr ⟨hk, hm⟩)

end Kind

namespace Number

/-- Every number but the missing one has a text. -/
theorem exists_minimalText? {x : Float} (h : x.isNaN = false) : ∃ t, minimalText? x = some t := by
  rw [minimalText?, h, if_neg Bool.false_ne_true]
  split
  · exact ⟨_, rfl⟩
  · exact ⟨_, rfl⟩

theorem beq_self {x : Float} (h : x.isNaN = false) : (x == x) = true := by
  rw [Float.beq_self_iff]
  rintro rfl
  rw [← nan_eq_nan, isNaN_nan] at h
  cases h

end Number

namespace Value

variable {a b c v : Value}

/-! ### Equality of present values -/

theorem equalsPresent_self (h : a.isMissing = false) : equalsPresent a a = true := by
  cases a with
  | integer x | double x => exact Number.beq_self h
  | boolean b | string s | date d => exact beq_self_eq_true _

theorem equalsPresent_comm (a b : Value) : equalsPresent a b = equalsPresent b a := by
  cases a with
  | integer x | double x =>
      cases b with
      | integer y | double y => exact BEq.comm
      | boolean q | string t | date e => rfl
  | boolean p =>
      cases b with
      | integer y | double y | date e => rfl
      | boolean q => exact BEq.comm
      | string t => cases p <;> cases t <;> rfl
  | string s =>
      cases b with
      | integer y | double y => rfl
      | boolean q => cases s <;> cases q <;> rfl
      | string t => exact BEq.comm
      | date e => cases s <;> cases e <;> rfl
  | date d =>
      cases b with
      | integer y | double y | boolean q => rfl
      | string t => cases d <;> cases t <;> rfl
      | date e => exact BEq.comm

/-- Within a category both values are compared in the form that they have. -/
theorem equalsPresent_trans (hab : a.kind.sameCategory b.kind = true)
    (hbc : b.kind.sameCategory c.kind = true) (h : equalsPresent a b = true)
    (h' : equalsPresent b c = true) : equalsPresent a c = true := by
  cases a with
  | integer x | double x =>
      cases b with
      | boolean | string | date => cases hab
      | integer y | double y =>
          cases c with
          | boolean | string | date => cases hbc
          | integer z | double z =>
              exact PartialEquivBEq.trans (α := Float) (a := x) (b := y) (c := z) h h'
  | boolean p =>
      cases b with
      | integer | double | string | date => cases hab
      | boolean q =>
          obtain rfl : p = q := eq_of_beq h
          exact h'
  | string s =>
      cases b with
      | integer | double | boolean | date => cases hab
      | string t =>
          obtain rfl : s = t := eq_of_beq h
          exact h'
  | date d =>
      cases b with
      | integer | double | boolean | string => cases hab
      | date e =>
          obtain rfl : d = e := eq_of_beq h
          exact h'

/-! ### Equality with missing values -/

theorem equals_of_isMissing (h : a.isMissing = true) :
    a.equals b = (b.isMissing && a.kind.sameCategory b.kind) := by
  cases hb : b.isMissing with
  | true => simp only [equals, h, hb, Bool.true_and]
  | false => simp only [equals, h, hb, Bool.false_and]

theorem equals_of_present (h : a.isMissing = false) :
    a.equals b = (!b.isMissing && equalsPresent a b) := by
  cases hb : b.isMissing with
  | true => simp only [equals, h, hb, Bool.not_true, Bool.false_and]
  | false => simp only [equals, h, hb, Bool.not_false, Bool.true_and]

theorem equals_self (a : Value) : a.equals a = true := by
  cases h : a.isMissing with
  | true => rw [equals_of_isMissing h, h, Kind.sameCategory_self, Bool.and_self]
  | false => rw [equals_of_present h, h, equalsPresent_self h, Bool.not_false, Bool.and_self]

theorem equals_comm (a b : Value) : a.equals b = b.equals a := by
  cases ha : a.isMissing with
  | true =>
      cases hb : b.isMissing with
      | true => rw [equals_of_isMissing ha, equals_of_isMissing hb, ha, hb, Kind.sameCategory_comm]
      | false => rw [equals_of_isMissing ha, equals_of_present hb, ha, hb]; rfl
  | false =>
      cases hb : b.isMissing with
      | true => rw [equals_of_present ha, equals_of_isMissing hb, ha, hb]; rfl
      | false => rw [equals_of_present ha, equals_of_present hb, ha, hb, equalsPresent_comm]

/-- Equal values are missing both or neither. -/
theorem isMissing_eq_of_equals (h : a.equals b = true) : a.isMissing = b.isMissing := by
  cases ha : a.isMissing with
  | true =>
      rw [equals_of_isMissing ha, Bool.and_eq_true] at h
      exact h.1.symm
  | false =>
      rw [equals_of_present ha, Bool.and_eq_true, Bool.not_eq_true'] at h
      exact h.1.symm

theorem equals_trans (hab : a.kind.sameCategory b.kind = true)
    (hbc : b.kind.sameCategory c.kind = true) (h : a.equals b = true) (h' : b.equals c = true) :
    a.equals c = true := by
  have hmissing := isMissing_eq_of_equals h
  have hmissing' := isMissing_eq_of_equals h'
  cases ha : a.isMissing with
  | true =>
      rw [equals_of_isMissing ha, ← hmissing', ← hmissing, ha, Bool.true_and]
      exact Kind.sameCategory_trans hab hbc
  | false =>
      have hb := hmissing ▸ ha
      have hc := hmissing' ▸ hb
      rw [equals_of_present ha, hb, Bool.not_false, Bool.true_and] at h
      rw [equals_of_present hb, hc, Bool.not_false, Bool.true_and] at h'
      rw [equals_of_present ha, hc, equalsPresent_trans hab hbc h h']
      rfl

/-! ### Equality with a text -/

/-- Exactly the values that are not missing have a text. -/
theorem exists_text? (h : v.isMissing = false) : ∃ t, v.text? = some t := by
  cases v with
  | integer x | double x => exact Number.exists_minimalText? h
  | boolean b | string s | date d =>
      obtain ⟨p, rfl⟩ := Option.isSome_iff_exists.1 (Option.isNone_eq_false_iff.1 h)
      exact ⟨_, rfl⟩

/-- The cases of the comparison against a text agree with the writing of values. -/
theorem equalsPresent_ofString (h : v.isMissing = false) (s : String) :
    equalsPresent v (ofString s) = (v.text? == some s) := by
  cases v with
  | integer x | double x => rfl
  | boolean b =>
      obtain ⟨p, rfl⟩ := Option.isSome_iff_exists.1 (Option.isNone_eq_false_iff.1 h)
      exact BEq.comm
  | string t => rfl
  | date d =>
      obtain ⟨i, rfl⟩ := Option.isSome_iff_exists.1 (Option.isNone_eq_false_iff.1 h)
      exact BEq.comm

theorem equals_ofString_iff (h : v.isMissing = false) {s : String} :
    v.equals (ofString s) = true ↔ v.text? = some s := by
  rw [equals_of_present h, equalsPresent_ofString h]
  exact beq_iff_eq

/-- `s` is the text that a value contributes to any text that it is joined into. -/
def Contributes (v : Value) (s : String) : Prop :=
  ∀ before after, arithmetic .add .string (arithmetic .add .string (ofString before) v)
    (ofString after) = ofString (before ++ s ++ after)

theorem contributes_iff {s : String} : v.Contributes s ↔ v.text?.getD "" = s := by
  have hjoin : ∀ before after, arithmetic .add .string (arithmetic .add .string (ofString before) v)
      (ofString after) = ofString (before ++ v.text?.getD "" ++ after) := fun _ _ => rfl
  constructor
  · intro h
    have hplain := (hjoin "" "").symm.trans (h "" "")
    simpa [ofString] using hplain
  · rintro rfl before after
    exact hjoin before after

theorem coerce?_string (h : v.isMissing = false) : v.coerce? .string = some (string v.text?) := by
  cases v with
  | string s => rfl
  | integer x | double x | boolean b | date d =>
      rw [coerce?, if_neg (by simp [kind]), h, if_neg Bool.false_ne_true, if_pos rfl]

/-- The laws of equality.  The last one is what ties it to the other uses of text: the text of
a present value is what a concatenation takes, and what a conversion to text gives. -/
theorem equality_laws (a b c : Value) :
    a.equals a = true ∧ a.equals b = b.equals a ∧
    compare .eq a b = a.equals b ∧ compare .ne a b = !compare .eq a b ∧
    (a.kind.sameCategory b.kind = true → b.kind.sameCategory c.kind = true →
      a.equals b = true → b.equals c = true → a.equals c = true) ∧
    (a.isMissing = true → (a.equals b = true ↔
      b.isMissing = true ∧ a.kind.sameCategory b.kind = true)) ∧
    (a.isMissing = false →
      (∀ s, a.equals (ofString s) = true ↔ a.Contributes s) ∧
      ∃ t, a.text? = some t ∧ a.equals (ofString t) = true ∧
        ∃ w, a.coerce? .string = some w ∧ a.equals w = true) := by
  refine ⟨equals_self a, equals_comm a b, rfl, rfl, equals_trans, ?_, ?_⟩
  · intro h
    rw [equals_of_isMissing h, Bool.and_eq_true]
  · intro h
    obtain ⟨t, ht⟩ := exists_text? h
    have htext : a.equals (ofString t) = true := (equals_ofString_iff h).2 ht
    refine ⟨fun s => ?_, t, ht, htext, ofString t, ?_, htext⟩
    · rw [equals_ofString_iff h, contributes_iff, ht, Option.getD_some, Option.some.injEq]
    · rw [coerce?_string h, ht, ofString]

/-- Three and a half as a number, and two missing numbers of different kinds. -/
theorem equality_laws_of_numbers :
    ((double 3.5).equals (integer 3.5) = true ∧ (double 3.5).equals (ofString "3.5") = true ∧
      (double 3.5).Contributes "3.5") ∧
    (missing .double).equals (missing .integer) = true ∧
    (missing .double).equals (missing .string) = false := by
  have htext : (double 3.5).text? = some "3.5" := by decide +kernel
  obtain ⟨-, -, -, -, htrans, -, hpresent⟩ :=
    equality_laws (double 3.5) (double 3.5) (integer 3.5)
  obtain ⟨hcontributes, t, ht, hequals, -⟩ := hpresent (by decide +kernel)
  obtain ⟨-, -, -, -, -, hmissing, -⟩ :=
    equality_laws (missing .double) (missing .integer) (missing .integer)
  obtain ⟨-, -, -, -, -, hother, -⟩ :=
    equality_laws (missing .double) (missing .string) (missing .string)
  obtain rfl : "3.5" = t := Option.some.inj (htext.symm.trans ht)
  refine ⟨⟨?_, hequals, (hcontributes "3.5").1 hequals⟩, ?_, ?_⟩
  · exact htrans rfl rfl (by decide +kernel) (by decide +kernel)
  · exact (hmissing (isMissing_missing _)).2 ⟨isMissing_missing _, rfl⟩
  · exact Bool.eq_false_iff.2 fun h => Bool.noConfusion ((hother (isMissing_missing _)).1 h).2

end Value

end RowFormula
