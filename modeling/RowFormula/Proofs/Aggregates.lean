/-
# Aggregates

Sum, average, least and greatest number of some arguments are folds from the left.  A missing
argument ends the fold.  The least number is looked for from positive infinity on: what has been
found is below everything that was looked at and is either one of these numbers or still the
infinity, below which there is no other number.  The greatest number is found as the least one of
the numbers with their signs turned around, so all that is known of the one holds of the other.
-/

import RowFormula.Proofs.Substrings

namespace RowFormula

open Number (exactValue overflow)

/-! ### Folding numbers -/

namespace Number

variable {a b x y least : Float} {xs ys : List Float} {f : Float → Float → Float}

/-- A missing number ends the fold, wherever it stands. -/
theorem foldPresent_of_missing (h : ∃ x ∈ xs, x.isNaN = true) : foldPresent f a xs = nan := by
  induction xs generalizing a with
  | nil =>
      obtain ⟨x, hx, -⟩ := h
      exact absurd hx List.not_mem_nil
  | cons x xs ih =>
      rw [foldPresent]
      split
      · rfl
      · rename_i hx
        refine ih ?_
        obtain ⟨y, hy, hmissing⟩ := h
        obtain rfl | hy := List.mem_cons.1 hy
        · exact absurd hmissing hx
        · exact ⟨y, hy, hmissing⟩

theorem float_le_refl (h : x.isNaN = false) : x ≤ x :=
  le_iff.2 ⟨h, h, le_refl _⟩

theorem float_le_of_lt (h : x < y) : x ≤ y := by
  rw [lt_iff] at h
  exact le_iff.2 ⟨h.1, h.2.1, h.2.2.le⟩

theorem smaller_cases (ha : a.isNaN = false) (hb : b.isNaN = false) :
    (smaller a b = a ∨ smaller a b = b) ∧ smaller a b ≤ a ∧ smaller a b ≤ b := by
  unfold smaller
  split
  · rename_i hlt
    exact ⟨.inr rfl, float_le_of_lt hlt, float_le_refl hb⟩
  · rename_i hnot
    exact ⟨.inl rfl, float_le_refl ha, (not_lt_iff hb ha).1 hnot⟩

/-- What has been found so far is one of the numbers, and none of them is below it. -/
theorem foldPresent_smaller (ha : a.isNaN = false) (hxs : ∀ x ∈ xs, x.isNaN = false) :
    foldPresent smaller a xs ∈ a :: xs ∧ foldPresent smaller a xs ≤ a ∧
      ∀ x ∈ xs, foldPresent smaller a xs ≤ x := by
  induction xs generalizing a with
  | nil => exact ⟨List.mem_singleton.2 rfl, float_le_refl ha, fun _ h => absurd h List.not_mem_nil⟩
  | cons x xs ih =>
      have hx := hxs x List.mem_cons_self
      obtain ⟨hone, hlea, hlex⟩ := smaller_cases ha hx
      have hpresent : (smaller a x).isNaN = false := (le_iff.1 hlea).1
      obtain ⟨hmem, hle, hleast⟩ := ih hpresent fun y hy => hxs y (List.mem_cons_of_mem x hy)
      rw [foldPresent, hx, if_neg Bool.false_ne_true]
      refine ⟨?_, float_le_trans hle hlea, fun y hy => ?_⟩
      · obtain heq | hmem := List.mem_cons.1 hmem
        · obtain hsame | hsame := hone
          · rw [heq, hsame]
            exact List.mem_cons_self
          · rw [heq, hsame]
            exact List.mem_cons_of_mem a List.mem_cons_self
        · exact List.mem_cons_of_mem a (List.mem_cons_of_mem x hmem)
      · obtain rfl | hy := List.mem_cons.1 hy
        · exact float_le_trans hle hlex
        · exact hleast y hy

/-- Only positive infinity is not below positive infinity. -/
theorem eq_infinity_of_le (h : infinity ≤ x) : x = infinity := by
  obtain ⟨-, hx, hle⟩ := le_iff.1 h
  change overflow ≤ exactValue x at hle
  cases hfinite : x.isFinite with
  | true => exact absurd ((le_abs_self _).trans_lt (abs_exactValue_lt hfinite)) (not_lt.2 hle)
  | false =>
      refine (eq_infinity_of_not_isFinite hx hfinite).resolve_right ?_
      rintro rfl
      change overflow ≤ -overflow at hle
      linarith [overflow_pos]

theorem isNaN_infinity : infinity.isNaN = false := by decide

/-- Numbers that are not below one another are equal, apart from the sign of zero. -/
theorem beq_of_le (hxy : x ≤ y) (hyx : y ≤ x) : (x == y) = true := by
  obtain ⟨hx, hy, hle⟩ := le_iff.1 hxy
  exact beq_iff.2 ⟨hx, hy, hle.antisymm (le_iff.1 hyx).2.2⟩

/-! ### Turning signs around -/

theorem float_neg_lt_neg_iff : -b < -a ↔ a < b := by
  rw [lt_iff, lt_iff, isNaN_neg, isNaN_neg, exactValue_neg, exactValue_neg, neg_lt_neg_iff]
  tauto

theorem float_neg_le_neg_iff : -b ≤ -a ↔ a ≤ b := by
  rw [le_iff, le_iff, isNaN_neg, isNaN_neg, exactValue_neg, exactValue_neg, neg_le_neg_iff]
  tauto

theorem larger_eq (a b : Float) : larger a b = -smaller (-a) (-b) := by
  unfold larger smaller
  by_cases h : a < b
  · rw [if_pos h, if_pos (float_neg_lt_neg_iff.2 h), float_neg_neg]
  · rw [if_neg h, if_neg (mt float_neg_lt_neg_iff.1 h), float_neg_neg]

theorem foldPresent_larger (a : Float) (xs : List Float) :
    foldPresent larger a xs = -foldPresent smaller (-a) (xs.map (-·)) := by
  induction xs generalizing a with
  | nil => exact (float_neg_neg a).symm
  | cons x xs ih =>
      rw [List.map_cons, foldPresent, foldPresent, isNaN_neg]
      split
      · exact neg_nan.symm
      · rw [ih, larger_eq, float_neg_neg]

end Number

/-! ### Numeric values -/

namespace Value

variable {v : Value} {k : Kind}

theorem isNaN_toNumber (h : v.kind.isNumeric = true) : v.toNumber.isNaN = v.isMissing := by
  cases v with
  | integer | double => rfl
  | boolean | string | date => cases h

/-- Turning the sign around keeps the kind. -/
theorem kind_neg (h : v.kind.isNumeric = true) : (unary .neg v).kind = v.kind :=
  kind_number h _

theorem toNumber_number (h : k.isNumeric = true) (x : Float) : (number k x).toNumber = x := by
  cases k with
  | integer | double => rfl
  | boolean | string | date => cases h

theorem toNumber_neg (h : v.kind.isNumeric = true) : (unary .neg v).toNumber = -v.toNumber :=
  toNumber_number h _

theorem unary_neg_number (h : k.isNumeric = true) (x : Float) :
    unary .neg (number k x) = number k (-x) := by
  rw [unary, kind_number h, toNumber_number h]

end Value

/-! ### The functions -/

namespace Catalog

open Number (infinity nan)

variable {args : List Value} {x : Float} {xs : List Float}

theorem largest_eq (xs : List Float) : largest xs = -smallest (xs.map (-·)) := by
  rw [largest, Number.foldPresent_larger, Number.negInfinity, Number.float_neg_neg, smallest]

/-- The least of some numbers is one of them, also if all of them are infinite. -/
theorem isLeast_smallest (hne : xs ≠ []) (hxs : ∀ x ∈ xs, x.isNaN = false) :
    IsLeast {x | x ∈ xs} (smallest xs) := by
  rw [smallest]
  obtain ⟨hmem, -, hleast⟩ := Number.foldPresent_smaller Number.isNaN_infinity hxs
  refine ⟨?_, fun x hx => hleast x hx⟩
  obtain heq | hmem := List.mem_cons.1 hmem
  · obtain ⟨x, hx⟩ := List.exists_mem_of_ne_nil xs hne
    rw [heq, ← Number.eq_infinity_of_le (heq ▸ hleast x hx)]
    exact hx
  · exact hmem

theorem isGreatest_largest (hne : xs ≠ []) (hxs : ∀ x ∈ xs, x.isNaN = false) :
    IsGreatest {x | x ∈ xs} (largest xs) := by
  have hnegated : ∀ x ∈ xs.map (-·), x.isNaN = false := by
    intro x hx
    obtain ⟨y, hy, rfl⟩ := List.mem_map.1 hx
    exact (Number.isNaN_neg y).trans (hxs y hy)
  obtain ⟨hmem, hleast⟩ := isLeast_smallest (mt List.map_eq_nil_iff.1 hne) hnegated
  rw [largest_eq]
  refine ⟨?_, fun x hx => ?_⟩
  · obtain ⟨x, hx, heq⟩ := List.mem_map.1 hmem
    rw [← heq, Number.float_neg_neg]
    exact hx
  · rw [← Number.float_neg_neg x]
    exact Number.float_neg_le_neg_iff.2 (hleast (List.mem_map_of_mem hx))

theorem average_of_missing (h : ∃ x ∈ xs, x.isNaN = true) : average xs = nan := by
  rw [average, total, Number.foldPresent_of_missing h]
  exact @ArithmeticOp.onNumbers_of_nan .div _ _ (.inl rfl) fun habsorbs => nomatch habsorbs.1

theorem mem_functions_of_statistical {f : Function} (hf : f ∈ statistical) : f ∈ functions := by
  simp only [functions, List.mem_append]
  tauto

/-- The aggregates, of which each is missing if one argument is. -/
theorem exists_aggregate {name : String} (hname : name ∈ ["sum", "avg", "min", "max"]) :
    ∃ description f, aggregate name description f ∈ functions ∧
      ∀ xs, (∃ x ∈ xs, x.isNaN = true) → f xs = nan := by
  simp only [List.mem_cons, List.not_mem_nil, or_false] at hname
  obtain rfl | rfl | rfl | rfl := hname
  · exact ⟨_, total, mem_functions_of_statistical (List.mem_of_getElem? (i := 0) rfl),
      fun _ => Number.foldPresent_of_missing⟩
  · exact ⟨_, average, mem_functions_of_statistical (List.mem_of_getElem? (i := 1) rfl),
      fun _ => average_of_missing⟩
  · exact ⟨_, smallest, mem_functions_of_statistical (List.mem_of_getElem? (i := 2) rfl),
      fun _ => Number.foldPresent_of_missing⟩
  · exact ⟨_, largest, mem_functions_of_statistical (List.mem_of_getElem? (i := 3) rfl),
      fun _ => Number.foldPresent_of_missing⟩

/-- The kind of an aggregate. -/
def aggregateKind (args : List Value) : Kind :=
  Kind.promote (args.map Value.kind)

theorem aggregateKind_eq_integer_iff :
    aggregateKind args = .integer ↔ ∀ v ∈ args, v.kind = .integer := by
  rw [aggregateKind, Kind.promote]
  split <;> simp_all

theorem aggregateKind_cases : aggregateKind args = .integer ∨ aggregateKind args = .double := by
  rw [aggregateKind, Kind.promote]
  split
  · exact .inl rfl
  · exact .inr rfl

theorem isNumeric_aggregateKind : (aggregateKind args).isNumeric = true :=
  Kind.isNumeric_promote _

/-- Any number of numeric arguments but none at all is accepted. -/
theorem answers_aggregate {name description : String} {f : List Float → Float}
    (hf : aggregate name description f ∈ functions) (hne : args ≠ [])
    (hnumeric : ∀ v ∈ args, v.kind.isNumeric = true) :
    Answers name args (aggregateKind args)
      (.number (aggregateKind args) (f (args.map Value.toNumber))) := by
  refine answers_of_mem hf ⟨?_, fun position k hk => ?_⟩ (fun request hrequest => ?_)
    fun call hcall => ?_
  · rw [List.length_map]
    exact decide_eq_true (List.length_pos_iff.2 hne)
  · obtain ⟨v, hv, rfl⟩ := List.mem_map.1 (List.mem_of_getElem? hk)
    exact (KindSet.accepts_numeric v.kind).trans (hnumeric v hv)
  · show Except.ok (Kind.promote (request.args.map ArgInfo.kind)) = _
    rw [hrequest, aggregateKind]
  · show pure (Value.number call.resultKind (f (args.map Value.toNumber))) = _
    rw [hcall]

theorem exists_isNaN (h : ∃ v ∈ args, v.isMissing = true) :
    ∃ x ∈ args.map Value.toNumber, x.isNaN = true := by
  obtain ⟨v, hv, hmissing⟩ := h
  exact ⟨_, List.mem_map_of_mem hv, Number.isNaN_iff.2 (Value.toNumber_of_isMissing hmissing)⟩

section Arguments

variable (hne : args ≠ []) (hnumeric : ∀ v ∈ args, v.kind.isNumeric = true)
include hnumeric

theorem isNaN_of_present (hpresent : ∀ v ∈ args, v.isMissing = false) :
    ∀ x ∈ args.map Value.toNumber, x.isNaN = false := by
  intro x hx
  obtain ⟨v, hv, rfl⟩ := List.mem_map.1 hx
  exact (Value.isNaN_toNumber (hnumeric v hv)).trans (hpresent v hv)

include hne

theorem answers_min : Answers "min" args (aggregateKind args)
    (.number (aggregateKind args) (smallest (args.map Value.toNumber))) :=
  answers_aggregate (mem_functions_of_statistical (List.mem_of_getElem? (i := 2) rfl)) hne hnumeric

theorem answers_max : Answers "max" args (aggregateKind args)
    (.number (aggregateKind args) (largest (args.map Value.toNumber))) :=
  answers_aggregate (mem_functions_of_statistical (List.mem_of_getElem? (i := 3) rfl)) hne hnumeric

/-- With all signs turned around, the least number is the greatest one turned around. -/
theorem answers_min_neg : Answers "min" (args.map (Value.unary .neg)) (aggregateKind args)
    (.number (aggregateKind args) (-largest (args.map Value.toNumber))) := by
  have hkinds : (args.map (Value.unary .neg)).map Value.kind = args.map Value.kind := by
    rw [List.map_map]
    exact List.map_congr_left fun v hv => Value.kind_neg (hnumeric v hv)
  have hnumbers : (args.map (Value.unary .neg)).map Value.toNumber =
      (args.map Value.toNumber).map (-·) := by
    rw [List.map_map, List.map_map]
    exact List.map_congr_left fun v hv => Value.toNumber_neg (hnumeric v hv)
  have hnumeric' : ∀ w ∈ args.map (Value.unary .neg), w.kind.isNumeric = true := by
    intro w hw
    obtain ⟨v, hv, rfl⟩ := List.mem_map.1 hw
    rw [Value.kind_neg (hnumeric v hv)]
    exact hnumeric v hv
  have hanswers := answers_min (mt List.map_eq_nil_iff.1 hne) hnumeric'
  rw [aggregateKind, hkinds, hnumbers] at hanswers
  rw [largest_eq, Number.float_neg_neg]
  exact hanswers

/-- In another order the same number is found, apart from the sign of zero. -/
theorem exists_answers_of_perm (hpresent : ∀ v ∈ args, v.isMissing = false)
    {args' : List Value} (hperm : args'.Perm args) :
    ∃ least greatest,
      Answers "min" args' (aggregateKind args) (.number (aggregateKind args) least) ∧
      Answers "max" args' (aggregateKind args) (.number (aggregateKind args) greatest) ∧
      (least == smallest (args.map Value.toNumber)) = true ∧
      (greatest == largest (args.map Value.toNumber)) = true := by
  have hne' : args' ≠ [] := fun hnil => hne (hnil ▸ hperm).nil_eq.symm
  have hnumeric' : ∀ v ∈ args', v.kind.isNumeric = true :=
    fun v hv => hnumeric v (hperm.mem_iff.1 hv)
  have hpresent' : ∀ v ∈ args', v.isMissing = false := fun v hv => hpresent v (hperm.mem_iff.1 hv)
  have hkind : aggregateKind args' = aggregateKind args := by
    rw [aggregateKind, aggregateKind, Kind.promote, Kind.promote, (hperm.map Value.kind).all_eq]
  have hnumbers : {x | x ∈ args'.map Value.toNumber} = {x | x ∈ args.map Value.toNumber} :=
    Set.ext fun x => (hperm.map Value.toNumber).mem_iff
  have hmap := mt (List.map_eq_nil_iff (f := Value.toNumber)).1 hne
  have hmap' := mt (List.map_eq_nil_iff (f := Value.toNumber)).1 hne'
  have hleast := isLeast_smallest hmap (isNaN_of_present hnumeric hpresent)
  have hleast' := isLeast_smallest hmap' (isNaN_of_present hnumeric' hpresent')
  have hgreatest := isGreatest_largest hmap (isNaN_of_present hnumeric hpresent)
  have hgreatest' := isGreatest_largest hmap' (isNaN_of_present hnumeric' hpresent')
  rw [hnumbers] at hleast' hgreatest'
  have hmin := answers_min hne' hnumeric'
  have hmax := answers_max hne' hnumeric'
  rw [hkind] at hmin hmax
  exact ⟨_, _, hmin, hmax, Number.beq_of_le (hleast'.2 hleast.1) (hleast.2 hleast'.1),
    Number.beq_of_le (hgreatest.2 hgreatest'.1) (hgreatest'.2 hgreatest.1)⟩

end Arguments

/-- Aggregates of at least one number.  They have a kind, they are missing if an argument is, and
the least and the greatest of present arguments are what their names say, in whatever order the
arguments stand. -/
theorem aggregates_exact (args : List Value) (hne : args ≠ [])
    (hnumeric : ∀ v ∈ args, v.kind.isNumeric = true) :
    ∃ k : Kind, (k = .integer ∨ k = .double) ∧ (k = .integer ↔ ∀ v ∈ args, v.kind = .integer) ∧
      (∀ name ∈ ["sum", "avg", "min", "max"], ∃ x, Answers name args k (.number k x)) ∧
      ((∃ v ∈ args, v.isMissing = true) →
        ∀ name ∈ ["sum", "avg", "min", "max"], Answers name args k (.missing k)) ∧
      ((∀ v ∈ args, v.isMissing = false) → ∃ least greatest,
        Answers "min" args k (.number k least) ∧ Answers "max" args k (.number k greatest) ∧
        IsLeast {x | x ∈ args.map Value.toNumber} least ∧
        IsGreatest {x | x ∈ args.map Value.toNumber} greatest ∧
        (∀ args', args'.Perm args → ∃ least' greatest',
          Answers "min" args' k (.number k least') ∧ Answers "max" args' k (.number k greatest') ∧
          (least' == least) = true ∧ (greatest' == greatest) = true) ∧
        ∃ m, Answers "min" (args.map (Value.unary .neg)) k m ∧
          Value.unary .neg m = .number k greatest) := by
  have hmap := mt (List.map_eq_nil_iff (f := Value.toNumber)).1 hne
  refine ⟨aggregateKind args, aggregateKind_cases, aggregateKind_eq_integer_iff,
    fun name hname => ?_, fun hmissing name hname => ?_,
    fun hpresent => ⟨_, _, answers_min hne hnumeric,
      answers_max hne hnumeric, isLeast_smallest hmap (isNaN_of_present hnumeric hpresent),
      isGreatest_largest hmap (isNaN_of_present hnumeric hpresent),
      fun args' hperm => exists_answers_of_perm hne hnumeric hpresent hperm,
      _, answers_min_neg hne hnumeric, ?_⟩⟩
  · obtain ⟨description, f, hf, -⟩ := exists_aggregate hname
    exact ⟨_, answers_aggregate hf hne hnumeric⟩
  · obtain ⟨description, f, hf, hnan⟩ := exists_aggregate hname
    have hanswers := answers_aggregate hf hne hnumeric
    rwa [hnan _ (exists_isNaN hmissing), Value.number_nan isNumeric_aggregateKind] at hanswers
  · rw [Value.unary_neg_number isNumeric_aggregateKind, Number.float_neg_neg]

theorem aggregates_exact_of_mixed_kinds :
    (∀ v ∈ [Value.integer 3.0, .double (-0.5)], v.kind.isNumeric = true) ∧
      (∀ v ∈ [Value.integer 3.0, .double (-0.5)], v.isMissing = false) ∧
      Answers "min" [.integer 3.0, .double (-0.5)] .double (.double (-0.5)) ∧
      Answers "max" [.integer 3.0, .double (-0.5)] .double (.double 3.0) := by
  have hnumeric : ∀ v ∈ [Value.integer 3.0, .double (-0.5)], v.kind.isNumeric = true := by
    decide
  have hpresent : ∀ v ∈ [Value.integer 3.0, .double (-0.5)], v.isMissing = false := by
    decide
  obtain ⟨k, hk, hinteger, -, -, hextremes⟩ := aggregates_exact _ (by simp) hnumeric
  obtain ⟨least, greatest, hmin, hmax, hleast, hgreatest, -⟩ := hextremes hpresent
  have hdouble : k = .double := by
    refine hk.resolve_left fun h => ?_
    exact absurd (hinteger.1 h (.double (-0.5)) (by simp)) (by simp [Value.kind])
  have hnot : ¬ (3.0 : Float) ≤ -0.5 := by decide
  change IsLeast {x | x ∈ [(3.0 : Float), -0.5]} least at hleast
  change IsGreatest {x | x ∈ [(3.0 : Float), -0.5]} greatest at hgreatest
  have hleast' : least = -0.5 := by
    obtain rfl | rfl : least = 3.0 ∨ least = -0.5 := by simpa using hleast.1
    · exact absurd (hleast.2 (by simp)) hnot
    · rfl
  have hgreatest' : greatest = 3.0 := by
    obtain rfl | rfl : greatest = 3.0 ∨ greatest = -0.5 := by simpa using hgreatest.1
    · rfl
    · exact absurd (hgreatest.2 (by simp)) hnot
  rw [hdouble, hleast'] at hmin
  rw [hdouble, hgreatest'] at hmax
  exact ⟨hnumeric, hpresent, hmin, hmax⟩

end Catalog

end RowFormula
