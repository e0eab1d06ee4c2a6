/-
# Missing operands

The missing number is the one number that is not equal to itself, and the operations of
arithmetic pass it on, with a single exception: one to any power, and any number to the power
zero, is one.  Hence a missing leaf of an arithmetic formula arrives at the root unless a power
with such a base or such an exponent stands on its way, whether the operators were folded or
not.
-/

import Mathlib
import RowFormula.Proofs.Folding
import RowFormula.Proofs.KindSoundness

namespace RowFormula

open Float.Model (Format UnpackedFloat)

/-! ### The missing number -/

namespace Number

theorem nan_eq_nan : nan = Float.nan := by decide +kernel

theorem isNaN_iff {x : Float} : x.isNaN = true ↔ x = nan := by
  rw [Float.isNaN_eq_decide_eq_nan, decide_eq_true_eq, nan_eq_nan]

theorem isNaN_nan : nan.isNaN = true :=
  isNaN_iff.2 rfl

theorem unpack_nan : nan.toModel.unpack = .notANumber :=
  UnpackedFloat.isNaN_iff.1 isNaN_nan

theorem one_isNaN : Float.isNaN 1.0 = false := by decide +kernel

/-- An operation that keeps what is not a number on either side gives the missing number
where one side is missing. -/
theorem ofModel_pack_eq_nan {f : UnpackedFloat → UnpackedFloat → UnpackedFloat}
    (hleft : ∀ v, f .notANumber v = .notANumber) (hright : ∀ u, f u .notANumber = .notANumber)
    {x y : Float} (h : x = nan ∨ y = nan) :
    Float.ofModel (.pack (f x.toModel.unpack y.toModel.unpack)) = nan := by
  have hpack : Float.ofModel (.pack .notANumber) = nan := by decide +kernel
  obtain rfl | rfl := h
  · rw [unpack_nan, hleft, hpack]
  · rw [unpack_nan, hright, hpack]

theorem neg_nan : -nan = nan := by decide +kernel

end Number

namespace ArithmeticOp

/-- The operation does not ask for one of its numbers, because the other one decides: the
base of a power is one, or its exponent is zero. -/
def Absorbs (op : ArithmeticOp) (x y : Float) : Prop :=
  op = .pow ∧ ((y == 0.0) = true ∨ (x == 1.0) = true)

instance (op : ArithmeticOp) (x y : Float) : Decidable (op.Absorbs x y) :=
  inferInstanceAs (Decidable (_ ∧ _))

theorem onNumbers_of_absorbs {op : ArithmeticOp} {x y : Float} (h : op.Absorbs x y) :
    op.onNumbers x y = 1.0 := by
  obtain ⟨rfl, h⟩ := h
  exact if_pos (Bool.or_eq_true_iff.2 h)

/-- Apart from such powers, a missing number on either side makes the result missing. -/
theorem onNumbers_of_nan {op : ArithmeticOp} {x y : Float} (h : x = Number.nan ∨ y = Number.nan)
    (hopen : ¬ op.Absorbs x y) : op.onNumbers x y = Number.nan := by
  cases op with
  | add =>
      exact Number.ofModel_pack_eq_nan (f := UnpackedFloat.add Format.binary64) (fun _ => rfl)
        (fun u => by cases u <;> rfl) h
  | sub =>
      exact Number.ofModel_pack_eq_nan (f := UnpackedFloat.sub Format.binary64) (fun _ => rfl)
        (fun u => by cases u <;> rfl) h
  | mul =>
      exact Number.ofModel_pack_eq_nan (f := UnpackedFloat.mul Format.binary64) (fun _ => rfl)
        (fun u => by cases u <;> rfl) h
  | div =>
      exact Number.ofModel_pack_eq_nan (f := UnpackedFloat.div Format.binary64) (fun _ => rfl)
        (fun u => by cases u <;> rfl) h
  | mod =>
      have hmissing : (x.isNaN || y.isNaN || !x.isFinite) = true := by
        rw [Bool.or_eq_true, Bool.or_eq_true]
        exact .inl (h.imp Number.isNaN_iff.2 Number.isNaN_iff.2)
      exact if_pos hmissing
  | pow =>
      have hplain : ¬ (y == 0.0 || x == 1.0) = true :=
        fun habsorbs => hopen ⟨rfl, Bool.or_eq_true_iff.1 habsorbs⟩
      have hmissing : (x.isNaN || y.isNaN) = true :=
        Bool.or_eq_true_iff.2 (h.imp Number.isNaN_iff.2 Number.isNaN_iff.2)
      show Number.power x y = Number.nan
      rw [Number.power, if_neg hplain, if_pos hmissing]

end ArithmeticOp

/-! ### Missing values -/

namespace Value

theorem toNumber_of_isMissing {v : Value} (h : v.isMissing = true) : v.toNumber = Number.nan := by
  cases v with
  | integer x | double x => exact Number.isNaN_iff.1 h
  | boolean | string | date => rfl

theorem eq_missing_of_isMissing {v : Value} (h : v.isMissing = true) : v = missing v.kind := by
  cases v with
  | integer x => exact congrArg integer (Number.isNaN_iff.1 h)
  | double x => exact congrArg double (Number.isNaN_iff.1 h)
  | boolean b => exact congrArg boolean (Option.isNone_iff_eq_none.1 h)
  | string s => exact congrArg string (Option.isNone_iff_eq_none.1 h)
  | date d => exact congrArg date (Option.isNone_iff_eq_none.1 h)

theorem isMissing_missing (k : Kind) : (missing k).isMissing = true := by
  cases k with
  | integer | double => exact Number.isNaN_nan
  | boolean | string | date => rfl

theorem number_nan {k : Kind} (hk : k.isNumeric = true) : number k Number.nan = missing k := by
  cases k with
  | integer | double => rfl
  | boolean | string | date => cases hk

theorem isMissing_number (k : Kind) (x : Float) : (number k x).isMissing = x.isNaN := by
  unfold number
  split <;> rfl

/-- A conversion keeps a missing value missing. -/
theorem isMissing_of_coerce? {v w : Value} {k : Kind} (h : v.coerce? k = some w)
    (hv : v.isMissing = true) : w.isMissing = true := by
  by_cases hkind : v.kind = k
  · rw [coerce?, if_pos hkind] at h
    obtain rfl := Option.some.inj h
    exact hv
  · rw [coerce?, if_neg hkind, if_pos hv] at h
    obtain rfl := Option.some.inj h
    exact isMissing_missing k

theorem ne_string_of_isNumeric {k : Kind} (hk : k.isNumeric = true) : k ≠ .string := by
  rintro rfl
  cases hk

theorem arithmetic_of_absorbs {op : ArithmeticOp} {k : Kind} {a b : Value}
    (hk : k.isNumeric = true) (h : op.Absorbs a.toNumber b.toNumber) :
    arithmetic op k a b = number k 1.0 := by
  rw [arithmetic, if_neg (ne_string_of_isNumeric hk), ArithmeticOp.onNumbers_of_absorbs h]

theorem arithmetic_of_isMissing {op : ArithmeticOp} {k : Kind} {a b : Value}
    (hk : k.isNumeric = true) (h : a.isMissing = true ∨ b.isMissing = true)
    (hopen : ¬ op.Absorbs a.toNumber b.toNumber) : arithmetic op k a b = missing k := by
  have hnan := h.imp toNumber_of_isMissing toNumber_of_isMissing
  rw [arithmetic, if_neg (ne_string_of_isNumeric hk), ArithmeticOp.onNumbers_of_nan hnan hopen,
    number_nan hk]

theorem isMissing_unary {op : UnaryOp} {v : Value} (hop : op ≠ .not) (hv : v.isMissing = true) :
    (unary op v).isMissing = true := by
  cases op with
  | neg =>
      rw [unary, isMissing_number, toNumber_of_isMissing hv, Number.neg_nan]
      exact Number.isNaN_nan
  | pos => exact hv
  | not => exact absurd rfl hop

end Value

/-! ### Arithmetic formulas -/

namespace Term

/-- The value on a row of arithmetic on constants and attributes of numeric kinds.  There is
none if the term holds something else, or if the row lacks an attribute or holds a value in
its place that cannot be converted to its kind. -/
def arithmeticValue? (row : Row) : Term → Option Value
  | constant k _ v => if k.isNumeric then some v else none
  | attributeRef k _ name => if k.isNumeric then (row.get? name).bind (·.coerce? k) else none
  | unary k _ op x =>
    if k.isNumeric ∧ op ≠ .not then (arithmeticValue? row x).map (Value.unary op) else none
  | arithmetic k _ op x y =>
    if k.isNumeric then do
      pure (Value.arithmetic op k (← arithmeticValue? row x) (← arithmeticValue? row y))
    else none
  | _ => none

/-- A leaf is missing on the row, and no power on the way from it to the root does without the
side that it is on. -/
def missingArrives (row : Row) : Term → Bool
  | constant _ _ v => v.isMissing
  | attributeRef _ _ name => (row.get? name).any Value.isMissing
  | unary _ _ _ x => missingArrives row x
  | arithmetic _ _ op x y =>
    (missingArrives row x &&
      (y.arithmeticValue? row).all fun b => !decide (op.Absorbs Number.nan b.toNumber)) ||
    (missingArrives row y &&
      (x.arithmeticValue? row).all fun a => !decide (op.Absorbs a.toNumber Number.nan))
  | _ => false

section Values

variable {row : Row} {k : Kind} {span : Span} {x y : Term} {v : Value}

theorem arithmeticValue?_constant {w : Value} :
    (constant k span w).arithmeticValue? row = some v ↔ k.isNumeric = true ∧ w = v := by
  simp [arithmeticValue?]

theorem arithmeticValue?_attributeRef {name : String} :
    (attributeRef k span name).arithmeticValue? row = some v ↔
      k.isNumeric = true ∧ ∃ w, row.get? name = some w ∧ w.coerce? k = some v := by
  simp [arithmeticValue?, Option.bind_eq_some_iff]

theorem arithmeticValue?_unary {op : UnaryOp} :
    (unary k span op x).arithmeticValue? row = some v ↔ (k.isNumeric = true ∧ op ≠ .not) ∧
      ∃ a, x.arithmeticValue? row = some a ∧ Value.unary op a = v := by
  simp [arithmeticValue?]

theorem arithmeticValue?_arithmetic {op : ArithmeticOp} :
    (arithmetic k span op x y).arithmeticValue? row = some v ↔
      k.isNumeric = true ∧ ∃ a, x.arithmeticValue? row = some a ∧
        ∃ b, y.arithmeticValue? row = some b ∧ Value.arithmetic op k a b = v := by
  simp [arithmeticValue?, Option.bind_eq_some_iff]

end Values

/-- The induction is on the term, which is the way of the missing leaf upwards; the steps are
`Value.isMissing_unary` and `Value.arithmetic_of_isMissing`. -/
theorem isMissing_of_missingArrives {row : Row} {t : Term} {v : Value}
    (h : t.missingArrives row = true) (hv : t.arithmeticValue? row = some v) :
    v.isMissing = true := by
  induction t generalizing v with
  | constant k span w =>
      obtain ⟨-, rfl⟩ := arithmeticValue?_constant.1 hv
      exact h
  | attributeRef k span name =>
      obtain ⟨-, w, hw, hcoerce⟩ := arithmeticValue?_attributeRef.1 hv
      rw [missingArrives, hw] at h
      exact Value.isMissing_of_coerce? hcoerce h
  | unary k span op x ih =>
      obtain ⟨⟨-, hop⟩, a, ha, rfl⟩ := arithmeticValue?_unary.1 hv
      exact Value.isMissing_unary hop (ih h ha)
  | arithmetic k span op x y ihx ihy =>
      obtain ⟨hk, a, ha, b, hb, rfl⟩ := arithmeticValue?_arithmetic.1 hv
      simp only [missingArrives, ha, hb, Option.all_some, Bool.or_eq_true, Bool.and_eq_true,
        Bool.not_eq_true', decide_eq_false_iff_not] at h
      obtain ⟨hx, hopen⟩ | ⟨hy, hopen⟩ := h
      · have hmissing := ihx hx ha
        rw [← Value.toNumber_of_isMissing hmissing] at hopen
        rw [Value.arithmetic_of_isMissing hk (.inl hmissing) hopen]
        exact Value.isMissing_missing k
      · have hmissing := ihy hy hb
        rw [← Value.toNumber_of_isMissing hmissing] at hopen
        rw [Value.arithmetic_of_isMissing hk (.inr hmissing) hopen]
        exact Value.isMissing_missing k
  | macroRef | comparison | logical | conditional | call => cases hv

/-- On its way through operators other than powers nothing stops a missing leaf. -/
theorem missingArrives_of_hasNode {row : Row} {t node : Term} {v : Value}
    (hnode : t.HasNode node) (h : node.missingArrives row = true)
    (hv : t.arithmeticValue? row = some v)
    (hpowers : ∀ k span x y, ¬ t.HasNode (.arithmetic k span .pow x y)) :
    t.missingArrives row = true := by
  induction hnode generalizing v with
  | self => exact h
  | @ofPart t part node hpart _ ih =>
      have hbelow : ∀ k span x y, ¬ part.HasNode (.arithmetic k span .pow x y) :=
        fun k span x y hpow => hpowers k span x y (.ofPart hpart hpow)
      cases t with
      | constant | attributeRef | macroRef => cases hpart
      | comparison | logical | conditional | call => cases hv
      | unary k span op x =>
          obtain rfl := List.mem_singleton.1 hpart
          obtain ⟨-, a, ha, -⟩ := arithmeticValue?_unary.1 hv
          exact ih h ha hbelow
      | arithmetic k span op x y =>
          obtain ⟨-, a, ha, b, hb, -⟩ := arithmeticValue?_arithmetic.1 hv
          have hplain : ∀ p q, ¬ op.Absorbs p q := by
            rintro p q ⟨rfl, -⟩
            exact hpowers k span x y .self
          simp only [parts, List.mem_cons, List.not_mem_nil, or_false] at hpart
          obtain rfl | rfl := hpart
          · simp [missingArrives, ih h ha hbelow, hb, hplain]
          · simp [missingArrives, ih h hb hbelow, ha, hplain]

/-- The evaluator agrees with `arithmeticValue?`. -/
theorem evaluate_of_arithmeticValue? {evaluateFormula : String → Evaluation EvaluationFault Value}
    {ctx : Context} {maxDepth depth : Nat} {t : Term} {v : Value}
    (hv : t.arithmeticValue? ctx.row = some v) (h : depth + t.height ≤ maxDepth) :
    t.evaluate evaluateFormula ctx maxDepth depth = pure v := by
  induction t generalizing depth v with
  | constant k span w =>
      obtain ⟨-, rfl⟩ := arithmeticValue?_constant.1 hv
      exact evaluate_constant h
  | attributeRef k span name =>
      obtain ⟨-, w, hw, hcoerce⟩ := arithmeticValue?_attributeRef.1 hv
      rw [evaluate, guardDepth_of_lt h, pure_bind, attributeValue, hw]
      simp only [Evaluation.ofOption, pure_bind, conform, hcoerce]
  | unary k span op x ih =>
      obtain ⟨-, a, ha, rfl⟩ := arithmeticValue?_unary.1 hv
      rw [height] at h
      rw [evaluate, guardDepth_of_lt (by omega), pure_bind, ih ha (by omega), pure_bind]
  | arithmetic k span op x y ihx ihy =>
      obtain ⟨-, a, ha, b, hb, rfl⟩ := arithmeticValue?_arithmetic.1 hv
      rw [height] at h
      rw [evaluate, guardDepth_of_lt (by omega), pure_bind, ihx ha (by omega), pure_bind,
        ihy hb (by omega), pure_bind]
  | macroRef | comparison | logical | conditional | call => cases hv

end Term

namespace Formula

/-- A text that compiles also compiles with all its operators. -/
theorem exists_compileUnfolded {ctx : Context} {source : String} {f : Formula}
    (h : compile ctx source = .ok f) :
    ∃ u, compileUnfolded ctx source = .ok u ∧ u.term.folded = f.term := by
  obtain ⟨tree, htree, hterm, -⟩ := compileWith_eq_ok h
  rw [Term.ofTree_eq_map_folded] at hterm
  obtain ⟨u, hu, hfolded⟩ := map_eq_ok_iff.1 hterm
  exact ⟨⟨source, u⟩, by simp only [compileUnfolded, htree, hu], hfolded⟩

/-- A missing operand makes the result of arithmetic missing exactly if the operation does ask
for it: the exception are powers with base one or exponent zero, which are one.  Hence a
missing leaf of an arithmetic formula makes its value missing if no such power stands on its
way to the root, for the formula as it was compiled and for its unfolded form. -/
theorem missing_unless_absorbed (op : ArithmeticOp) {k : Kind} {a b : Value}
    (hk : k.isNumeric = true) (hmissing : a.isMissing = true ∨ b.isMissing = true) :
    ((Value.arithmetic op k a b = Value.missing k ↔ ¬ op.Absorbs a.toNumber b.toNumber) ∧
      (op.Absorbs a.toNumber b.toNumber → Value.arithmetic op k a b = Value.number k 1.0)) ∧
    ∀ (ctx : Context) (source : String) (f : Formula), compile ctx source = .ok f →
      ∃ u, compileUnfolded ctx source = .ok u ∧ u.term.folded = f.term ∧
        ∀ (later : Context) (maxDepth : Nat) (v : Value) (draws : Random.Draws),
          u.term.arithmeticValue? later.row = some v →
          u.term.missingArrives later.row = true → u.term.height ≤ maxDepth →
          (u.runWithin maxDepth later).outcome draws = (.ok (Value.missing f.kind), draws) ∧
          (f.runWithin maxDepth later).outcome draws = (.ok (Value.missing f.kind), draws) := by
  constructor
  · have habsorbs : op.Absorbs a.toNumber b.toNumber →
        Value.arithmetic op k a b = Value.number k 1.0 := Value.arithmetic_of_absorbs hk
    refine ⟨⟨?_, Value.arithmetic_of_isMissing hk hmissing⟩, habsorbs⟩
    intro heq h
    have hone := Value.isMissing_number k 1.0
    rw [← habsorbs h, heq, Value.isMissing_missing, Number.one_isNaN] at hone
    cases hone
  · intro ctx source f hf
    obtain ⟨u, hu, hfolded⟩ := exists_compileUnfolded hf
    refine ⟨u, hu, hfolded, ?_⟩
    intro later maxDepth v draws hv harrives hheight
    have hunfolded : u.term.evaluate (nestedValue later.levels later) later maxDepth 0 = pure v :=
      Term.evaluate_of_arithmeticValue? hv (by omega)
    have hterm : f.term.evaluate (nestedValue later.levels later) later maxDepth 0 = pure v := by
      rw [← hfolded, Term.evaluate_folded u.term (by omega), hunfolded]
    have hkind : v.kind = f.kind :=
      (wellKinded_of_compile hf).kind_of_returns (hterm ▸ Evaluation.returns_pure.2 rfl)
    have hmissing : v = Value.missing f.kind := by
      rw [← hkind]
      exact Value.eq_missing_of_isMissing (Term.isMissing_of_missingArrives harrives hv)
    constructor
    · rw [runWithin, runWith, hunfolded, hmissing]
      rfl
    · rw [runWithin, runWith, hterm, hmissing]
      rfl

/-- A missing attribute passes a square, whose exponent is not zero. -/
theorem missing_unless_absorbed_of_square :
    Value.arithmetic .pow .double (.missing .double) (.double 2) = .missing .double ∧
    ∃ f, compile { row := Row.ofList [("gap", .missing .double)] } "-(gap * 2 + 1) ^ 2" = .ok f ∧
      ∀ draws, (f.runWithin 9 { row := Row.ofList [("gap", .missing .integer)] }).outcome draws =
        (.ok (.missing .double), draws) := by
  have hcheck : ((compile { row := Row.ofList [("gap", .missing .double)] }
      "-(gap * 2 + 1) ^ 2").toOption.map Formula.kind) = some .double := by
    decide +kernel
  have hunfolded : ((compileUnfolded { row := Row.ofList [("gap", .missing .double)] }
      "-(gap * 2 + 1) ^ 2").toOption.any fun u =>
        u.term.arithmeticValue? (Row.ofList [("gap", .missing .integer)]) =
            some (.missing .double) ∧
          u.term.missingArrives (Row.ofList [("gap", .missing .integer)]) ∧
          u.term.height ≤ 9) = true := by
    decide +kernel
  obtain ⟨f, hf, hkind⟩ := Option.map_eq_some_iff.1 hcheck
  have hcompile := toOption_eq_some_iff.1 hf
  obtain ⟨⟨hpower, -⟩, hformulas⟩ := @missing_unless_absorbed .pow .double (.missing .double)
    (.double 2) rfl (.inl (Value.isMissing_missing .double))
  obtain ⟨u, hu, -, hrun⟩ := hformulas _ _ f hcompile
  rw [hu] at hunfolded
  obtain ⟨hvalue, harrives, hheight⟩ := of_decide_eq_true hunfolded
  refine ⟨hpower.2 (by decide +kernel), f, hcompile, fun draws => ?_⟩
  rw [← hkind]
  exact (hrun _ 9 _ draws hvalue harrives hheight).2

/-- One to a power is one even if the exponent is missing. -/
theorem missing_not_propagated :
    (¬ ∀ (op : ArithmeticOp) (k : Kind) (a b : Value), k.isNumeric = true →
      a.kind.isNumeric = true → b.kind.isNumeric = true →
      (a.isMissing = true ∨ b.isMissing = true) →
      Value.arithmetic op k a b = Value.missing k) ∧
    ∃ f, compile { row := Row.ofList [("gap", .missing .double)] } "1 ^ gap" = .ok f ∧
      (f.run { row := Row.ofList [("gap", .missing .double)] }).Returns (.double 1) := by
  constructor
  · intro hall
    have hone := hall .pow .integer (.integer 1) (.missing .integer) rfl rfl rfl (.inr (by decide))
    exact absurd hone (by decide +kernel)
  · have hcheck : ((compile { row := Row.ofList [("gap", .missing .double)] }
        "1 ^ gap").toOption.any fun f =>
          ((f.run { row := Row.ofList [("gap", .missing .double)] }).outcome default).1.toOption =
            some (.double 1)) = true := by
      decide +kernel
    obtain ⟨f, hf, hrun⟩ := (Option.any_eq_true _ _).1 hcheck
    exact ⟨f, toOption_eq_some_iff.1 hf, default,
      toOption_eq_some_iff.1 (of_decide_eq_true hrun)⟩

end Formula

end RowFormula
