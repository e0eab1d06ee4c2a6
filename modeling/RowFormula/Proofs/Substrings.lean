/-
# Parts of texts

A part of a text stands at a position and has a length, both counted in characters.  The functions
that cut a part out differ in what they do with positions outside of the text: `cut` rejects them,
`prefix` and `suffix` bring them inside, and `char` answers with the missing text.  What a number
stands for as a position is the same in all of them.
-/

import RowFormula.Proofs.ExactArithmetic
import RowFormula.Proofs.NamedOperators
import RowFormula.Proofs.Tolerance

namespace RowFormula.Catalog

open Number (clampInt64 exactValue maxInt64 minInt64 wholePart)

variable {text part a b : String} {i n : ℤ} {v w : Value} {x : Float}

/-! ### What functions answer -/

/-- The function of this name gives a value for these arguments, wherever it is called. -/
def Gives (name : String) (args : List Value) (v : Value) : Prop :=
  ∃ f, registry.get? name = some f ∧ ∀ call, f.body call args = pure v

/-- The function of this name rejects these arguments. -/
def Rejects (name : String) (args : List Value) (cause : Rejection) : Prop :=
  ∃ f, registry.get? name = some f ∧ ∀ call, f.body call args = call.reject cause

/-- The function of this name takes arguments of these kinds, calls with them have the kind `k`,
and there the body gives this value. -/
def Answers (name : String) (args : List Value) (k : Kind) (v : Value) : Prop :=
  ∃ f, registry.get? name = some f ∧ f.signature.Accepts (args.map Value.kind) ∧
    (∀ request, request.args.map ArgInfo.kind = args.map Value.kind →
      f.result.resolve request = .ok k) ∧
    ∀ call, call.resultKind = k → f.body call args = pure v

section Answers

variable {f : Function} {name : String} {args : List Value} {cause : Rejection}

theorem gives_of_mem (hf : f ∈ functions) (h : ∀ call, f.body call args = pure v) :
    Gives f.name args v := by
  obtain ⟨serial, hget⟩ := registry_has f hf
  exact ⟨_, hget, h⟩

theorem rejects_of_mem (hf : f ∈ functions) (h : ∀ call, f.body call args = call.reject cause) :
    Rejects f.name args cause := by
  obtain ⟨serial, hget⟩ := registry_has f hf
  exact ⟨_, hget, h⟩

theorem answers_of_mem {k : Kind} (hf : f ∈ functions)
    (haccepts : f.signature.Accepts (args.map Value.kind))
    (hkind : ∀ request, request.args.map ArgInfo.kind = args.map Value.kind →
      f.result.resolve request = .ok k)
    (h : ∀ call, call.resultKind = k → f.body call args = pure v) : Answers f.name args k v := by
  obtain ⟨serial, hget⟩ := registry_has f hf
  exact ⟨_, hget, haccepts, hkind, h⟩

theorem mem_functions_of_transformation (hf : f ∈ stringTransformation) : f ∈ functions := by
  simp only [functions, List.mem_append]
  tauto

theorem evaluation_pure_inj {α : Type} {a b : α}
    (h : (pure a : Evaluation EvaluationFault α) = pure b) : a = b :=
  Except.ok.inj (congrArg (fun x => (x default).1) h)

theorem evaluation_throw_inj {α : Type} {a b : EvaluationFault}
    (h : (throw a : Evaluation EvaluationFault α) = throw b) : a = b :=
  Except.error.inj (congrArg (fun x => (x default).1) h)

theorem reject_ne_pure {α : Type} {a : α} (call : Call) :
    (call.reject cause : Evaluation EvaluationFault α) ≠ pure a := by
  intro h
  cases congrArg (fun x => (x default).1) h

theorem Gives.unique (h : Gives name args v) (h' : Gives name args w) : v = w := by
  obtain ⟨f, hf, hbody⟩ := h
  obtain ⟨g, hg, hbody'⟩ := h'
  obtain rfl := Option.some.inj (hf.symm.trans hg)
  exact evaluation_pure_inj ((hbody (plainCall f)).symm.trans (hbody' (plainCall f)))

theorem Gives.not_rejects (h : Gives name args v) : ¬ Rejects name args cause := by
  rintro ⟨g, hg, hbody'⟩
  obtain ⟨f, hf, hbody⟩ := h
  obtain rfl := Option.some.inj (hf.symm.trans hg)
  exact reject_ne_pure _ ((hbody' (plainCall f)).symm.trans (hbody (plainCall f)))

theorem Answers.not_rejects {k : Kind} (h : Answers name args k v) :
    ¬ Rejects name args cause := by
  rintro ⟨g, hg, hbody'⟩
  obtain ⟨f, hf, -, -, hbody⟩ := h
  obtain rfl := Option.some.inj (hf.symm.trans hg)
  let call : Call := { plainCall f with resultKind := k }
  exact reject_ne_pure call ((hbody' call).symm.trans (hbody call rfl))

theorem Rejects.unique {cause' : Rejection} (h : Rejects name args cause)
    (h' : Rejects name args cause') : cause = cause' := by
  obtain ⟨f, hf, hbody⟩ := h
  obtain ⟨g, hg, hbody'⟩ := h'
  obtain rfl := Option.some.inj (hf.symm.trans hg)
  have hreject := (hbody (plainCall f)).symm.trans (hbody' (plainCall f))
  exact (EvaluationFault.rejected.inj (evaluation_throw_inj hreject)).2

end Answers

theorem textAt?_first (vs : List Value) : textAt? (.ofString text :: vs) 0 = some text := rfl

theorem numberAt_second (u : Value) (vs : List Value) : numberAt (u :: v :: vs) 1 = v.toNumber :=
  rfl

theorem numberAt_third (u u' : Value) (vs : List Value) :
    numberAt (u :: u' :: v :: vs) 2 = v.toNumber := rfl

/-! ### Parts -/

/-- The part of a text that stands behind `i` characters and has `n` of them. -/
def IsPart (text : String) (i n : ℤ) (part : String) : Prop :=
  ∃ before behind, text = before ++ part ++ behind ∧ (before.length : ℤ) = i ∧
    (part.length : ℤ) = n

theorem isPart_iff : IsPart text i n part ↔
    (0 ≤ i ∧ 0 ≤ n ∧ i + n ≤ text.length) ∧ part = Text.slice i.toNat n.toNat text := by
  constructor
  · rintro ⟨before, behind, rfl, rfl, rfl⟩
    refine ⟨⟨Int.natCast_nonneg _, Int.natCast_nonneg _, ?_⟩, ?_⟩
    · rw [String.length_append, String.length_append]
      omega
    · simp [Text.slice, String.toList_append, ← String.length_toList]
  · rintro ⟨⟨hi, hn, hle⟩, rfl⟩
    refine ⟨.ofList (text.toList.take i.toNat),
      .ofList ((text.toList.drop i.toNat).drop n.toNat), ?_, ?_, ?_⟩
    · apply String.toList_injective
      simp [Text.slice]
    · simp [String.length_toList]
      omega
    · simp [Text.slice, String.length_toList]
      omega

/-- There is one part wherever it lies within the text. -/
theorem exists_isPart_iff :
    (∃ part, IsPart text i n part) ↔ 0 ≤ i ∧ 0 ≤ n ∧ i + n ≤ text.length := by
  simp only [isPart_iff, exists_and_left, exists_eq, and_true]

theorem IsPart.unique (h : IsPart text i n a) (h' : IsPart text i n b) : a = b :=
  (isPart_iff.1 h).2.trans (isPart_iff.1 h').2.symm

/-! ### Positions and lengths -/

/-- The value stands for this position or length: fractions are cut off, and what lies outside of
64 bits goes to the nearer end.  The missing number stands for none. -/
def StandsFor (v : Value) (i : ℤ) : Prop :=
  v.toNumber.isNaN = false ∧ clampInt64 (wholePart (exactValue v.toNumber)) = i

theorem count?_of_isNaN (h : x.isNaN = true) : count? x = none :=
  if_pos h

theorem StandsFor.count? (h : StandsFor v i) : count? v.toNumber = some i := by
  rw [Catalog.count?, h.1, if_neg Bool.false_ne_true, Number.toInt64_eq h.1, h.2]

theorem StandsFor.bounds (h : StandsFor v i) : minInt64 ≤ i ∧ i ≤ maxInt64 := by
  rw [← h.2, clampInt64]
  unfold minInt64 maxInt64
  omega

/-- Natural numbers stand for themselves. -/
theorem standsFor_of_isNatural {n : ℕ} (h : Number.IsNatural n v.toNumber) (hle : n ≤ 2 ^ 53) :
    StandsFor v n := by
  have hcount := h.toInt64 hle
  rw [Number.toInt64_eq h.isNaN] at hcount
  exact ⟨h.isNaN, hcount⟩

theorem standsFor_of_toInt64 (h : x.isNaN = false) (hi : Number.toInt64 x = i) :
    StandsFor (.double x) i :=
  ⟨h, (Number.toInt64_eq h).symm.trans hi⟩

/-! ### Cutting -/

theorem cut_of_within (h : 0 ≤ i ∧ 0 ≤ n ∧ i + n ≤ text.length) :
    cut text i n = .ok (Text.slice i.toNat n.toNat text) := by
  have hclamp : clampInt64 (i + n) ≤ i + n := by
    unfold clampInt64 minInt64 maxInt64
    omega
  unfold cut
  rw [if_neg (by omega), if_neg (by omega)]

/-- The position that a part outside of the text is rejected with. -/
def offendingIndex (text : String) (i n : ℤ) : ℤ :=
  if i < 0 ∨ (text.length : ℤ) < i then i else clampInt64 (i + n)

/-- The end of a part does not wrap around, however large its length is. -/
theorem cut_of_not_within (hsize : (text.length : ℤ) < maxInt64) (hn : n ≤ maxInt64)
    (h : ¬ (0 ≤ i ∧ 0 ≤ n ∧ i + n ≤ text.length)) :
    cut text i n = .error (offendingIndex text i n) := by
  unfold cut offendingIndex
  by_cases hstart : i < 0 ∨ (text.length : ℤ) < i
  · rw [if_pos hstart, if_pos hstart]
  · rw [if_neg hstart, if_neg hstart, if_pos]
    unfold clampInt64 minInt64 maxInt64 at *
    omega

theorem cut_body (call : Call) (hv : StandsFor v i) (hw : StandsFor w n) :
    cutting.body call [.ofString text, v, w] =
      match cut text i n with
      | .ok part => pure (.ofString part)
      | .error j => call.reject (.indexOutOfRange (Number.ofInt j) text.length) := by
  cases hcut : cut text i n <;>
    simp only [cutting, textAt?_first, numberAt_second, numberAt_third, hv.count?, hw.count?, hcut]

theorem cutting_mem : cutting ∈ functions :=
  mem_functions_of_transformation (List.mem_of_getElem? (i := 3) rfl)

/-- A part within the text is what `cut` gives. -/
theorem gives_cut (hv : StandsFor v i) (hw : StandsFor w n) (h : IsPart text i n part) :
    Gives "cut" [.ofString text, v, w] (.ofString part) := by
  obtain ⟨hwithin, rfl⟩ := isPart_iff.1 h
  refine gives_of_mem cutting_mem fun call => ?_
  rw [cut_body call hv hw, cut_of_within hwithin]

theorem rejects_cut (hsize : (text.length : ℤ) < maxInt64) (hv : StandsFor v i)
    (hw : StandsFor w n) (h : ¬ (0 ≤ i ∧ 0 ≤ n ∧ i + n ≤ text.length)) :
    Rejects "cut" [.ofString text, v, w]
      (.indexOutOfRange (Number.ofInt (offendingIndex text i n)) text.length) := by
  refine rejects_of_mem cutting_mem fun call => ?_
  rw [cut_body call hv hw, cut_of_not_within hsize hw.bounds.2 h]

theorem gives_cut_missing (h : v.toNumber.isNaN = true ∨ w.toNumber.isNaN = true) :
    Gives "cut" [.ofString text, v, w] (.missing .string) := by
  refine gives_of_mem cutting_mem fun call => ?_
  simp only [cutting, textAt?_first, numberAt_second, numberAt_third]
  obtain h | h := h
  · rw [count?_of_isNaN h]
  · rw [count?_of_isNaN h]
    cases count? v.toNumber <;> rfl

/-! ### Beginnings, ends and characters -/

section Count

variable {name description : String} {f : String → ℤ → Option String}
  (hf : countFunction name description f ∈ functions)
include hf

theorem gives_count (hv : StandsFor v n) :
    Gives name [.ofString text, v] (.string (f text n)) := by
  refine gives_of_mem hf fun call => ?_
  simp only [countFunction, textAt?_first, numberAt_second, hv.count?]

theorem gives_count_missing (h : v.toNumber.isNaN = true) :
    Gives name [.ofString text, v] (.missing .string) := by
  refine gives_of_mem hf fun call => ?_
  simp only [countFunction, textAt?_first, numberAt_second, count?_of_isNaN h]

end Count

/-- A length, brought into the text. -/
def keptLength (text : String) (n : ℤ) : ℤ :=
  max 0 (min n text.length)

theorem isPart_front (text : String) (n : ℤ) :
    IsPart text 0 (keptLength text n) (front text n) := by
  have hlength : text.toList.length = text.length := String.length_toList
  refine isPart_iff.2 ⟨by unfold keptLength; omega, ?_⟩
  rw [front, Text.front, Text.slice, Int.toNat_zero, List.drop_zero]
  refine congrArg String.ofList (List.take_eq_take_iff.2 ?_)
  unfold keptLength
  omega

theorem isPart_back (text : String) (n : ℤ) :
    IsPart text (text.length - keptLength text n) (keptLength text n) (back text n) := by
  have hlength : text.toList.length = text.length := String.length_toList
  refine isPart_iff.2 ⟨by unfold keptLength; omega, ?_⟩
  have hposition : (text.length - keptLength text n : ℤ).toNat = text.length - n.toNat := by
    unfold keptLength
    omega
  rw [back, Text.back, Text.slice, hposition, List.take_of_length_le]
  rw [List.length_drop]
  unfold keptLength
  omega

theorem charAt?_eq_some_iff : charAt? text i = some part ↔ IsPart text i 1 part := by
  have hlength : text.toList.length = text.length := String.length_toList
  rw [isPart_iff, charAt?]
  split
  · rename_i hneg
    simp [not_le.2 hneg]
  · rename_i hneg
    by_cases hi : i.toNat < text.toList.length
    · have hslice : Text.slice i.toNat 1 text = String.singleton text.toList[i.toNat] := by
        rw [Text.slice, List.take_one_drop_eq_of_lt_length hi]
        rfl
      rw [List.getElem?_eq_getElem hi, Option.map_some, Option.some_inj,
        show (1 : ℤ).toNat = 1 from rfl, hslice, and_iff_right (by omega)]
      exact eq_comm
    · rw [List.getElem?_eq_none (not_lt.1 hi), Option.map_none]
      constructor
      · rintro ⟨⟩
      · rintro ⟨hwithin, -⟩
        omega

theorem front_append_back (hn : 0 ≤ n) (hle : n ≤ text.length) :
    front text n ++ back text (text.length - n) = text := by
  have hposition : text.length - (text.length - n : ℤ).toNat = n.toNat := by omega
  rw [front, Text.front, back, Text.back, hposition]
  apply String.toList_injective
  rw [String.toList_append, String.toList_ofList, String.toList_ofList, List.take_append_drop]

theorem gives_prefix (hv : StandsFor v n) :
    Gives "prefix" [.ofString text, v] (.ofString (front text n)) :=
  gives_count (f := fun text n => some (front text n))
    (mem_functions_of_transformation (List.mem_of_getElem? (i := 4) rfl)) hv

theorem gives_suffix (hv : StandsFor v n) :
    Gives "suffix" [.ofString text, v] (.ofString (back text n)) :=
  gives_count (f := fun text n => some (back text n))
    (mem_functions_of_transformation (List.mem_of_getElem? (i := 5) rfl)) hv

theorem gives_char (hv : StandsFor v i) :
    Gives "char" [.ofString text, v] (.string (charAt? text i)) :=
  gives_count (mem_functions_of_transformation (List.mem_of_getElem? (i := 6) rfl)) hv

theorem gives_missing (h : v.toNumber.isNaN = true) {name : String}
    (hname : name ∈ ["prefix", "suffix", "char"]) :
    Gives name [.ofString text, v] (.missing .string) := by
  simp only [List.mem_cons, List.not_mem_nil, or_false] at hname
  obtain rfl | rfl | rfl := hname
  · exact gives_count_missing (f := fun text n => some (front text n))
      (mem_functions_of_transformation (List.mem_of_getElem? (i := 4) rfl)) h
  · exact gives_count_missing (f := fun text n => some (back text n))
      (mem_functions_of_transformation (List.mem_of_getElem? (i := 5) rfl)) h
  · exact gives_count_missing (f := charAt?)
      (mem_functions_of_transformation (List.mem_of_getElem? (i := 6) rfl)) h

/-! ### Four functions, one notion of a part -/

/-- The part is the one at this place, and `cut` gives it for all numbers that stand for the
place. -/
def IsCut (text : String) (i n : ℤ) (part : String) : Prop :=
  IsPart text i n part ∧
    ∀ v w, StandsFor v i → StandsFor w n → Gives "cut" [.ofString text, v, w] (.ofString part)

theorem IsPart.isCut (h : IsPart text i n part) : IsCut text i n part :=
  ⟨h, fun _ _ hv hw => gives_cut hv hw h⟩

theorem gives_cut_iff (hsize : (text.length : ℤ) < maxInt64) (hv : StandsFor v i)
    (hw : StandsFor w n) :
    Gives "cut" [.ofString text, v, w] (.ofString part) ↔ IsPart text i n part := by
  refine ⟨fun h => ?_, gives_cut hv hw⟩
  by_cases hwithin : 0 ≤ i ∧ 0 ≤ n ∧ i + n ≤ text.length
  · obtain ⟨part', hpart'⟩ := exists_isPart_iff.2 hwithin
    obtain rfl : part = part' := by
      have heq := h.unique (gives_cut hv hw hpart')
      injection heq with heq
      exact Option.some.inj heq
    exact hpart'
  · exact absurd (rejects_cut hsize hv hw hwithin) h.not_rejects

theorem rejects_cut_iff (hsize : (text.length : ℤ) < maxInt64) (hv : StandsFor v i)
    (hw : StandsFor w n) :
    (∃ j, Rejects "cut" [.ofString text, v, w] (.indexOutOfRange j text.length)) ↔
      ¬ (0 ≤ i ∧ 0 ≤ n ∧ i + n ≤ text.length) := by
  refine ⟨?_, fun h => ⟨_, rejects_cut hsize hv hw h⟩⟩
  rintro ⟨j, hrejects⟩ hwithin
  obtain ⟨part, hpart⟩ := exists_isPart_iff.2 hwithin
  exact (gives_cut hv hw hpart).not_rejects hrejects

/-- What the four functions give for a text and numbers.  The end of a part of which position and
length add up to more than 64 bits hold is the greatest number of these, and a text that reaches so
far does not fit into any memory; in all shorter ones `cut` tells exactly where a part ends. -/
theorem substrings_exact (text : String) :
    (∀ v w, v.toNumber.isNaN = true ∨ w.toNumber.isNaN = true →
      Gives "cut" [.ofString text, v, w] (.missing .string)) ∧
    (∀ v, v.toNumber.isNaN = true → ∀ name ∈ ["prefix", "suffix", "char"],
      Gives name [.ofString text, v] (.missing .string)) ∧
    ((text.length : ℤ) < maxInt64 → ∀ v w i n, StandsFor v i → StandsFor w n →
      ((∃ part, Gives "cut" [.ofString text, v, w] (.ofString part)) ↔
        0 ≤ i ∧ 0 ≤ n ∧ i + n ≤ text.length) ∧
      ((∃ j, Rejects "cut" [.ofString text, v, w] (.indexOutOfRange j text.length)) ↔
        ¬ (0 ≤ i ∧ 0 ≤ n ∧ i + n ≤ text.length)) ∧
      ∀ part, Gives "cut" [.ofString text, v, w] (.ofString part) ↔ IsPart text i n part) ∧
    (∀ v n, StandsFor v n → ∃ m, m = max 0 (min n text.length) ∧
      (∃ part, Gives "prefix" [.ofString text, v] (.ofString part) ∧ IsCut text 0 m part) ∧
      ∃ part, Gives "suffix" [.ofString text, v] (.ofString part) ∧
        IsCut text (text.length - m) m part) ∧
    (∀ v i, StandsFor v i →
      (0 ≤ i ∧ i < text.length → ∃ part,
        Gives "char" [.ofString text, v] (.ofString part) ∧ IsCut text i 1 part) ∧
      (¬ (0 ≤ i ∧ i < text.length) → Gives "char" [.ofString text, v] (.missing .string))) ∧
    ∀ v w n, StandsFor v n → StandsFor w (text.length - n) → 0 ≤ n → n ≤ text.length →
      ∃ a b, Gives "prefix" [.ofString text, v] (.ofString a) ∧
        Gives "suffix" [.ofString text, w] (.ofString b) ∧ a ++ b = text := by
  refine ⟨fun v w => gives_cut_missing, fun v h name hname => gives_missing h hname,
    fun hsize v w i n hv hw =>
      ⟨?_, rejects_cut_iff hsize hv hw, fun part => gives_cut_iff hsize hv hw⟩,
    fun v n hv => ⟨_, rfl, ⟨_, gives_prefix hv, (isPart_front text n).isCut⟩,
      ⟨_, gives_suffix hv, (isPart_back text n).isCut⟩⟩,
    fun v i hv => ⟨fun hi => ?_, fun hi => ?_⟩, fun v w n hv hw hn hle =>
      ⟨_, _, gives_prefix hv, gives_suffix hw, front_append_back hn hle⟩⟩
  · rw [← exists_isPart_iff]
    exact exists_congr fun part => gives_cut_iff hsize hv hw
  · obtain ⟨part, hpart⟩ := exists_isPart_iff.2 (show 0 ≤ i ∧ 0 ≤ 1 ∧ i + 1 ≤ text.length by omega)
    have hchar : Gives "char" [.ofString text, v] (.string (charAt? text i)) := gives_char hv
    rw [charAt?_eq_some_iff.2 hpart] at hchar
    exact ⟨part, hchar, hpart.isCut⟩
  · have hchar : Gives "char" [.ofString text, v] (.string (charAt? text i)) := gives_char hv
    cases hfound : charAt? text i with
    | none => rwa [hfound] at hchar
    | some part =>
        have hwithin := exists_isPart_iff.1 ⟨part, charAt?_eq_some_iff.1 hfound⟩
        omega

theorem substrings_exact_of_accents :
    (("h\u00e9llo".length : ℤ) < maxInt64) ∧ StandsFor (.double 1.0) 1 ∧
      StandsFor (.double 3.75) 3 ∧ StandsFor (.double 1e300) maxInt64 ∧
      Gives "cut" [.ofString "h\u00e9llo", .double 1.0, .double 3.75] (.ofString "\u00e9ll") ∧
      ∃ j, Rejects "cut" [.ofString "h\u00e9llo", .double 1.0, .double 1e300]
        (.indexOutOfRange j 5) := by
  have hsize : ("h\u00e9llo".length : ℤ) < maxInt64 := by decide
  have hone : StandsFor (.double 1.0) 1 :=
    standsFor_of_toInt64 (by decide) (by decide)
  have hthree : StandsFor (.double 3.75) 3 :=
    standsFor_of_toInt64 (by decide) (by decide)
  have hhuge : StandsFor (.double 1e300) maxInt64 :=
    standsFor_of_toInt64 (by decide +kernel) (by decide +kernel)
  obtain ⟨-, -, hcut, -⟩ := substrings_exact "h\u00e9llo"
  have hcut := hcut hsize
  refine ⟨hsize, hone, hthree, hhuge, ?_, ?_⟩
  · exact ((hcut _ _ _ _ hone hthree).2.2 _).2 ⟨"h", "o", rfl, rfl, rfl⟩
  · exact (hcut _ _ _ _ hone hhuge).2.1.2 (by decide)

end RowFormula.Catalog
