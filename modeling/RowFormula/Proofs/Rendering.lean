/-
# Numbers survive their writing

Every writing of a number spells a numeral of its shortest decimal: with or without an exponent,
with or without a mark on whole numbers.  Reading the text back therefore gives the number, and
the text of a value as formulas show it stands for exactly the numbers that are equal to it.
-/

import RowFormula.Proofs.Equality
import RowFormula.Proofs.Shortest

namespace RowFormula.Number

open Grammar (Digits Exponent IsDigits Numeral)

/-! ### Digits -/

theorem digitsValue_eq (cs : List Char) : digitsValue cs = Nat.ofDigitChars 10 cs 0 := rfl

theorem digitsValue_toDigits (n : ℕ) : digitsValue (Nat.toDigits 10 n) = n := by
  rw [digitsValue_eq, Nat.ofDigitChars_ten_toDigits]

/-- Zeros behind digits scale them, and zeros in front of them do not count. -/
theorem digitsValue_append_zeros (cs : List Char) (k : ℕ) :
    digitsValue (cs ++ List.replicate k '0') = digitsValue cs * 10 ^ k := by
  rw [digitsValue_eq, Nat.ofDigitChars_append, Nat.ofDigitChars_replicate_zero, Nat.mul_comm]
  rfl

theorem digitsValue_zeros_append (cs : List Char) (k : ℕ) :
    digitsValue (List.replicate k '0' ++ cs) = digitsValue cs := by
  rw [digitsValue_eq, Nat.ofDigitChars_append, Nat.ofDigitChars_replicate_zero, Nat.mul_zero]
  rfl

theorem isDigits_toDigits (n : ℕ) : IsDigits (Nat.toDigits 10 n) :=
  ⟨Nat.toDigits_ne_nil, fun _ hc => Nat.isDigit_of_mem_toDigits (by decide) (by decide) hc⟩

theorem isDigit_zeros (k : ℕ) : ∀ c ∈ List.replicate k '0', c.isDigit = true := by
  intro c hc
  rw [List.eq_of_mem_replicate hc]
  rfl

/-! ### Writing a decimal -/

/-- The text spells a numeral with the value of the decimal. -/
def Spells (text : String) (d : Decimal) : Prop :=
  ∃ n : Numeral, n.chars = text.toList ∧ n.decimal.value = d.value

namespace DecimalStyle

variable {d : Decimal} {cs : List Char} {k : ℕ}

/-- Digits without a point, or with a point behind all of them. -/
theorem spells_whole (hcs : IsDigits cs) (hexponent : d.exponent = k)
    (hvalue : digitsValue cs = d.digits * 10 ^ k) (marksWhole : Bool) :
    Spells (String.ofList cs ++ if marksWhole then ".0" else "") d := by
  cases marksWhole with
  | false =>
      refine ⟨.integer ⟨_, hcs⟩, ?_, ?_⟩
      · simp [Numeral.chars, Numeral.whole, Numeral.hasPoint, Numeral.exponent?]
      · simp [Numeral.decimal, Numeral.whole, Numeral.fraction, Numeral.exponent?, Decimal.value,
          hvalue, hexponent]
  | true =>
      have hmarked : digitsValue (cs ++ ['0']) = d.digits * 10 ^ k * 10 := by
        rw [← hvalue]
        exact digitsValue_append_zeros _ 1
      refine ⟨.point ⟨_, hcs⟩ ⟨['0'], isDigit_zeros 1⟩ none, ?_, ?_⟩
      · simp [Numeral.chars, Numeral.whole, Numeral.fraction, Numeral.hasPoint, Numeral.exponent?]
      · simp [Numeral.decimal, Numeral.whole, Numeral.fraction, Numeral.exponent?, Decimal.value,
          hmarked, hexponent]

/-- Digits with a point in front of the last ones. -/
theorem spells_fraction (hcs : ∀ c ∈ cs, c.isDigit = true) (hlong : k < cs.length)
    (hexponent : d.exponent = -k) (hvalue : digitsValue cs = d.digits) :
    Spells (String.ofList (cs.take (cs.length - k)) ++ "." ++
      String.ofList (cs.drop (cs.length - k))) d := by
  have hwhole : IsDigits (cs.take (cs.length - k)) := by
    refine ⟨?_, fun c hc => hcs c (List.mem_of_mem_take hc)⟩
    rw [← List.length_pos_iff_ne_nil, List.length_take]
    omega
  refine ⟨.point ⟨_, hwhole⟩ ⟨cs.drop (cs.length - k), fun c hc => hcs c (List.mem_of_mem_drop hc)⟩
    none, ?_, ?_⟩
  · simp [Numeral.chars, Numeral.whole, Numeral.fraction, Numeral.hasPoint, Numeral.exponent?]
  · simp only [Numeral.decimal, Numeral.whole, Numeral.fraction, Numeral.exponent?, Decimal.value,
      List.take_append_drop, hvalue, List.length_drop, hexponent, Option.map_none, Option.getD_none]
    congr 2
    omega

theorem spells_positionalText (marksWhole : Bool) (d : Decimal) :
    Spells (positionalText marksWhole d) d := by
  obtain ⟨hne, hdigits⟩ := isDigits_toDigits d.digits
  rw [positionalText]
  dsimp only
  split
  · rename_i he
    refine spells_whole ⟨List.append_ne_nil_of_left_ne_nil hne _, ?_⟩
      (Int.toNat_of_nonneg he).symm ?_ marksWhole
    · exact List.forall_mem_append.2 ⟨hdigits, isDigit_zeros _⟩
    · rw [digitsValue_append_zeros, digitsValue_toDigits]
  · rename_i he
    refine spells_fraction ?_ ?_ (by omega) ?_
    · exact List.forall_mem_append.2 ⟨isDigit_zeros _, hdigits⟩
    · rw [List.length_append, List.length_replicate]
      omega
    · rw [digitsValue_zeros_append, digitsValue_toDigits]

/-- The exponent with its sign, as the texts spell it. -/
theorem exists_exponent (plusExponent : Bool) (e : ℤ) :
    ∃ spelled : Exponent, spelled.value = e ∧ spelled.chars =
      ("e" ++ (if plusExponent && 0 ≤ e then "+" else "") ++ Text.signedDecimal e).toList := by
  cases e with
  | ofNat n =>
      have hvalue : ((digitsValue (Nat.toDigits 10 n) : ℕ) : ℤ) = n := by rw [digitsValue_toDigits]
      cases plusExponent with
      | false =>
          refine ⟨⟨⟨'e', rfl⟩, none, ⟨_, isDigits_toDigits n⟩⟩, hvalue, ?_⟩
          simp [Exponent.chars, Text.signedDecimal, Text.decimal]
      | true =>
          refine ⟨⟨⟨'e', rfl⟩, some ⟨'+', rfl⟩, ⟨_, isDigits_toDigits n⟩⟩, hvalue, ?_⟩
          simp [Exponent.chars, Text.signedDecimal, Text.decimal]
  | negSucc n =>
      refine ⟨⟨⟨'e', rfl⟩, some ⟨'-', rfl⟩, ⟨_, isDigits_toDigits (n + 1)⟩⟩, ?_, ?_⟩
      · have hvalue : -((digitsValue (Nat.toDigits 10 (n + 1)) : ℕ) : ℤ) = Int.negSucc n := by
          rw [digitsValue_toDigits, Int.negSucc_eq]
          rfl
        exact hvalue
      · simp [Exponent.chars, Text.signedDecimal, Text.decimal]

theorem spells_exponentText (plusExponent : Bool) (d : Decimal) :
    Spells (exponentText plusExponent d) d := by
  obtain ⟨spelled, hvalue, hchars⟩ := exists_exponent plusExponent d.leadingExponent
  obtain ⟨hne, hdigits⟩ := isDigits_toDigits d.digits
  have hdigitsValue := digitsValue_toDigits d.digits
  rw [Decimal.leadingExponent, Decimal.digitCount] at hvalue
  rw [exponentText]
  generalize Nat.toDigits 10 d.digits = digits at *
  cases digits with
  | nil => exact absurd rfl hne
  | cons c rest =>
      cases rest with
      | nil =>
          refine ⟨.exponent ⟨[c], hne, hdigits⟩ spelled, ?_, ?_⟩
          · simp [Numeral.chars, Numeral.whole, Numeral.hasPoint, Numeral.exponent?, hchars]
          · simp [Numeral.decimal, Numeral.whole, Numeral.fraction, Numeral.exponent?,
              Decimal.value, hdigitsValue, hvalue]
      | cons c' rest =>
          obtain ⟨hfirst, hrest⟩ := List.forall_mem_cons.1 hdigits
          refine ⟨.point ⟨[c], List.cons_ne_nil _ _, List.forall_mem_singleton.2 hfirst⟩
            ⟨c' :: rest, hrest⟩ (some spelled), ?_, ?_⟩
          · simp [Numeral.chars, Numeral.whole, Numeral.fraction, Numeral.hasPoint,
              Numeral.exponent?, hchars]
          · simp only [Numeral.decimal, Numeral.whole, Numeral.fraction, Numeral.exponent?,
              Decimal.value, List.cons_append, List.nil_append, hdigitsValue, Option.map_some,
              Option.getD_some, hvalue, List.length_cons]
            congr 2
            push_cast
            omega

end DecimalStyle

/-! ### Reading a text -/

/-- The characters that numerals consist of. -/
def isNumeralChar (c : Char) : Bool :=
  c.isDigit || c == '.' || c == 'e' || c == 'E' || c == '+' || c == '-'

theorem isNumeralChar_of_isDigit {c : Char} (h : c.isDigit = true) : isNumeralChar c = true := by
  simp [isNumeralChar, h]

theorem isNumeralChar_exponent (e : Exponent) : ∀ c ∈ e.chars, isNumeralChar c = true := by
  obtain ⟨⟨letter, hletter⟩, sign?, digits⟩ := e
  have hdigits : ∀ c ∈ digits.1, isNumeralChar c = true :=
    fun c hc => isNumeralChar_of_isDigit (digits.2.2 c hc)
  refine List.forall_mem_cons.2 ⟨?_, List.forall_mem_append.2 ⟨?_, hdigits⟩⟩
  · obtain h | h := Bool.or_eq_true _ _ ▸ hletter <;>
      · obtain rfl := eq_of_beq h
        rfl
  · cases sign? with
    | none => exact List.forall_mem_nil _
    | some sign =>
        obtain ⟨sign, hsign⟩ := sign
        refine List.forall_mem_singleton.2 ?_
        obtain h | h := Bool.or_eq_true _ _ ▸ hsign <;>
          · obtain rfl := eq_of_beq h
            rfl

theorem isNumeralChar_chars (n : Numeral) : ∀ c ∈ n.chars, isNumeralChar c = true := by
  have hdigits : ∀ {cs : List Char}, (∀ c ∈ cs, c.isDigit = true) →
      ∀ c ∈ cs, isNumeralChar c = true := fun h c hc => isNumeralChar_of_isDigit (h c hc)
  refine List.forall_mem_append.2 ⟨hdigits n.isDigit_whole, List.forall_mem_append.2 ⟨?_, ?_⟩⟩
  · split
    · exact List.forall_mem_cons.2 ⟨rfl, hdigits n.isDigit_fraction⟩
    · exact List.forall_mem_nil _
  · cases n.exponent? with
    | none => exact List.forall_mem_nil _
    | some e => exact isNumeralChar_exponent e

theorem isBlank_of_isNumeralChar {c : Char} (h : isNumeralChar c = true) :
    Text.isBlank c = false := by
  simp only [isNumeralChar, Bool.or_eq_true, beq_iff_eq] at h
  obtain ((((h | rfl) | rfl) | rfl) | rfl) | rfl := h
  · have hrange : 48 ≤ c.toNat ∧ c.toNat ≤ 57 := Char.isDigit_iff_toNat.1 h
    simp only [Text.isBlank, Bool.or_eq_false_iff, Bool.and_eq_false_iff, decide_eq_false_iff_not,
      beq_eq_false_iff_ne]
    omega
  all_goals rfl

theorem trim_of_isNumeralChar {s : String} (h : ∀ c ∈ s.toList, isNumeralChar c = true) :
    Text.trim s = s := by
  have hkeeps : ∀ {cs : List Char}, (∀ c ∈ cs, isNumeralChar c = true) →
      cs.dropWhile Text.isBlank = cs := fun hcs =>
    Text.trimFront_eq_self fun c hc => isBlank_of_isNumeralChar (hcs c (List.mem_of_head? hc))
  have hreverse : ∀ c ∈ s.toList.reverse, isNumeralChar c = true := by
    simpa only [List.mem_reverse] using h
  rw [Text.trim, Text.trimFront, hkeeps h, Text.trimBack, hkeeps hreverse, List.reverse_reverse,
    String.ofList_toList]

/-- A text of such characters is none of the words for an infinity. -/
theorem ofText_of_isNumeralChar {s : String} (h : ∀ c ∈ s.toList, isNumeralChar c = true) :
    ofText s = (read? s).getD nan := by
  rw [ofText, trim_of_isNumeralChar h]
  split
  · exact absurd (h '∞' (by simp)) (by decide)
  · exact absurd (h '∞' (by simp)) (by decide)
  · exact absurd (h '∞' (by simp)) (by decide)
  · rfl

/-- Reading a numeral gives the number that it denotes. -/
theorem ofText_numeral {n : Numeral} {s : String} (h : n.chars = s.toList) :
    ofText s = n.denoted := by
  have hread := n.read?_chars
  rw [h, String.ofList_toList] at hread
  rw [ofText_of_isNumeralChar (h ▸ isNumeralChar_chars n), hread, Option.getD_some]

theorem ofText_negative_numeral {n : Numeral} {s : String} (h : n.chars = s.toList) :
    ofText ("-" ++ s) = -n.denoted := by
  have hchars : ("-" ++ s).toList = '-' :: n.chars := by rw [String.toList_append, h]; rfl
  have hread : read? ("-" ++ s) = some (-n.denoted) := by
    rw [read?, hchars]
    simp only [n.magnitude?_chars, Option.map_some]
  rw [ofText_of_isNumeralChar, hread, Option.getD_some]
  rw [hchars]
  exact List.forall_mem_cons.2 ⟨rfl, isNumeralChar_chars n⟩

/-! ### Reading back -/

section ReadingBack

variable {x y : Float}

/-- The text of a magnitude, in positional notation or with an exponent. -/
def DecimalStyle.magnitudeText (style : DecimalStyle) (d : Decimal) : String :=
  if d.digits = 0 || style.positional d.leadingExponent then
    positionalText style.marksWhole d
  else exponentText style.plusExponent d

theorem DecimalStyle.spells_magnitudeText (style : DecimalStyle) (d : Decimal) :
    Spells (style.magnitudeText d) d := by
  unfold magnitudeText
  split
  · exact spells_positionalText _ d
  · exact spells_exponentText _ d

/-- The sign stands in front of the magnitude. -/
theorem DecimalStyle.write_eq (style : DecimalStyle) (x : Float) : style.write x =
    if (Dyadic.ofFloat x).negative && (style.signsZero || (Dyadic.ofFloat x).shortest.digits != 0)
    then "-" ++ style.magnitudeText (Dyadic.ofFloat x).shortest
    else style.magnitudeText (Dyadic.ofFloat x).shortest := rfl

/-- Whatever the style, the text of a finite number reads back as the number.  The exception is
the negative zero, which keeps its sign only if the style writes it. -/
theorem ofText_write (style : DecimalStyle) (h : x.isFinite = true) :
    ofText (style.write x) = x ∨
      (x = -0.0 ∧ style.signsZero = false ∧ ofText (style.write x) = 0.0) := by
  obtain ⟨n, hn, hvalue⟩ := style.spells_magnitudeText (Dyadic.ofFloat x).shortest
  have hplain := ofText_numeral hn
  have hsigned := ofText_negative_numeral hn
  rw [style.write_eq]
  obtain ⟨hzero, hunpack⟩ | ⟨hc, hunpack⟩ := unpack_ofFloat h
  · have hshortest : (Dyadic.ofFloat x).shortest = ⟨0, 0⟩ := if_pos hzero
    have hdenoted : n.denoted = 0.0 := by
      refine Decimal.denoted_of_digits_eq_zero ?_
      rw [hshortest, Decimal.value, Decimal.value] at hvalue
      simpa [zpow_ne_zero] using hvalue
    have hx : Float.ofModel (.pack (.zero (Dyadic.ofFloat x).sign)) = x := by
      rw [← hunpack, ofModel_pack_unpack]
    have hdigits : (Dyadic.ofFloat x).shortest.digits = 0 := by rw [hshortest]
    rw [hdigits]
    cases hnegative : (Dyadic.ofFloat x).negative with
    | false =>
        refine .inl (hplain.trans (hdenoted.trans ?_))
        rw [← hx, Dyadic.sign, hnegative]
        rfl
    | true =>
        have hx' : x = -0.0 := by
          rw [← hx, Dyadic.sign, hnegative]
          rfl
        cases hstyle : style.signsZero with
        | true =>
            refine .inl (hsigned.trans ?_)
            rw [hdenoted, hx']
        | false => exact .inr ⟨hx', rfl, hplain.trans hdenoted⟩
  · have hdenoted : n.denoted = stored .positive hc := by
      refine Decimal.denoted_of_roundsTo hc ?_
      rw [hvalue]
      exact Dyadic.roundsTo_shortest hc
    have hdigits : (Dyadic.ofFloat x).shortest.digits ≠ 0 := by
      intro hzero
      have hpos := (Dyadic.roundsTo_shortest hc).pos hc
      rw [Decimal.value, hzero, Nat.cast_zero, zero_mul] at hpos
      exact lt_irrefl 0 hpos
    rw [bne_iff_ne.2 hdigits, Bool.or_true, Bool.and_true]
    have hx := stored_of_unpack hc hunpack
    left
    cases hnegative : (Dyadic.ofFloat x).negative with
    | false =>
        rw [if_neg Bool.false_ne_true, hplain, hdenoted]
        rwa [Dyadic.sign, hnegative] at hx
    | true =>
        rw [if_pos rfl, hsigned, hdenoted, neg_stored]
        rwa [Dyadic.sign, hnegative] at hx

theorem eq_infinity_of_not_isFinite (hnan : x.isNaN = false) (h : x.isFinite = false) :
    x = infinity ∨ x = negInfinity := by
  change x.toModel.unpack.isNaN = false at hnan
  change x.toModel.unpack.isFinite = false at h
  rw [← ofModel_pack_unpack x]
  cases hunpack : x.toModel.unpack with
  | notANumber =>
      rw [hunpack] at hnan
      cases hnan
  | zero | finite =>
      rw [hunpack] at h
      cases h
  | infinity s =>
      cases s with
      | positive => exact .inl rfl
      | negative => exact .inr rfl

/-- The text of a number reads back as the number; only the sign of zero is lost. -/
theorem exists_minimalText?_ofText (h : x.isNaN = false) :
    ∃ t, minimalText? x = some t ∧ (ofText t = x ∨ (x = -0.0 ∧ ofText t = 0.0)) := by
  rw [minimalText?, h, if_neg Bool.false_ne_true]
  cases hfinite : x.isFinite with
  | true =>
      refine ⟨_, rfl, ?_⟩
      obtain hback | ⟨hzero, -, hback⟩ := ofText_write .minimal hfinite
      · exact .inl hback
      · exact .inr ⟨hzero, hback⟩
  | false =>
      refine ⟨_, rfl, .inl ?_⟩
      obtain rfl | rfl := eq_infinity_of_not_isFinite h hfinite
      · rfl
      · rfl

/-- The same in terms of equality, for which the sign of zero does not count. -/
theorem ofText_beq {t : String} (ht : minimalText? x = some t) : (ofText t == x) = true := by
  have hnan : x.isNaN = false := by
    refine Bool.eq_false_iff.2 fun h => ?_
    rw [minimalText?, if_pos h] at ht
    cases ht
  obtain ⟨t', ht', hback⟩ := exists_minimalText?_ofText hnan
  obtain rfl := Option.some.inj (ht.symm.trans ht')
  obtain hback | ⟨rfl, hback⟩ := hback
  · rw [hback]
    exact beq_self hnan
  · rw [hback]
    rfl

/-- Numbers have the same text exactly if they are equal. -/
theorem minimalText?_eq_iff (hx : x.isNaN = false) (hy : y.isNaN = false) :
    minimalText? x = minimalText? y ↔ (x == y) = true := by
  constructor
  · intro h
    obtain ⟨t, ht⟩ := exists_minimalText? hx
    exact BEq.trans (BEq.symm (ofText_beq ht)) (ofText_beq (h ▸ ht))
  · intro h
    obtain ⟨-, -, rfl | ⟨rfl, rfl⟩ | ⟨rfl, rfl⟩⟩ := Float.beq_iff_ne_nan_and_eq.1 h
    · rfl
    · rfl
    · rfl

end ReadingBack

end RowFormula.Number

namespace RowFormula.Value

open Number

theorem text?_of_isNumeric {v : Value} (hv : v.kind.isNumeric = true) :
    v.text? = minimalText? v.toNumber := by
  cases v with
  | integer x | double x => rfl
  | boolean | string | date => cases hv

theorem equalsPresent_of_isNumeric {v w : Value} (hv : v.kind.isNumeric = true)
    (hw : w.kind.isNumeric = true) : equalsPresent v w = (v.toNumber == w.toNumber) := by
  cases v with
  | integer x | double x =>
      cases w with
      | integer y | double y => rfl
      | boolean | string | date => cases hw
  | boolean | string | date => cases hv

/-- The text of numbers in formulas loses nothing but the sign of zero: every number that is
there has a text that reads back as a number equal to it.  So two numbers have the same text
exactly if they are equal, and a text is equal to two numeric values only if these are equal. -/
theorem numbers_survive_text :
    (∀ x : Float, x.isNaN = false → ∃ t, minimalText? x = some t ∧ (ofText t == x) = true ∧
      (ofText t = x ∨ (x = -0.0 ∧ ofText t = 0.0))) ∧
    (∀ x y : Float, x.isNaN = false → y.isNaN = false →
      (minimalText? x = minimalText? y ↔ (x == y) = true)) ∧
    ∀ (a b : Value) (s : String), a.kind.isNumeric = true → b.kind.isNumeric = true →
      a.equals (ofString s) = true → b.equals (ofString s) = true → a.equals b = true := by
  refine ⟨?_, fun _ _ => minimalText?_eq_iff, ?_⟩
  · intro x hx
    obtain ⟨t, ht, hback⟩ := exists_minimalText?_ofText hx
    exact ⟨t, ht, ofText_beq ht, hback⟩
  · intro a b s ha hb has hbs
    have hmissing : a.isMissing = false := isMissing_eq_of_equals has
    have hmissing' : b.isMissing = false := isMissing_eq_of_equals hbs
    have htext := (equals_ofString_iff hmissing).1 has
    have htext' := (equals_ofString_iff hmissing').1 hbs
    rw [text?_of_isNumeric ha] at htext
    rw [text?_of_isNumeric hb] at htext'
    have hequal : (a.toNumber == b.toNumber) = true :=
      BEq.trans (BEq.symm (ofText_beq htext)) (ofText_beq htext')
    rw [equals_of_present hmissing, hmissing', equalsPresent_of_isNumeric ha hb, hequal]
    rfl

/-- A number for which seventeen digits are needed, and the negative zero. -/
theorem numbers_survive_text_of_sum :
    (ofText "0.30000000000000004" == 0.1 + 0.2) = true ∧ minimalText? (-0.0) = minimalText? 0.0 ∧
    ¬ ((double (0.1 + 0.2)).equals (ofString "0.3") = true ∧
      (double 0.3).equals (ofString "0.3") = true) := by
  obtain ⟨hback, hsame, hstring⟩ := numbers_survive_text
  obtain ⟨t, ht, hequal, -⟩ := hback (0.1 + 0.2) (by decide +kernel)
  have htext : minimalText? (0.1 + 0.2) = some "0.30000000000000004" := by decide +kernel
  obtain rfl := Option.some.inj (htext.symm.trans ht)
  refine ⟨hequal, (hsame _ _ (by decide +kernel) (by decide +kernel)).2 (by decide +kernel), ?_⟩
  rintro ⟨hsum, hdecimal⟩
  exact absurd (hstring _ _ _ rfl rfl hsum hdecimal) (by decide +kernel)

end RowFormula.Value
