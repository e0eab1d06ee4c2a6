/-
# What the functions of the catalog may do

A body may return any value and fail in any way, and may read an argument without asking
whether it is there; evaluation copes with all of it.  The functions of the catalog make
little use of this freedom.  All of them read within the arguments that their signature
lets through (`ReadsWithin`).  All but the two that look formulas and attributes up are
`Regular` besides: they return values of the kind that their rule gives, and fail only for
reasons of their own, neither converting values nor evaluating formulas.

There is one lemma for each family of functions, and one for each function that stands
alone.
-/

import RowFormula.Proofs.Declarations

namespace RowFormula

/-- A function that takes all of its parameters takes that many arguments. -/
theorem Signature.count_eq_of_all {params : List KindSet} {count : Nat}
    (h : (Signature.all params).arity.accepts count = true) : count = params.length := by
  simpa [Signature.all, Arity.accepts] using h

theorem KindSet.eq_string_of_accepts {k : Kind} (h : (single .string).accepts k = true) :
    k = .string := by
  revert h
  cases k <;> decide

/-- A fault that a body finds by itself: a name outside of the row that is not known, or
arguments that it rejects. -/
def EvaluationFault.isLocal : EvaluationFault → Bool
  | unknownMacro _ | unknownParameter .. | rejected .. => true
  | _ => false

/-- Every value meets `P`, and every failure is local. -/
abbrev Evaluation.Yields {α : Type} (x : Evaluation EvaluationFault α) (P : α → Prop) : Prop :=
  x.Ensures P fun fault => fault.isLocal = true

namespace Call

theorem yields_require {α : Type} (call : Call) (cause : Rejection) (x : Option α) :
    (call.require cause x).Yields fun _ => True :=
  .ofOption (fun _ _ => trivial) rfl

theorem yields_reject {α : Type} {P : α → Prop} (call : Call) (cause : Rejection) :
    (call.reject cause : Evaluation EvaluationFault α).Yields P :=
  .throw rfl

theorem yields_draw (call : Call) (seed : Option Int) :
    (call.draw seed).Yields fun _ => True :=
  ⟨fun _ _ => trivial, fun _ ⟨_, h⟩ => nomatch h⟩

theorem argument_of_lt {values : List Value} {position : Nat} (h : position < values.length)
    (call : Call) : call.argument values position = pure values[position] := by
  rw [argument, List.getElem?_eq_getElem h, Evaluation.ofOption]

/-- Where the argument is there, what would happen if it were not makes no difference. -/
theorem argument_eq {values : List Value} {position : Nat} (h : position < values.length)
    (call : Call) (noArgument : Nat → Nat → EvaluationFault) :
    { call with noArgument := noArgument }.argument values position =
      call.argument values position := by
  rw [argument_of_lt h, argument_of_lt h]

end Call

/-- An argument that is not there is a reason to reject the call. -/
theorem Context.yields_argument (ctx : Context)
    (evaluateFormula : String → Evaluation EvaluationFault Value) (f : Function) (k : Kind)
    (values : List Value) (position : Nat) :
    ((ctx.call evaluateFormula f k).argument values position).Yields fun v =>
      values[position]? = some v :=
  .ofOption (fun _ h => h) rfl

namespace Function

/-- On as many arguments as the signature takes, neither the body nor the rule for the kind
reads an argument that is not there: what would happen then makes no difference. -/
structure ReadsWithin (f : Function) : Prop where
  body : ∀ (call : Call) noArgument values, f.signature.arity.accepts values.length = true →
    f.body { call with noArgument := noArgument } values = f.body call values
  rule : ∀ (request : KindRequest) noArgument,
    f.signature.arity.accepts request.args.length = true →
    f.result.resolve { request with noArgument := noArgument } = f.result.resolve request

/-- In every context the body fails only for reasons of its own, and what it returns for
arguments that the signature lets through has the kind that is expected, if that is one that
the rule gives. -/
structure Regular (f : Function) : Prop extends f.ReadsWithin where
  outcome : ∀ (ctx : Context) evaluateFormula k values,
    (f.body (ctx.call evaluateFormula f k) values).Yields fun v =>
      (∃ request, f.result.resolve request = .ok k) →
      f.signature.Accepts (values.map Value.kind) → v.kind = k

variable {f : Function}

/-- Apart from custom rules, only bodies can read arguments that are not there. -/
theorem ReadsWithin.ofBody (hrule : f.result.isCustom = false)
    (hbody : ∀ (call : Call) noArgument values,
      f.signature.arity.accepts values.length = true →
      f.body { call with noArgument := noArgument } values = f.body call values) :
    f.ReadsWithin where
  body := hbody
  rule := by
    intro request noArgument _
    cases hresult : f.result with
    | custom rule =>
        rw [hresult] at hrule
        cases hrule
    | _ => rfl

/-- A function with one kind of values. -/
theorem Regular.ofFixed {k : Kind} (hresult : f.result = .fixed k)
    (hreads : ∀ (call : Call) noArgument values,
      f.signature.arity.accepts values.length = true →
      f.body { call with noArgument := noArgument } values = f.body call values)
    (hbody : ∀ (ctx : Context) evaluateFormula expected values,
      (f.body (ctx.call evaluateFormula f expected) values).Yields fun v =>
        f.signature.Accepts (values.map Value.kind) → v.kind = k) : f.Regular where
  toReadsWithin := .ofBody (hresult ▸ rfl) hreads
  outcome := by
    intro ctx evaluateFormula expected values
    refine (hbody ctx evaluateFormula expected values).mono ?_ fun _ hfault => hfault
    rintro v hv ⟨request, hk⟩ haccepts
    rw [hresult] at hk
    cases hk
    exact hv haccepts

/-- A function that computes a number and gives it the kind that is expected. -/
theorem Regular.ofNumber (g : List Value → Float)
    (hresult : f.result = .promoted ∨ f.result = .byArity .integer .double)
    (hbody : f.body = fun call values => pure (.number call.resultKind (g values))) :
    f.Regular where
  toReadsWithin :=
    .ofBody (by obtain h | h := hresult <;> rw [h] <;> rfl) fun _ _ _ _ => by rw [hbody]
  outcome := by
    intro ctx evaluateFormula k values
    rw [hbody]
    refine .pure ?_
    rintro ⟨request, hk⟩ -
    have hnumeric : k.isNumeric = true := by
      obtain hresult | hresult := hresult
      · rw [hresult] at hk
        cases hk
        exact Kind.isNumeric_promote _
      · rw [hresult] at hk
        cases hk
        split <;> rfl
    exact Value.kind_number hnumeric _

end Function

namespace Catalog

/-! ### Numbers -/

section Numbers

variable (category : Category) (name description : String)

@[simp]
theorem regular_realFunction (f : Float → Float) :
    (realFunction category name description f).Regular :=
  .ofFixed rfl (fun _ _ _ _ => rfl) fun _ _ _ _ => .pure fun _ => rfl

@[simp]
theorem regular_wholeFunction (f : Float → Float) : (wholeFunction name description f).Regular :=
  .ofNumber (fun values => f (numberAt values 0)) (.inl rfl) rfl

@[simp]
theorem regular_operatorFunction (op : ArithmeticOp) :
    (operatorFunction name description op).Regular :=
  .ofNumber (fun values => op.onNumbers (numberAt values 0) (numberAt values 1)) (.inl rfl) rfl

@[simp]
theorem regular_roundingFunction (rounding : Float → Float) :
    (roundingFunction name description rounding).Regular :=
  .ofNumber (fun values => Number.roundToPlaces rounding (numberAt values 0)
    ((values[1]?).map Value.toNumber)) (.inr rfl) rfl

@[simp]
theorem regular_aggregate (f : List Float → Float) : (aggregate name description f).Regular :=
  .ofNumber (fun values => f (values.map Value.toNumber)) (.inl rfl) rfl

@[simp]
theorem regular_angle : angle.Regular :=
  .ofFixed rfl (fun _ _ _ _ => rfl) fun _ _ _ _ => .pure fun _ => rfl

@[simp]
theorem regular_binomial : binomial.Regular :=
  .ofFixed rfl (fun _ _ _ _ => rfl) fun _ _ _ _ =>
    (Call.yields_require _ _ _).bind fun _ _ => .pure fun _ => rfl

theorem yields_bitsAt (call : Call) (values : List Value) (position : Nat) :
    (bitsAt call values position).Yields fun _ => True :=
  call.yields_require _ _

@[simp]
theorem regular_bitFunction (op : Number.BitOperation) :
    (bitFunction name description op).Regular :=
  .ofFixed rfl (fun _ _ _ _ => rfl) fun _ _ _ values =>
    (yields_bitsAt _ values 0).bind fun _ _ => (yields_bitsAt _ values 1).bind fun _ _ =>
      .pure fun _ => rfl

end Numbers

theorem regular_of_mem_arithmetic : ∀ f ∈ arithmetic, f.Regular := by
  simp [arithmetic]

theorem regular_of_mem_mathematical : ∀ f ∈ mathematical, f.Regular := by
  simp [mathematical]

theorem regular_of_mem_trigonometric : ∀ f ∈ trigonometric, f.Regular := by
  simp [trigonometric]

theorem regular_of_mem_rounding : ∀ f ∈ rounding, f.Regular := by
  simp [rounding]

theorem regular_of_mem_statistical : ∀ f ∈ statistical, f.Regular := by
  simp [statistical]

theorem regular_of_mem_bitwise : ∀ f ∈ bitwise, f.Regular := by
  simp only [bitwise, List.forall_mem_cons, regular_bitFunction, true_and]
  refine ⟨.ofFixed rfl (fun _ _ _ _ => rfl) ?_, List.forall_mem_nil _⟩
  intro ctx _ _ values
  exact (yields_bitsAt _ values 0).bind fun _ _ => .pure fun _ => rfl

/-! ### Truth values and conversions -/

theorem kind_logicalNot (v : Value) : (Value.logicalNot v).kind = .boolean := by
  unfold Value.logicalNot
  split <;> rfl

theorem kind_finiteness (x : Float) : (finiteness x).kind = .boolean := by
  unfold finiteness
  split <;> rfl

/-- A function of one argument that it reads without asking. -/
theorem regular_of_argument {f : Function} {k : Kind} {param : KindSet} (g : Value → Value)
    (hsignature : f.signature = .all [param]) (hresult : f.result = .fixed k)
    (hbody : f.body = fun call values => do pure (g (← call.argument values 0)))
    (hkind : ∀ v, (g v).kind = k) : f.Regular := by
  refine .ofFixed hresult ?reads ?body
  case reads =>
    intro call noArgument values hcount
    rw [hsignature] at hcount
    have hfirst : 0 < values.length := by simp [Signature.count_eq_of_all hcount]
    rw [hbody]
    dsimp only
    rw [Call.argument_eq hfirst]
  case body =>
    intro ctx evaluateFormula expected values
    rw [hbody]
    exact (ctx.yields_argument _ _ _ values 0).bind fun v _ => .pure fun _ => hkind v

@[simp]
theorem regular_logicalFunction (name description : String) (op : LogicalOp) :
    (logicalFunction name description op).Regular := by
  refine .ofFixed rfl ?reads ?body
  case reads =>
    intro call noArgument values hcount
    have hlength := Signature.count_eq_of_all hcount
    have hfirst : 0 < values.length := by simp [hlength]
    have hsecond : 1 < values.length := by simp [hlength]
    dsimp only [logicalFunction]
    rw [Call.argument_eq hfirst, Call.argument_eq hsecond]
  case body =>
    intro ctx _ _ values
    exact (ctx.yields_argument _ _ _ values 0).bind fun _ _ =>
      (ctx.yields_argument _ _ _ values 1).bind fun _ _ => .pure fun _ => Value.kind_logical _ _ _

theorem regular_of_mem_logical : ∀ f ∈ logical, f.Regular := by
  simp only [logical, List.forall_mem_cons, regular_logicalFunction, true_and]
  exact ⟨regular_of_argument _ rfl rfl rfl kind_logicalNot, List.forall_mem_nil _⟩

theorem regular_of_mem_comparison : ∀ f ∈ comparison, f.Regular := by
  simp only [comparison, List.forall_mem_cons]
  refine ⟨regular_of_argument (fun v => .ofBool v.isMissing) rfl rfl rfl fun _ => rfl, ?_,
    List.forall_mem_nil _⟩
  exact .ofFixed rfl (fun _ _ _ _ => rfl) fun _ _ _ _ => .pure fun _ => kind_finiteness _

theorem regular_of_mem_conversion : ∀ f ∈ conversion, f.Regular := by
  simp only [conversion, List.forall_mem_cons]
  refine ⟨?_, regular_of_argument (fun v => .string (numberText? v)) rfl rfl rfl fun _ => rfl,
    List.forall_mem_nil _⟩
  exact .ofFixed rfl (fun _ _ _ _ => rfl) fun _ _ _ _ => .pure fun _ => rfl

/-! ### Texts -/

/-- A step that a body takes with some of its arguments, having asked for them. -/
structure Step {α : Type} (x : Call → Evaluation EvaluationFault α) : Prop where
  yields : ∀ call, (x call).Yields fun _ => True
  reads : ∀ (call : Call) noArgument, x { call with noArgument := noArgument } = x call

theorem step_pure {α : Type} (a : α) : Step fun _ => (pure a : Evaluation EvaluationFault α) :=
  ⟨fun _ => .pure trivial, fun _ _ => rfl⟩

theorem yields_readPattern (call : Call) (text : String) :
    (readPattern call text).Yields fun _ => True := by
  unfold readPattern
  split
  · exact .pure trivial
  · exact call.yields_reject _

/-- A step that reads a pattern and uses it. -/
theorem step_readPattern {α : Type} (text : String) (g : Pattern.Named → α) :
    Step fun call => (do
      let p ← readPattern call text
      pure (g p)) :=
  ⟨fun call => (yields_readPattern call text).bind fun _ _ => .pure trivial, fun _ _ => rfl⟩

section Texts

variable (name description : String)

theorem regular_textPredicate {test : Call → String → String → Evaluation EvaluationFault Bool}
    (htest : ∀ a b, Step fun call => test call a b) :
    (textPredicate name description test).Regular := by
  refine .ofFixed rfl ?reads ?body
  case reads =>
    intro call noArgument values _
    dsimp only [textPredicate]
    split
    · rw [(htest _ _).reads]
    · rfl
  case body =>
    intro ctx _ _ values
    dsimp only [textPredicate]
    split
    · exact ((htest _ _).yields _).bind fun _ _ => .pure fun _ => rfl
    · exact .pure fun _ => rfl

@[simp]
theorem regular_textMeasure (measure : String → String → Int) :
    (textMeasure name description measure).Regular := by
  refine .ofFixed rfl (fun _ _ _ _ => rfl) fun ctx _ _ values => ?_
  dsimp only [textMeasure]
  split <;> exact .pure fun _ => rfl

@[simp]
theorem regular_length : length.Regular := by
  refine .ofFixed rfl (fun _ _ _ _ => rfl) fun ctx _ _ values => ?_
  dsimp only [length]
  split <;> exact .pure fun _ => rfl

@[simp]
theorem regular_textFunction (f : String → String) : (textFunction name description f).Regular :=
  .ofFixed rfl (fun _ _ _ _ => rfl) fun _ _ _ _ => .pure fun _ => rfl

@[simp]
theorem regular_countFunction (f : String → Int → Option String) :
    (countFunction name description f).Regular := by
  refine .ofFixed rfl (fun _ _ _ _ => rfl) fun ctx _ _ values => ?_
  dsimp only [countFunction]
  split <;> exact .pure fun _ => rfl

theorem regular_replacingFunction
    {f : Call → String → String → String → Evaluation EvaluationFault String}
    (hf : ∀ text wanted replacement, Step fun call => f call text wanted replacement) :
    (replacingFunction name description f).Regular := by
  refine .ofFixed rfl ?reads ?body
  case reads =>
    intro call noArgument values _
    dsimp only [replacingFunction]
    split
    · rw [(hf _ _ _).reads]
    · rfl
  case body =>
    intro ctx _ _ values
    dsimp only [replacingFunction]
    split
    · exact ((hf _ _ _).yields _).bind fun _ _ => .pure fun _ => rfl
    · exact .pure fun _ => rfl

theorem kind_joined (values : List Value) : (joined values).kind = .string := by
  unfold joined
  split <;> rfl

@[simp]
theorem regular_concatenation : concatenation.Regular :=
  .ofFixed rfl (fun _ _ _ _ => rfl) fun _ _ _ values => .pure fun _ => kind_joined values

@[simp]
theorem regular_cutting : cutting.Regular := by
  refine .ofFixed rfl (fun _ _ _ _ => rfl) fun ctx _ _ values => ?_
  dsimp only [cutting]
  split
  · split
    · exact .pure fun _ => rfl
    · exact .throw rfl
  · exact .pure fun _ => rfl

end Texts

theorem regular_of_mem_stringInformation : ∀ f ∈ stringInformation, f.Regular := by
  have hplain (name description : String) (test : String → String → Bool) :
      (textPredicate name description fun _ a b => pure (test a b)).Regular :=
    regular_textPredicate name description fun a b => step_pure (test a b)
  have hpattern (name description : String) (whole : String → String) :
      (textPredicate name description fun call text pattern => do
        let p ← readPattern call (whole pattern)
        pure (p.pattern.matchesIn text)).Regular :=
    regular_textPredicate name description fun text pattern => step_readPattern (whole pattern) _
  simp only [stringInformation, List.forall_mem_cons, regular_textMeasure, regular_length,
    true_and]
  exact ⟨hplain _ _ _, hplain _ _ _, hplain _ _ _, hplain _ _ _, hpattern _ _ wholePattern,
    hpattern _ _ id, List.forall_mem_nil _⟩

theorem regular_of_mem_stringTransformation : ∀ f ∈ stringTransformation, f.Regular := by
  simp only [stringTransformation, List.forall_mem_cons, regular_concatenation, regular_cutting,
    regular_countFunction, regular_textFunction, true_and]
  refine ⟨regular_replacingFunction _ _ fun text wanted replacement => ?_,
    regular_replacingFunction _ _ fun text wanted replacement => step_pure _,
    List.forall_mem_nil _⟩
  exact step_readPattern wanted fun p => Pattern.replaceAll p text replacement

/-! ### Dates -/

theorem yields_zoneAt (call : Call) (values : List Value) (position : Nat) :
    (zoneAt call values position).Yields fun _ => True := by
  unfold zoneAt
  split
  · exact .pure trivial
  · exact call.yields_require _ _

theorem yields_localeAt (call : Call) (values : List Value) (position : Nat) :
    (localeAt call values position).Yields fun _ => True := by
  unfold localeAt
  split
  · exact .pure trivial
  · exact call.yields_require _ _

theorem yields_orReject {α : Type} (call : Call) (x : Except Calendar.UnitFault α) :
    (orReject call x).Yields fun _ => True := by
  unfold orReject
  split
  · exact .pure trivial
  · exact call.yields_reject _

theorem step_patternOfStyle (localized : Bool) (size part : String) :
    Step fun call => patternOfStyle call localized size part where
  yields := by
    intro call
    unfold patternOfStyle
    split
    · exact .pure trivial
    · exact call.yields_reject _
  reads := by
    intro call noArgument
    unfold patternOfStyle
    split <;> rfl

theorem yields_writeDate {condition : Prop} (call : Call) (l : Calendar.Locale)
    (pattern : String) (d : Calendar.Instant) :
    (writeDate call l pattern d).Yields fun v => condition → v.kind = .string :=
  (call.yields_require _ _).bind fun _ _ => .pure fun _ => rfl

section Dates

variable (name description : String)

@[simp]
theorem regular_datePredicate (test : Calendar.Instant → Calendar.Instant → Bool) :
    (datePredicate name description test).Regular := by
  refine .ofFixed rfl (fun _ _ _ _ => rfl) fun ctx _ _ values => ?_
  dsimp only [datePredicate]
  split <;> exact .pure fun _ => rfl

@[simp]
theorem regular_dateShift
    (f : Calendar.Zone → Calendar.Instant → Int → Calendar.DateUnit →
      Except Calendar.UnitFault Calendar.Instant) :
    (dateShift name description f).Regular := by
  refine .ofFixed rfl (fun _ _ _ _ => rfl) fun ctx _ _ values => ?_
  refine (yields_zoneAt _ values 3).bind fun zone _ => ?_
  split
  · exact (Call.yields_require _ _ _).bind fun _ _ =>
      (yields_orReject _ _).bind fun _ _ => .pure fun _ => rfl
  · exact .pure fun _ => rfl

@[simp]
theorem regular_dateField : dateField.Regular := by
  refine .ofFixed rfl (fun _ _ _ _ => rfl) fun ctx _ _ values => ?_
  refine (yields_zoneAt _ values 2).bind fun zone _ => ?_
  split
  · exact (Call.yields_require _ _ _).bind fun _ _ => .pure fun _ => rfl
  · exact .pure fun _ => rfl

end Dates

theorem regular_of_mem_date : ∀ f ∈ date, f.Regular := by
  simp only [date, List.forall_mem_cons, regular_datePredicate, regular_dateShift,
    regular_dateField, true_and]
  refine ⟨.ofFixed rfl (fun _ _ _ _ => rfl) fun _ _ _ _ => .pure fun _ => rfl,
    .ofFixed rfl (fun _ _ _ _ => rfl) ?difference, .ofFixed rfl (fun _ _ _ _ => rfl) ?millis,
    List.forall_mem_nil _⟩
  case difference =>
    intro ctx _ _ values
    dsimp only
    split <;> exact .pure fun _ => rfl
  case millis =>
    intro ctx _ _ values
    dsimp only
    split <;> exact .pure fun _ => rfl

theorem regular_dateReading : dateReading.Regular := by
  refine .ofFixed rfl (fun _ _ _ _ => rfl) fun ctx _ _ values => ?_
  dsimp only [dateReading]
  split
  · exact (Call.yields_require _ _ _).bind fun _ _ => .pure fun _ => rfl
  · exact .pure fun _ => rfl

theorem regular_dateWriting : dateWriting.Regular := by
  refine .ofFixed rfl ?reads ?body
  case reads =>
    intro call noArgument values _
    dsimp only [dateWriting]
    split
    · rw [(step_patternOfStyle _ _ _).reads]
      rfl
    · rfl
  case body =>
    intro ctx _ _ values
    dsimp only [dateWriting]
    split
    · exact ((step_patternOfStyle _ _ _).yields _).bind fun _ _ => yields_writeDate _ _ _ _
    · exact .pure fun _ => rfl

theorem regular_localDateWriting : localDateWriting.Regular := by
  refine .ofFixed rfl ?reads ?body
  case reads =>
    intro call noArgument values _
    dsimp only [localDateWriting]
    split
    · rw [(step_patternOfStyle _ _ _).reads]
      rfl
    · rfl
  case body =>
    intro ctx _ _ values
    dsimp only [localDateWriting]
    split
    · exact ((step_patternOfStyle _ _ _).yields _).bind fun _ _ =>
        (Call.yields_require _ _ _).bind fun _ _ => yields_writeDate _ _ _ _
    · exact .pure fun _ => rfl

theorem regular_patternDateWriting : patternDateWriting.Regular := by
  refine .ofFixed rfl (fun _ _ _ _ => rfl) fun ctx _ _ values => ?_
  refine (yields_localeAt _ values 2).bind fun l _ => ?_
  split
  · exact yields_writeDate _ _ _ _
  · exact .pure fun _ => rfl

theorem regular_of_mem_dateConversion : ∀ f ∈ dateConversion, f.Regular := by
  simp only [dateConversion, List.forall_mem_cons]
  exact ⟨regular_of_argument (fun v => .date (dateOf? v)) rfl rfl rfl fun _ => rfl,
    regular_dateReading, regular_dateWriting, regular_localDateWriting,
    regular_patternDateWriting, List.forall_mem_nil _⟩

/-! ### The process -/

theorem regular_randomNumber : randomNumber.Regular :=
  .ofFixed rfl (fun _ _ _ _ => rfl) fun _ _ _ _ =>
    (Call.yields_draw _ _).bind fun _ _ => .pure fun _ => rfl

theorem regular_parameter : parameter.Regular := by
  refine .ofFixed rfl (fun _ _ _ _ => rfl) fun ctx _ _ values => ?_
  dsimp only [parameter]
  split
  · refine .ofOption ?_ rfl
    intro v hv _
    obtain ⟨text, -, rfl⟩ := Option.map_eq_some_iff.1 hv
    rfl
  · exact .pure fun _ => rfl

/-- A macro that is not defined has the value of the second argument, which is read only if
there is one and is a text, because the signature asks for texts. -/
theorem regular_macroByName : macroByName.Regular := by
  refine .ofFixed rfl ?reads ?body
  case reads =>
    intro call noArgument values _
    dsimp only [macroByName]
    split
    · rfl
    · split
      · rfl
      · split
        · rw [Call.argument_eq (by assumption)]
        · rfl
  case body =>
    intro ctx _ _ values
    dsimp only [macroByName]
    split
    · exact .pure fun _ => rfl
    · split
      · exact .pure fun _ => rfl
      · split
        · refine (ctx.yields_argument _ _ _ values 1).mono ?_ fun _ he => he
          intro v hv haccepts
          exact KindSet.eq_string_of_accepts (haccepts.2 1 v.kind (by simp [hv]))
        · exact .throw rfl

theorem regular_of_mem_process : ∀ f ∈ process, f.Regular := by
  simp only [process, List.forall_mem_cons]
  exact ⟨regular_randomNumber, regular_parameter, regular_macroByName, List.forall_mem_nil _⟩

/-- All functions but the two that look formulas and attributes up are regular. -/
theorem regular_of_mem {f : Function} (hf : f ∈ functions) (hplain : f ∉ indirection) :
    f.Regular := by
  simp only [functions, List.mem_append, hplain, or_false, or_assoc] at hf
  obtain hf | hf | hf | hf | hf | hf | hf | hf | hf | hf | hf | hf | hf | hf := hf
  · exact regular_of_mem_arithmetic f hf
  · exact regular_of_mem_logical f hf
  · exact regular_of_mem_comparison f hf
  · exact regular_of_mem_bitwise f hf
  · exact regular_of_mem_conversion f hf
  · exact regular_of_mem_dateConversion f hf
  · exact regular_of_mem_date f hf
  · exact regular_of_mem_mathematical f hf
  · exact regular_of_mem_rounding f hf
  · exact regular_of_mem_statistical f hf
  · exact regular_of_mem_stringInformation f hf
  · exact regular_of_mem_stringTransformation f hf
  · exact regular_of_mem_trigonometric f hf
  · exact regular_of_mem_process f hf

/-! ### Looking formulas and attributes up -/

section Indirection

variable {request : KindRequest} {ctx : Context} {f : Function} {k : Kind} {values : List Value}
variable {evaluateFormula : String → Evaluation EvaluationFault Value}

theorem kindArgument_reads {position : Nat} (h : position < request.args.length)
    (noArgument : Nat → Nat → KindFault) :
    kindArgument { request with noArgument := noArgument } position =
      kindArgument request position := by
  simp only [kindArgument, KindRequest.argument, List.getElem?_eq_getElem h]

theorem readsWithin_nestedFormula : nestedFormula.ReadsWithin where
  body := fun _ _ _ _ => rfl
  rule := by
    intro request noArgument _
    show formulaResult _ = formulaResult request
    unfold formulaResult
    split
    · exact kindArgument_reads (by assumption) noArgument
    · rfl

theorem readsWithin_attributeByName : attributeByName.ReadsWithin where
  body := fun _ _ _ _ => rfl
  rule := by
    intro request noArgument _
    show attributeResult _ = attributeResult request
    unfold attributeResult
    split
    · exact kindArgument_reads (by assumption) noArgument
    · rfl

theorem readsWithin_of_mem (hf : f ∈ functions) : f.ReadsWithin := by
  by_cases hplain : f ∈ indirection
  · simp only [indirection, List.mem_cons, List.not_mem_nil, or_false] at hplain
    obtain rfl | rfl := hplain
    · exact readsWithin_nestedFormula
    · exact readsWithin_attributeByName
  · exact (regular_of_mem hf hplain).toReadsWithin

/-- Without a kind argument the kind is that of a constant text as a formula. -/
theorem formulaResult_eq_ok (h : formulaResult request = .ok k)
    (hone : ¬ 1 < request.args.length) :
    ∃ text, request.constantText? 0 = some text ∧ request.formulaKind text = .ok k := by
  rw [formulaResult, if_neg hone] at h
  split at h
  · cases h
  · exact ⟨_, by assumption, h⟩

/-- Without a kind argument the kind is that of the attribute that a constant text names. -/
theorem attributeResult_eq_ok (h : attributeResult request = .ok k)
    (hone : ¬ 1 < request.args.length) :
    ∃ name, request.constantText? 0 = some name ∧ request.attributeKind? name = some k := by
  rw [attributeResult, if_neg hone] at h
  split at h
  · cases h
  · split at h
    · cases h
    · cases h
      exact ⟨_, by assumption, by assumption⟩

/-- Converting a value fails only for want of a conversion. -/
theorem coerce_ensures (call : Call) (v : Value) :
    (call.coerce v).Ensures (fun w => w.kind = call.resultKind) fun fault =>
      v.coerce? call.resultKind = none ∧ fault = .kindMismatch call.resultKind v.kind := by
  constructor
  · intro w hw
    exact Value.kind_of_coerce? (Evaluation.returns_ofOption.1 hw)
  · intro fault hfault
    obtain ⟨hnone, hfault⟩ := Evaluation.fails_ofOption.1 hfault
    exact ⟨hnone, hfault.symm⟩

/-- A formula that is looked up fails as the formula does, or because its value cannot be
converted. -/
theorem nestedFormula_ensures :
    (nestedFormula.body (ctx.call evaluateFormula f k) values).Ensures (fun v => v.kind = k)
      fun fault => ∃ text, textAt? values 0 = some text ∧
        ((evaluateFormula text).Fails fault ∨ ∃ v, (evaluateFormula text).Returns v ∧
          v.coerce? k = none ∧ fault = .kindMismatch k v.kind) := by
  dsimp only [nestedFormula]
  split
  · rename_i text htext
    refine .bind (P := (evaluateFormula text).Returns) ?formula fun v hv => ?conversion
    case formula => exact ⟨fun v hv => hv, fun fault hfault => ⟨text, htext, .inl hfault⟩⟩
    case conversion =>
      exact (coerce_ensures _ v).mono (fun _ hw => hw) fun fault hfault =>
        ⟨text, htext, .inr ⟨v, hv, hfault⟩⟩
  · exact .pure (Value.kind_missing k)

/-- An attribute that is looked up fails if there is none or if its value cannot be
converted. -/
theorem attributeByName_ensures :
    (attributeByName.body (ctx.call evaluateFormula f k) values).Ensures (fun v => v.kind = k)
      fun fault => ∃ name, textAt? values 0 = some name ∧
        (ctx.row.get? name = none ∧ fault = .unknownAttribute name ∨
          ∃ v, ctx.row.get? name = some v ∧ v.coerce? k = none ∧
            fault = .kindMismatch k v.kind) := by
  dsimp only [attributeByName]
  split
  · rename_i name hname
    refine .bind (P := fun v => ctx.row.get? name = some v) ?value fun v hv => ?conversion
    case value =>
      constructor
      · exact fun v hv => Evaluation.returns_ofOption.1 hv
      · intro fault hfault
        obtain ⟨hnone, hfault⟩ := Evaluation.fails_ofOption.1 hfault
        exact ⟨name, hname, .inl ⟨hnone, hfault.symm⟩⟩
    case conversion =>
      exact (coerce_ensures _ v).mono (fun _ hw => hw) fun fault hfault =>
        ⟨name, hname, .inr ⟨v, hv, hfault⟩⟩
  · exact .pure (Value.kind_missing k)

end Indirection

/-! ### The registry -/

/-- What the registry knows is a regular function or one of the two that look formulas and
attributes up. -/
theorem of_get?_registry {name : String} {f : Function} (h : registry.get? name = some f) :
    f.Regular ∨ ∃ serial, f = { nestedFormula with serial := serial } ∨
      f = { attributeByName with serial := serial } := by
  obtain ⟨g, hg, serial, -, rfl⟩ := Registry.exists_mem_of_get?_ofList h
  by_cases hplain : g ∈ indirection
  · simp only [indirection, List.mem_cons, List.not_mem_nil, or_false] at hplain
    obtain rfl | rfl := hplain
    · exact .inr ⟨serial, .inl rfl⟩
    · exact .inr ⟨serial, .inr rfl⟩
  · have hregular := regular_of_mem hg hplain
    exact .inl ⟨⟨hregular.body, hregular.rule⟩, hregular.outcome⟩

end Catalog

end RowFormula
