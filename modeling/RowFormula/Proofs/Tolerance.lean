/-
# Missing arguments

A missing value is a value and not an error, so an argument that is missing should not make a call
fail: a call that succeeds once its missing arguments are filled in should succeed without that as
well.  Most functions of the catalog keep to this.  They never fail, or give a missing value before
anything is rejected, or put something in the place of the missing argument that does as well as
any other.

Six functions do not, and `Catalog.sensitive` lists their positions.  Operations on bits reject the
missing number as one that is not whole.  Moving and setting dates takes a missing zone for
universal time, in which a result can be out of range that exists elsewhere.
-/

import RowFormula.Catalog
import RowFormula.Proofs.Catalog
import RowFormula.Proofs.Missing

namespace RowFormula

/-! ### Success -/

namespace Evaluation

variable {ε α β γ : Type}

/-- The evaluation ends with a value when it starts with these draws. -/
def Succeeds (x : Evaluation ε α) (draws : Random.Draws) : Prop :=
  ∃ a, (x.outcome draws).1 = .ok a

instance (x : Evaluation ε α) (draws : Random.Draws) : Decidable (x.Succeeds draws) :=
  decidable_of_iff ((x.outcome draws).1.toOption.isSome = true)
    (Option.isSome_iff_exists.trans (exists_congr fun _ => toOption_eq_some_iff))

/-- The first evaluation succeeds wherever the second does. -/
def Covers (x : Evaluation ε α) (y : Evaluation ε β) : Prop :=
  ∀ draws, y.Succeeds draws → x.Succeeds draws

theorem Covers.refl (x : Evaluation ε α) : x.Covers x :=
  fun _ h => h

theorem pure_covers (a : α) (y : Evaluation ε β) : (pure a : Evaluation ε α).Covers y :=
  fun _ _ => ⟨a, rfl⟩

theorem covers_throw (x : Evaluation ε α) (e : ε) : x.Covers (throw e : Evaluation ε β) :=
  fun _ ⟨_, h⟩ => nomatch h

/-- Steps that begin alike have to be compared from there on. -/
theorem bind_covers_bind {x : Evaluation ε α} {f : α → Evaluation ε β} {g : α → Evaluation ε γ}
    (h : ∀ a, (f a).Covers (g a)) : (x >>= f).Covers (x >>= g) := by
  rintro draws ⟨c, hc⟩
  rw [outcome_bind] at hc
  rw [Succeeds, outcome_bind]
  rcases hx : x.outcome draws with ⟨e | a, later⟩
  · rw [hx] at hc
    cases hc
  · rw [hx] at hc
    exact h a later ⟨c, hc⟩

/-- Whether a value is there matters only where it is. -/
theorem covers_ofOption_bind {x : Evaluation ε α} {e : ε} {o : Option β}
    {g : β → Evaluation ε γ} (h : ∀ b, o = some b → x.Covers (g b)) :
    x.Covers (ofOption e o >>= g) := by
  cases o with
  | none => exact covers_throw x e
  | some b => exact h b rfl

end Evaluation

open Evaluation (Covers pure_covers covers_throw bind_covers_bind covers_ofOption_bind)

/-! ### Filling missing values in -/

namespace Value

/-- The values of the first list, with a present value of the same kind in the place of each
missing one. -/
inductive Fills : List Value → List Value → Prop
  | nil : Fills [] []
  | missing {v w : Value} {vs ws : List Value} :
      v.isMissing = true → w.isMissing = false → w.kind = v.kind → Fills vs ws →
      Fills (v :: vs) (w :: ws)
  | present {v : Value} {vs ws : List Value} :
      v.isMissing = false → Fills vs ws → Fills (v :: vs) (v :: ws)

theorem Fills.refl {values : List Value} (h : ∀ v ∈ values, v.isMissing = false) :
    Fills values values := by
  induction values with
  | nil => exact .nil
  | cons v vs ih =>
      obtain ⟨hv, hvs⟩ := List.forall_mem_cons.1 h
      exact .present hv (ih hvs)

/-- Dropping one of several values. -/
theorem fills_set {filled : List Value} {i : Nat} (hpresent : ∀ v ∈ filled, v.isMissing = false)
    (hlt : i < filled.length) : Fills (filled.set i (.missing filled[i].kind)) filled := by
  induction filled generalizing i with
  | nil => cases hlt
  | cons v vs ih =>
      obtain ⟨hv, hvs⟩ := List.forall_mem_cons.1 hpresent
      cases i with
      | zero => exact .missing (isMissing_missing v.kind) hv (kind_missing v.kind).symm (.refl hvs)
      | succ i => exact .present hv (ih hvs (Nat.lt_of_succ_lt_succ hlt))

namespace Fills

variable {args filled : List Value} {i : Nat}

theorem length_eq (h : Fills args filled) : filled.length = args.length := by
  induction h with
  | nil => rfl
  | missing _ _ _ _ ih | present _ _ ih => rw [List.length_cons, List.length_cons, ih]

theorem getElem?_of_present (h : Fills args filled) {v : Value} (hv : args[i]? = some v)
    (hpresent : v.isMissing = false) : filled[i]? = some v := by
  induction h generalizing i with
  | nil => cases hv
  | @missing u w us ws hmissing _ _ _ ih =>
      cases i with
      | zero =>
          cases hv
          exact absurd (hmissing.symm.trans hpresent) (by decide)
      | succ i => exact ih hv
  | present _ _ ih =>
      cases i with
      | zero => exact hv
      | succ i => exact ih hv

/-- A position at which nothing is missing is left alone. -/
theorem getElem?_eq (h : Fills args filled)
    (hpresent : ∀ v, args[i]? = some v → v.isMissing = false) : filled[i]? = args[i]? := by
  cases hv : args[i]? with
  | some v => exact h.getElem?_of_present hv (hpresent v hv)
  | none =>
      rw [List.getElem?_eq_none_iff] at hv ⊢
      rwa [h.length_eq]

theorem textAt?_eq_some (h : Fills args filled) {s : String} (hs : textAt? args i = some s) :
    textAt? filled i = some s := by
  obtain ⟨v, hv, hstring⟩ := Option.bind_eq_some_iff.1 hs
  have hpresent : v.isMissing = false := by
    cases v with
    | string t =>
        obtain rfl : t = some s := hstring
        rfl
    | _ => cases hstring
  exact Option.bind_eq_some_iff.2 ⟨v, h.getElem?_of_present hv hpresent, hstring⟩

theorem instantAt?_eq_some (h : Fills args filled) {d : Calendar.Instant}
    (hd : instantAt? args i = some d) : instantAt? filled i = some d := by
  obtain ⟨v, hv, hinstant⟩ := Option.bind_eq_some_iff.1 hd
  have hpresent : v.isMissing = false := by
    cases v with
    | date t =>
        obtain rfl : t = some d := hinstant
        rfl
    | _ => cases hinstant
  exact Option.bind_eq_some_iff.2 ⟨v, h.getElem?_of_present hv hpresent, hinstant⟩

/-- A number that is there. -/
theorem numberAt_eq (h : Fills args filled) (hnumber : (numberAt args i).isNaN = false) :
    numberAt filled i = numberAt args i := by
  have hpresent : ∀ v, args[i]? = some v → v.isMissing = false := by
    intro v hv
    rw [numberAt, hv] at hnumber
    by_contra hmissing
    rw [Bool.not_eq_false] at hmissing
    rw [Option.map_some, Option.getD_some, toNumber_of_isMissing hmissing] at hnumber
    exact absurd (hnumber.symm.trans (Number.isNaN_nan)) (by decide)
  rw [numberAt, numberAt, h.getElem?_eq hpresent]

theorem count?_eq_some (h : Fills args filled) {n : Int}
    (hn : Catalog.count? (numberAt args i) = some n) :
    Catalog.count? (numberAt filled i) = some n := by
  have hnumber : (numberAt args i).isNaN = false := by
    rw [Catalog.count?] at hn
    split at hn
    · cases hn
    · rwa [← Bool.not_eq_true]
  rwa [h.numberAt_eq hnumber]

theorem wholeAmount?_eq_some (h : Fills args filled) {n : Int}
    (hn : Catalog.wholeAmount? (numberAt args i) = some n) :
    Catalog.wholeAmount? (numberAt filled i) = some n := by
  have hnumber : (numberAt args i).isNaN = false := by
    rw [← Bool.not_eq_true]
    intro hmissing
    rw [Number.isNaN_iff.1 hmissing, Catalog.wholeAmount?, if_neg (by decide)] at hn
    cases hn
  rwa [h.numberAt_eq hnumber]

end Fills

end Value

theorem Call.argument_bind_of_lt {α : Type} {call : Call} {values : List Value} {position : Nat}
    (h : position < values.length) (g : Value → Evaluation EvaluationFault α) :
    call.argument values position >>= g = g values[position] := by
  rw [argument_of_lt h, pure_bind]

namespace Function

/-- Missing arguments do not make the function fail unless they stand at one of these positions.
Where it accepts the arguments, it succeeds if it does so once the missing ones are filled in. -/
def Tolerates (f : Function) (except : List Nat) : Prop :=
  ∀ (call : Call) (args filled : List Value), f.signature.Accepts (args.map Value.kind) →
    Value.Fills args filled →
    (∀ i ∈ except, ∀ v, args[i]? = some v → v.isMissing = false) →
    (f.body call args).Covers (f.body call filled)

/-- A call with all its arguments succeeds, and fails once the one at a position is missing. -/
def SensitiveAt (f : Function) (i : Nat) : Prop :=
  ∃ (call : Call) (filled : List Value) (draws : Random.Draws),
    f.signature.Accepts (filled.map Value.kind) ∧ (∀ v ∈ filled, v.isMissing = false) ∧
      (f.body call filled).Succeeds draws ∧
      ∃ _ : i < filled.length,
        ¬(f.body call (filled.set i (.missing filled[i].kind))).Succeeds draws

variable {f : Function} {except except' : List Nat}

theorem Tolerates.mono (h : f.Tolerates except) (hsubset : ∀ i ∈ except, i ∈ except') :
    f.Tolerates except' :=
  fun call args filled haccepts hfills hpresent =>
    h call args filled haccepts hfills fun i hi => hpresent i (hsubset i hi)

/-- Sensitive positions are exceptions. -/
theorem Tolerates.mem_of_sensitiveAt {i : Nat} (h : f.Tolerates except) (hi : f.SensitiveAt i) :
    i ∈ except := by
  obtain ⟨call, filled, draws, haccepts, hpresent, hsucceeds, hlt, hfails⟩ := hi
  by_contra hexcept
  refine hfails (h call _ filled ?accepts (Value.fills_set hpresent hlt) ?present draws hsucceeds)
  case accepts =>
    rw [List.map_set, Value.kind_missing, ← List.getElem_map Value.kind, List.set_getElem_self]
    · exact haccepts
    · rwa [List.length_map]
  case present =>
    intro j hj v hv
    have hne : i ≠ j := by
      rintro rfl
      exact hexcept hj
    rw [List.getElem?_set_ne hne] at hv
    exact hpresent v (List.mem_of_getElem? hv)

/-- A function that never fails. -/
theorem tolerates_of_pure (h : ∀ (call : Call) (args : List Value),
    f.signature.Accepts (args.map Value.kind) → ∃ v, f.body call args = pure v) :
    f.Tolerates [] := by
  intro call args filled haccepts _ _
  obtain ⟨v, hv⟩ := h call args haccepts
  rw [hv]
  exact pure_covers v _

theorem tolerates_of_fills (h : ∀ (call : Call) (args filled : List Value),
    Value.Fills args filled → (f.body call args).Covers (f.body call filled)) : f.Tolerates [] :=
  fun call args filled _ hfills _ => h call args filled hfills

/-- A function of one argument that it reads without asking. -/
theorem tolerates_of_argument {param : KindSet} (g : Value → Value)
    (hsignature : f.signature = .all [param])
    (hbody : f.body = fun call values => do pure (g (← call.argument values 0))) :
    f.Tolerates [] := by
  refine tolerates_of_pure fun call args haccepts => ?_
  rw [hsignature] at haccepts
  have hlength := Signature.count_eq_of_all haccepts.1
  rw [List.length_map, List.length_singleton] at hlength
  exact ⟨_, by rw [hbody]; exact Call.argument_bind_of_lt (by omega) _⟩

end Function

namespace Catalog

/-- Positions of a function at which no argument should be missing. -/
def sensitive (name : String) : List Nat :=
  if name ∈ ["bit_and", "bit_or", "bit_xor"] then [0, 1]
  else if name = "bit_not" then [0]
  else if name ∈ ["date_add", "date_set"] then [3]
  else []

open RowFormula.Function (tolerates_of_pure tolerates_of_fills tolerates_of_argument)

/-! ### Numbers and truth values -/

theorem tolerates_of_mem_numbers :
    ∀ f ∈ arithmetic ++ mathematical ++ trigonometric ++ rounding, f.Tolerates [] := by
  simp only [arithmetic, mathematical, trigonometric, rounding, List.cons_append,
    List.nil_append, List.forall_mem_cons]
  and_intros
  all_goals first | exact List.forall_mem_nil _ | exact tolerates_of_pure fun _ _ _ => ⟨_, rfl⟩

theorem tolerates_binomial : binomial.Tolerates [] := by
  refine tolerates_of_fills fun call args filled hfills => ?_
  dsimp only [binomial]
  by_cases hmissing : ((numberAt args 0).isNaN || (numberAt args 1).isNaN) = true
  · rw [Number.binomial?, if_pos hmissing]
    exact pure_covers _ _
  · rw [Bool.not_eq_true, Bool.or_eq_false_iff] at hmissing
    rw [hfills.numberAt_eq hmissing.1, hfills.numberAt_eq hmissing.2]
    exact .refl _

theorem tolerates_of_mem_statistical : ∀ f ∈ statistical, f.Tolerates [] := by
  have haggregate (name description : String) (g : List Float → Float) :
      (aggregate name description g).Tolerates [] :=
    tolerates_of_pure fun _ _ _ => ⟨_, rfl⟩
  simp only [statistical, List.forall_mem_cons, haggregate, tolerates_binomial, true_and]
  exact List.forall_mem_nil _

theorem tolerates_logicalFunction (name description : String) (op : LogicalOp) :
    (logicalFunction name description op).Tolerates [] := by
  refine tolerates_of_pure fun call args haccepts => ?_
  have hlength := Signature.count_eq_of_all haccepts.1
  rw [List.length_map, List.length_cons, List.length_singleton] at hlength
  exact ⟨_, (Call.argument_bind_of_lt (by omega) _).trans
    (Call.argument_bind_of_lt (by omega) _)⟩

theorem tolerates_of_mem_logical : ∀ f ∈ logical, f.Tolerates [] := by
  simp only [logical, List.forall_mem_cons, tolerates_logicalFunction, true_and]
  exact ⟨tolerates_of_argument _ rfl rfl, List.forall_mem_nil _⟩

theorem tolerates_of_mem_comparison : ∀ f ∈ comparison, f.Tolerates [] := by
  simp only [comparison, List.forall_mem_cons]
  exact ⟨tolerates_of_argument (fun v => .ofBool v.isMissing) rfl rfl,
    tolerates_of_pure fun _ _ _ => ⟨_, rfl⟩, List.forall_mem_nil _⟩

theorem tolerates_of_mem_conversion : ∀ f ∈ conversion, f.Tolerates [] := by
  simp only [conversion, List.forall_mem_cons]
  exact ⟨tolerates_of_pure fun _ _ _ => ⟨_, rfl⟩,
    tolerates_of_argument (fun v => .string (numberText? v)) rfl rfl, List.forall_mem_nil _⟩

/-! ### Texts

Each of these functions reads its arguments first.  If one of them is missing the result is, and
otherwise the call is the one with the missing arguments filled in. -/

section Texts

variable (name description : String)

theorem tolerates_textPredicate
    (test : Call → String → String → Evaluation EvaluationFault Bool) :
    (textPredicate name description test).Tolerates [] := by
  refine tolerates_of_fills fun call args filled hfills => ?_
  dsimp only [textPredicate]
  split
  · rename_i a b ha hb
    rw [hfills.textAt?_eq_some ha, hfills.textAt?_eq_some hb]
    exact .refl _
  · exact pure_covers _ _

theorem tolerates_textMeasure (measure : String → String → Int) :
    (textMeasure name description measure).Tolerates [] := by
  refine tolerates_of_pure fun call args _ => ?_
  dsimp only [textMeasure]
  split <;> exact ⟨_, rfl⟩

theorem tolerates_countFunction (f : String → Int → Option String) :
    (countFunction name description f).Tolerates [] := by
  refine tolerates_of_pure fun call args _ => ?_
  dsimp only [countFunction]
  split <;> exact ⟨_, rfl⟩

theorem tolerates_textFunction (f : String → String) :
    (textFunction name description f).Tolerates [] :=
  tolerates_of_pure fun _ _ _ => ⟨_, rfl⟩

theorem tolerates_replacingFunction
    (f : Call → String → String → String → Evaluation EvaluationFault String) :
    (replacingFunction name description f).Tolerates [] := by
  refine tolerates_of_fills fun call args filled hfills => ?_
  dsimp only [replacingFunction]
  split
  · rename_i text wanted replacement htext hwanted hreplacement
    rw [hfills.textAt?_eq_some htext, hfills.textAt?_eq_some hwanted,
      hfills.textAt?_eq_some hreplacement]
    exact .refl _
  · exact pure_covers _ _

theorem tolerates_cutting : cutting.Tolerates [] := by
  refine tolerates_of_fills fun call args filled hfills => ?_
  dsimp only [cutting]
  split
  · rename_i text start length htext hstart hlength
    rw [hfills.textAt?_eq_some htext, hfills.count?_eq_some hstart,
      hfills.count?_eq_some hlength]
    exact .refl _
  · exact pure_covers _ _

end Texts

theorem tolerates_of_mem_stringInformation : ∀ f ∈ stringInformation, f.Tolerates [] := by
  have hlength : length.Tolerates [] := by
    refine tolerates_of_pure fun call args _ => ?_
    dsimp only [length]
    split <;> exact ⟨_, rfl⟩
  simp only [stringInformation, List.forall_mem_cons, tolerates_textPredicate,
    tolerates_textMeasure, hlength, true_and]
  exact List.forall_mem_nil _

theorem tolerates_of_mem_stringTransformation : ∀ f ∈ stringTransformation, f.Tolerates [] := by
  have hconcatenation : concatenation.Tolerates [] := tolerates_of_pure fun _ _ _ => ⟨_, rfl⟩
  simp only [stringTransformation, List.forall_mem_cons, hconcatenation,
    tolerates_replacingFunction, tolerates_cutting, tolerates_countFunction,
    tolerates_textFunction, true_and]
  exact List.forall_mem_nil _

/-! ### Whether a date can be written

Locales differ in how they write a date, and not in whether they can. -/

section Writing

open Calendar Calendar.DatePattern

/-- Items that can be written and not only read. -/
def isWritten (item : PatternItem) : Bool :=
  item != .named .looseOffset

theorem isSome_itemText? (l : Calendar.Locale) (c : ClockReading) (item : PatternItem) :
    (itemText? l c item).isSome = isWritten item := by
  cases item with
  | literal | blank | numeric => rfl
  | named field =>
      cases field with
      | offset form => cases form <;> rfl
      | _ => rfl

theorem isSome_mapM_itemText? (l : Calendar.Locale) (c : ClockReading)
    (items : List PatternItem) :
    (items.mapM (itemText? l c)).isSome = items.all isWritten := by
  induction items with
  | nil => rfl
  | cons item items ih =>
      rw [List.mapM_cons, List.all_cons, ← ih, ← isSome_itemText? l c]
      cases itemText? l c item with
      | none => rfl
      | some text => cases items.mapM (itemText? l c) <;> rfl

/-- Whether the items that were read, if any, can all be written. -/
def writable? (items : Option (List PatternItem)) : Option Bool :=
  items.map (List.all · isWritten)

variable {nested nested' : Char → Option (List PatternItem)}

/-- Fields are read alike, up to whether they can be written, if customary forms are. -/
theorem map_field?_eq (h : ∀ c, writable? (nested c) = writable? (nested' c)) (cs : List Char) :
    (field? nested cs).map (Prod.map (List.all · isWritten) id) =
      (field? nested' cs).map (Prod.map (List.all · isWritten) id) := by
  unfold field?
  split
  · rfl
  · split
    · rfl
    · rename_i c rest _
      split
      · rfl
      · rfl
      · cases fieldItems? c with
        | some items => rfl
        | none =>
            -- Only here is a customary form looked up.
            have hform := h c
            simp only [writable?] at hform
            cases hc : nested c <;> cases hc' : nested' c <;> simp_all

theorem writable?_append (items : List PatternItem) (more : Option (List PatternItem)) :
    writable? (more.bind fun more => some (items ++ more)) =
      (writable? more).map (items.all isWritten && ·) := by
  cases more with
  | none => rfl
  | some more => exact congrArg some List.all_append

theorem writable?_itemsWith? (h : ∀ c, writable? (nested c) = writable? (nested' c))
    (steps : Nat) (cs : List Char) :
    writable? (itemsWith? nested steps cs) = writable? (itemsWith? nested' steps cs) := by
  induction steps generalizing cs with
  | zero => cases cs <;> rfl
  | succ steps ih =>
      cases cs with
      | nil => rfl
      | cons c cs =>
          rw [itemsWith?, itemsWith?]
          split
          · have hfield := map_field?_eq h cs
            rcases hf : field? nested cs with _ | ⟨items, rest⟩ <;>
              rcases hf' : field? nested' cs with _ | ⟨items', rest'⟩ <;>
              rw [hf, hf'] at hfield
            · rfl
            · cases hfield
            · cases hfield
            · obtain ⟨hitems, rfl⟩ : items.all isWritten = items'.all isWritten ∧ rest = rest' :=
                Prod.mk.inj (Option.some.inj hfield)
              exact (writable?_append _ _).trans
                (by rw [hitems, ih]; exact (writable?_append _ _).symm)
          · split
            · exact (writable?_append [_] _).trans
                (by rw [ih]; exact (writable?_append [_] _).symm)
            · exact (writable?_append [_] _).trans
                (by rw [ih]; exact (writable?_append [_] _).symm)

theorem standard_mem_all : Calendar.Locale.standard ∈ Calendar.Locale.all := by
  simp only [Calendar.Locale.all, List.mem_cons, true_or, or_true]

/-- The fields that stand for customary forms, all of which can be written. -/
theorem writable?_customary {l : Calendar.Locale} (hl : l ∈ Calendar.Locale.all) (c : Char) :
    writable? (customary l c) = if c ∈ ['X', 'c', 'r', 'x'] then some true else none := by
  have hforms : ∀ l ∈ Calendar.Locale.all,
      ∀ pattern ∈ [l.timePattern, l.fullPattern, l.dialPattern, l.datePattern],
        writable? (itemsWith? (fun _ => none) pattern.length pattern.toList) = some true := by
    decide
  rw [customary, localePattern?.eq_def]
  split
  case h_5 => simp_all [writable?]
  all_goals exact hforms l hl _ (by simp)

theorem isSome_write? (l : Calendar.Locale) (pattern : String) (d : Instant) :
    (write? l pattern d).isSome = (writable? (items? l pattern)).getD false := by
  rw [write?]
  cases items? l pattern with
  | none => rfl
  | some items =>
      rw [writable?, Option.map_some, Option.getD_some, ← isSome_mapM_itemText? l d.utc]
      exact (congrArg Option.isSome Option.map_eq_bind.symm).trans Option.isSome_map

theorem isSome_write?_eq {l : Calendar.Locale} (hl : l ∈ Calendar.Locale.all) (pattern : String)
    (d : Instant) : (write? l pattern d).isSome = (write? .standard pattern d).isSome := by
  rw [isSome_write?, isSome_write?, items?, items?, writable?_itemsWith? fun c => ?_]
  rw [writable?_customary hl, writable?_customary standard_mem_all]

end Writing

/-! ### Dates -/

section Dates

open Calendar Calendar.DatePattern

variable {call : Call} {args filled : List Value} {position : Nat}

/-- What an optional name stands for.  If the name is missing, the call goes on with something
that could have been named. -/
theorem covers_named {α : Type} {P : α → Prop} {fallback : α} {error : String → EvaluationFault}
    {find : String → Option α} {x y : Evaluation EvaluationFault α}
    {f g : α → Evaluation EvaluationFault Value} (hfills : Value.Fills args filled)
    (hx : x = (textAt? args position).elim (pure fallback)
      fun name => Evaluation.ofOption (error name) (find name))
    (hy : y = (textAt? filled position).elim (pure fallback)
      fun name => Evaluation.ofOption (error name) (find name))
    (hfallback : P fallback) (hfind : ∀ name a, find name = some a → P a)
    (h : ∀ a b, P a → P b → (f a).Covers (g b)) : (x >>= f).Covers (y >>= g) := by
  subst hx hy
  cases htext : textAt? args position with
  | some name =>
      rw [hfills.textAt?_eq_some htext, Option.elim_some]
      cases hname : find name with
      | none => exact covers_throw _ _
      | some a =>
          rw [Evaluation.ofOption, pure_bind, pure_bind]
          exact h a a (hfind name a hname) (hfind name a hname)
  | none =>
      rw [Option.elim_none, pure_bind]
      cases textAt? filled position with
      | none =>
          rw [Option.elim_none, pure_bind]
          exact h _ _ hfallback hfallback
      | some name => exact covers_ofOption_bind fun a ha => h _ _ hfallback (hfind name a ha)

theorem zoneAt_bind_covers (hfills : Value.Fills args filled)
    {f g : Zone → Evaluation EvaluationFault Value} (h : ∀ z z', (f z).Covers (g z')) :
    (zoneAt call args position >>= f).Covers (zoneAt call filled position >>= g) := by
  have helim (args : List Value) : zoneAt call args position =
      (textAt? args position).elim (pure Zone.utc) fun name =>
        Evaluation.ofOption (.rejected call.name (.unknownZone name))
          (Zone.ofName? (Text.trim name)) := by
    rw [zoneAt]
    cases textAt? args position <;> rfl
  exact covers_named (P := fun _ => True) hfills (helim args) (helim filled) trivial
    (fun _ _ _ => trivial) fun z z' _ _ => h z z'

theorem localeAt_bind_covers (hfills : Value.Fills args filled)
    {f g : Calendar.Locale → Evaluation EvaluationFault Value}
    (h : ∀ l l', l ∈ Calendar.Locale.all → l' ∈ Calendar.Locale.all → (f l).Covers (g l')) :
    (localeAt call args position >>= f).Covers (localeAt call filled position >>= g) := by
  have helim (args : List Value) : localeAt call args position =
      (textAt? args position).elim (pure Calendar.Locale.standard) fun name =>
        Evaluation.ofOption (.rejected call.name (.unknownLocale name))
          (Calendar.Locale.ofName? (Text.replace (Text.trim name) "-" "_")) := by
    rw [localeAt]
    cases textAt? args position with
    | none => rfl
    | some name => dsimp only [Option.elim_some, localeOfName, Call.require]
  exact covers_named hfills (helim args) (helim filled) standard_mem_all
    (fun _ _ => List.mem_of_find?_eq_some) h

theorem writeDate_covers {l l' : Calendar.Locale} (hl : l ∈ Calendar.Locale.all)
    (hl' : l' ∈ Calendar.Locale.all) (pattern : String) (d : Instant) :
    (writeDate call l pattern d).Covers (writeDate call l' pattern d) := by
  refine covers_ofOption_bind fun text htext => ?_
  have hwritten : (write? l pattern d).isSome = true := by
    rw [isSome_write?_eq hl, ← isSome_write?_eq hl', htext, Option.isSome_some]
  obtain ⟨text', htext'⟩ := Option.isSome_iff_exists.1 hwritten
  rw [writeDate, htext']
  exact pure_covers _ _

theorem tolerates_datePredicate (name description : String) (test : Instant → Instant → Bool) :
    (datePredicate name description test).Tolerates [] := by
  refine tolerates_of_pure fun call args _ => ?_
  dsimp only [datePredicate]
  split <;> exact ⟨_, rfl⟩

theorem tolerates_dateField : dateField.Tolerates [] := by
  refine tolerates_of_fills fun call args filled hfills => ?_
  refine zoneAt_bind_covers hfills fun z z' => ?_
  split
  · rename_i d name hd hname
    rw [hfills.instantAt?_eq_some hd, hfills.textAt?_eq_some hname]
    exact bind_covers_bind fun unit => pure_covers _ _
  · exact pure_covers _ _

/-- Only the zone has to be there. -/
theorem tolerates_dateShift (name description : String)
    (f : Zone → Instant → Int → DateUnit → Except UnitFault Instant) :
    (dateShift name description f).Tolerates [3] := by
  intro call args filled _ hfills hzone
  have hsame : zoneAt call filled 3 = zoneAt call args 3 := by
    rw [zoneAt, zoneAt, textAt?, textAt?, hfills.getElem?_eq (hzone 3 (List.mem_singleton_self 3))]
  dsimp only [dateShift]
  rw [hsame]
  refine bind_covers_bind fun zone => ?_
  split
  · rename_i d amount unit hd hamount hunit
    rw [hfills.instantAt?_eq_some hd, hfills.wholeAmount?_eq_some hamount,
      hfills.textAt?_eq_some hunit]
    exact .refl _
  · exact pure_covers _ _

theorem tolerates_of_mem_date : ∀ f ∈ date, f.Tolerates (sensitive f.name) := by
  simp only [date, List.forall_mem_cons]
  refine ⟨?now, tolerates_datePredicate _ _ _, tolerates_datePredicate _ _ _, ?difference, ?millis,
    tolerates_dateShift _ _ _, tolerates_dateShift _ _ _, tolerates_dateField,
    List.forall_mem_nil _⟩
  case now => exact tolerates_of_pure fun _ _ _ => ⟨_, rfl⟩
  case difference =>
    refine tolerates_of_pure fun call args _ => ?_
    dsimp only
    split <;> exact ⟨_, rfl⟩
  case millis =>
    refine tolerates_of_pure fun call args _ => ?_
    dsimp only
    split <;> exact ⟨_, rfl⟩

theorem tolerates_dateReading : dateReading.Tolerates [] := by
  refine tolerates_of_fills fun call args filled hfills => ?_
  dsimp only [dateReading]
  split
  · rename_i text pattern htext hpattern
    rw [hfills.textAt?_eq_some htext, hfills.textAt?_eq_some hpattern]
    exact .refl _
  · exact pure_covers _ _

theorem tolerates_dateWriting : dateWriting.Tolerates [] := by
  refine tolerates_of_fills fun call args filled hfills => ?_
  dsimp only [dateWriting]
  split
  · rename_i d size part hd hsize hpart
    rw [hfills.instantAt?_eq_some hd, hfills.textAt?_eq_some hsize, hfills.textAt?_eq_some hpart]
    exact .refl _
  · exact pure_covers _ _

theorem tolerates_localDateWriting : localDateWriting.Tolerates [] := by
  refine tolerates_of_fills fun call args filled hfills => ?_
  dsimp only [localDateWriting]
  split
  · rename_i d size part name hd hsize hpart hname
    rw [hfills.instantAt?_eq_some hd, hfills.textAt?_eq_some hsize, hfills.textAt?_eq_some hpart,
      hfills.textAt?_eq_some hname]
    exact .refl _
  · exact pure_covers _ _

theorem tolerates_patternDateWriting : patternDateWriting.Tolerates [] := by
  refine tolerates_of_fills fun call args filled hfills => ?_
  refine localeAt_bind_covers hfills fun l l' hl hl' => ?_
  split
  · rename_i d pattern hd hpattern
    rw [hfills.instantAt?_eq_some hd, hfills.textAt?_eq_some hpattern]
    exact writeDate_covers hl hl' pattern d
  · exact pure_covers _ _

theorem tolerates_of_mem_dateConversion : ∀ f ∈ dateConversion, f.Tolerates [] := by
  simp only [dateConversion, List.forall_mem_cons, tolerates_dateReading, tolerates_dateWriting,
    tolerates_localDateWriting, tolerates_patternDateWriting, true_and]
  exact ⟨tolerates_of_argument (fun v => .date (dateOf? v)) rfl rfl, List.forall_mem_nil _⟩

end Dates

/-! ### The process and indirection -/

theorem tolerates_of_mem_process : ∀ f ∈ process, f.Tolerates [] := by
  have hrandom : randomNumber.Tolerates [] :=
    tolerates_of_fills fun _ _ _ _ _ _ => ⟨_, rfl⟩
  have hparameter : parameter.Tolerates [] := by
    refine tolerates_of_fills fun call args filled hfills => ?_
    dsimp only [parameter]
    split
    · rename_i operator parameter hoperator hparameter
      rw [hfills.textAt?_eq_some hoperator, hfills.textAt?_eq_some hparameter]
      exact .refl _
    · exact pure_covers _ _
  have hmacro : macroByName.Tolerates [] := by
    refine tolerates_of_fills fun call args filled hfills => ?_
    dsimp only [macroByName]
    split
    · exact pure_covers _ _
    · rename_i name hname
      rw [hfills.textAt?_eq_some hname, hfills.length_eq]
      dsimp only
      split
      · exact pure_covers _ _
      · split
        · rename_i hdefault
          rw [Call.argument_of_lt hdefault]
          exact pure_covers _ _
        · exact .refl _
  simp only [process, List.forall_mem_cons]
  exact ⟨hrandom, hparameter, hmacro, List.forall_mem_nil _⟩

theorem tolerates_of_mem_indirection : ∀ f ∈ indirection, f.Tolerates [] := by
  have hnested : nestedFormula.Tolerates [] := by
    refine tolerates_of_fills fun call args filled hfills => ?_
    dsimp only [nestedFormula]
    split
    · rename_i formula hformula
      rw [hfills.textAt?_eq_some hformula]
      exact .refl _
    · exact pure_covers _ _
  have hattribute : attributeByName.Tolerates [] := by
    refine tolerates_of_fills fun call args filled hfills => ?_
    dsimp only [attributeByName]
    split
    · rename_i name hname
      rw [hfills.textAt?_eq_some hname]
      exact .refl _
    · exact pure_covers _ _
  simp only [indirection, List.forall_mem_cons]
  exact ⟨hnested, hattribute, List.forall_mem_nil _⟩

/-! ### Bits -/

theorem bitsAt_eq {call : Call} {args filled : List Value} {i : Nat}
    (hfills : Value.Fills args filled)
    (hpresent : ∀ v, args[i]? = some v → v.isMissing = false) :
    bitsAt call filled i = bitsAt call args i := by
  rw [bitsAt, bitsAt, numberAt, numberAt, hfills.getElem?_eq hpresent]

theorem tolerates_bitFunction (name description : String) (op : Number.BitOperation) :
    (bitFunction name description op).Tolerates [0, 1] := by
  intro call args filled _ hfills hpresent
  dsimp only [bitFunction]
  rw [bitsAt_eq hfills (hpresent 0 (by simp)), bitsAt_eq hfills (hpresent 1 (by simp))]
  exact .refl _

theorem tolerates_of_mem_bitwise : ∀ f ∈ bitwise, f.Tolerates (sensitive f.name) := by
  simp only [bitwise, List.forall_mem_cons]
  refine ⟨tolerates_bitFunction _ _ _, tolerates_bitFunction _ _ _, tolerates_bitFunction _ _ _,
    fun call args filled _ hfills hpresent => ?_, List.forall_mem_nil _⟩
  dsimp only
  rw [bitsAt_eq hfills (hpresent 0 (by decide))]
  exact .refl _

/-! ### The catalog -/

/-- All sections but those of operations on bits and of dates. -/
theorem tolerates_of_mem_others {f : Function} (hf : f ∈ functions) (hbits : f ∉ bitwise)
    (hdate : f ∉ date) : f.Tolerates [] := by
  simp only [functions, List.mem_append, hbits, hdate, or_false, or_assoc] at hf
  obtain hf | hf | hf | hf | hf | hf | hf | hf | hf | hf | hf | hf | hf := hf
  · exact tolerates_of_mem_numbers f (by simp [hf])
  · exact tolerates_of_mem_logical f hf
  · exact tolerates_of_mem_comparison f hf
  · exact tolerates_of_mem_conversion f hf
  · exact tolerates_of_mem_dateConversion f hf
  · exact tolerates_of_mem_numbers f (by simp [hf])
  · exact tolerates_of_mem_numbers f (by simp [hf])
  · exact tolerates_of_mem_statistical f hf
  · exact tolerates_of_mem_stringInformation f hf
  · exact tolerates_of_mem_stringTransformation f hf
  · exact tolerates_of_mem_numbers f (by simp [hf])
  · exact tolerates_of_mem_process f hf
  · exact tolerates_of_mem_indirection f hf

/-- Missing arguments make a function fail only at its sensitive positions. -/
theorem tolerates_of_mem {f : Function} (hf : f ∈ functions) : f.Tolerates (sensitive f.name) := by
  by_cases hbits : f ∈ bitwise
  · exact tolerates_of_mem_bitwise f hbits
  by_cases hdate : f ∈ date
  · exact tolerates_of_mem_date f hdate
  exact (tolerates_of_mem_others hf hbits hdate).mono (List.forall_mem_nil _)

/-- A call in an empty context. -/
def plainCall (f : Function) : Call :=
  ({} : Context).call (fun _ => pure (.missing .string)) f .integer

/-- Arguments all of which a sensitive function needs.  In universal time it is still April when it
is May in Berlin, and it is 2011 already when it is 2010 in Apia. -/
def neededArguments (name : String) : List Value :=
  if name = "date_set" then
    [.ofInstant ⟨1746054000, 0⟩, .integer 31, .ofString "day", .ofString "Europe/Berlin"]
  else if name = "date_add" then
    [.ofInstant ⟨1293858000, 0⟩, .integer 260132, .ofString "year", .ofString "Pacific/Apia"]
  else if name = "bit_not" then [.integer 1]
  else [.integer 1, .integer 1]

theorem sensitiveAt_of_mem {f : Function} (hf : f ∈ functions) :
    ∀ i ∈ sensitive f.name, f.SensitiveAt i := by
  have hneeded : ∀ f ∈ functions, ∀ i ∈ sensitive f.name,
      let filled := neededArguments f.name
      f.signature.Accepts (filled.map Value.kind) ∧ (∀ v ∈ filled, v.isMissing = false) ∧
        (f.body (plainCall f) filled).Succeeds default ∧
        ∃ _ : i < filled.length,
          ¬(f.body (plainCall f) (filled.set i (.missing filled[i].kind))).Succeeds default := by
    decide
  exact fun i hi => ⟨plainCall f, neededArguments f.name, default, hneeded f hf i hi⟩

/-- A function succeeds with missing arguments wherever it does so once these are filled in,
provided that none of them stands at a sensitive position.  No sensitive position can be left
out. -/
theorem tolerates_iff {f : Function} (hf : f ∈ functions) (except : List Nat) :
    f.Tolerates except ↔ ∀ i ∈ sensitive f.name, i ∈ except :=
  ⟨fun h i hi => h.mem_of_sensitiveAt (sensitiveAt_of_mem hf i hi),
    fun h => (tolerates_of_mem hf).mono h⟩

theorem tolerates_iff_of_binomial : binomial ∈ functions ∧ binomial.Tolerates [] := by
  have hmem : binomial ∈ functions := by simp [functions, statistical]
  exact ⟨hmem, (tolerates_iff hmem []).2 (by decide)⟩

end Catalog

namespace Formula

open Catalog in
/-- Not all functions tolerate missing arguments: operations on bits reject the missing number. -/
theorem missing_rejected :
    (¬ ∀ f ∈ functions, f.Tolerates []) ∧
    ∃ filled missing : Formula,
      compile (({} : Engine).context ⟨0, 0⟩ {}) "bit_and(2.0, 1)" = .ok filled ∧
      compile (({} : Engine).context ⟨0, 0⟩ {}) "bit_and(MISSING_NUMERIC, 1)" = .ok missing ∧
      (filled.run (({} : Engine).context ⟨0, 0⟩ {})).Succeeds default ∧
      ¬(missing.run (({} : Engine).context ⟨0, 0⟩ {})).Succeeds default := by
  constructor
  · intro htolerates
    obtain ⟨f, hf, hsensitive⟩ : ∃ f ∈ functions, 0 ∈ sensitive f.name := by decide
    exact absurd ((htolerates f hf).mem_of_sensitiveAt (sensitiveAt_of_mem hf 0 hsensitive))
      List.not_mem_nil
  · have hcheck : ((compile (({} : Engine).context ⟨0, 0⟩ {}) "bit_and(2.0, 1)").toOption.any
        fun filled =>
          (compile (({} : Engine).context ⟨0, 0⟩ {}) "bit_and(MISSING_NUMERIC, 1)").toOption.any
            fun missing =>
              decide ((filled.run (({} : Engine).context ⟨0, 0⟩ {})).Succeeds default) &&
                !decide ((missing.run (({} : Engine).context ⟨0, 0⟩ {})).Succeeds default)) =
        true := by
      decide +kernel
    obtain ⟨filled, hfilled, hcheck⟩ := (Option.any_eq_true _ _).1 hcheck
    obtain ⟨missing, hmissing, hruns⟩ := (Option.any_eq_true _ _).1 hcheck
    rw [Bool.and_eq_true, decide_eq_true_iff, Bool.not_eq_true', decide_eq_false_iff_not] at hruns
    exact ⟨filled, missing, toOption_eq_some_iff.1 hfilled, toOption_eq_some_iff.1 hmissing,
      hruns⟩

end Formula

end RowFormula
