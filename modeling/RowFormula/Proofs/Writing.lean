/-
# Formulas that are written out

A `Sketch` is a formula without spans, with its names, texts and numbers as they are spelled.
It is written with parentheses around every operator and with blanks between all tokens; any
blanks will do.  The grammar takes such a text as the chain that the sketch draws, with one
operand or one operator at every level.
-/

import RowFormula.Proofs.Numerals

namespace RowFormula.Grammar

open Recognize

/-! ### Chains that are taken -/

section Chains

variable {inner : Recognize Chain} {p : Recognize Primary} {C : Chain → Prop}
variable {X Y : Operand → Prop} {gap gap' body mid more rest : List Char}

theorem ends_of_gap (hgap : IsGap gap) : Ends (gap ++ rest) :=
  forall_mem_head_append hgap.1 fun _ hc => ends_of_isBlank (hgap.2 _ hc)

theorem noCall_of_gap (hgap : ∀ c ∈ gap, isBlank c = true)
    (hmore : ∀ c ∈ more.head?, isBlank c = false ∧ c ≠ '(') : NoCall (gap ++ more) := by
  rw [NoCall, (takeWhile_dropWhile_append hgap fun c hc => (hmore c hc).1).2]
  exact fun c hc => (hmore c hc).2

theorem closes_nil : Closes [] := ⟨[], [], rfl, List.forall_mem_nil _, by simp⟩

theorem Closes.ends (h : Closes rest) : Ends rest := by
  obtain ⟨gap, more, rfl, hgap, hmore⟩ := h
  by_cases hne : gap = []
  · subst hne
    intro c hc
    rcases hmore c hc with rfl | rfl <;> decide
  · exact ends_of_gap ⟨hne, hgap⟩

theorem Closes.noCall (h : Closes rest) : NoCall rest := by
  obtain ⟨gap, more, rfl, hgap, hmore⟩ := h
  refine noCall_of_gap hgap fun c hc => ?_
  rcases hmore c hc with rfl | rfl <;> decide

theorem Closes.rejects_link (h : Closes rest) : Rejects (link p) rest := by
  obtain ⟨gap, more, rfl, hgap, hmore⟩ := h
  have hblank : ∀ c ∈ more.head?, isBlank c = false := by
    intro c hc
    rcases hmore c hc with rfl | rfl <;> decide
  refine (accepts_blanks hgap hblank).rejects_bind fun _ _ => Rejects.bind fun start => ?_
  refine refuses_infixOperator fun c hc op => ?_
  rcases hmore c hc with rfl | rfl <;> rcases op with op | op | op <;> cases op <;> decide

theorem accepts_operand {S : List Sign → Prop} {P : Primary → Prop} {input : List Char}
    (hsigns : Accepts signs S input mid) (hp : Accepts p P mid rest) :
    Accepts (operand p) (fun x => ∃ found y, x = .mk found y ∧ S found ∧ P y) input rest :=
  hsigns.bind fun found hfound => hp.bind fun y hy =>
    Accepts.pure ⟨found, y, rfl, hfound, hy⟩

theorem accepts_single {input : List Char} (hx : Accepts (operand p) X input rest)
    (hrest : Closes rest) :
    Accepts (chain p) (fun c => ∃ x, c = .single x ∧ X x) input rest := by
  refine hx.bind fun x hx => hrest.rejects_link.many.bind fun links hlinks => ?_
  exact Accepts.pure ⟨x, by rw [hlinks, chainOf], hx⟩

/-- An operator with an operand on its right, with blanks around the operator. -/
theorem accepts_link (op : InfixOp) (hgap : ∀ c ∈ gap, isBlank c = true)
    (hmore : Separates gap' more) (hy : Accepts (operand p) Y more rest) :
    Accepts (link p) (fun l => ∃ span y, l = (op, span, y) ∧ Y y)
      (gap ++ (op.text.toList ++ (gap' ++ more))) rest := by
  have hhead : ∀ c ∈ (op.text.toList ++ (gap' ++ more)).head?, isBlank c = false := by
    refine forall_mem_head_append ?_ (forall_mem_of_all ?_) <;>
      rcases op with op | op | op <;> cases op <;> decide
  obtain ⟨left, hleft, -, hoperator⟩ := @accepts_infixOperator gap' more op hmore
  refine (accepts_blanks hgap hhead).bind fun _ _ => hoperator.bind fun l hl => ?_
  obtain ⟨op', span⟩ := l
  have hblanks := accepts_blanks hleft fun c hc => (hmore.token c hc).1
  refine hblanks.bind fun _ _ => hy.bind fun y hy => ?_
  exact Accepts.pure ⟨span, y, by rw [← hl], hy⟩

theorem accepts_linked {op : InfixOp} {input : List Char} (hx : Accepts (operand p) X input mid)
    (hlink : Accepts (link p) (fun l => ∃ span y, l = (op, span, y) ∧ Y y) mid rest)
    (hrest : Closes rest) :
    Accepts (chain p) (fun c => ∃ x span y, c = .link x op span (.single y) ∧ X x ∧ Y y) input
      rest := by
  refine hx.bind fun x hx start => ?_
  obtain ⟨_, stop, hlink, span, y, rfl, hy⟩ := hlink start
  refine ⟨_, stop, (Takes.many (.cons hlink .nil) (hrest.rejects_link stop) ?_).bind
    (Takes.pure _ _), x, span, y, rfl, hx, hy⟩
  exact Nat.le_add_left _ _

theorem accepts_group (hgap : ∀ c ∈ gap, isBlank c = true)
    (hbody : ∀ c ∈ body.head?, isBlank c = false)
    (hc : Accepts inner C body (gap' ++ ')' :: rest)) (hgap' : ∀ c ∈ gap', isBlank c = true) :
    Accepts (primary inner) (fun p => ∃ c span, p = .group c span ∧ C c) ('(' :: (gap ++ body))
      rest := by
  have hgroup : Accepts (do
      char '('
      blanks
      let chain ← inner
      blanks
      char ')'
      pure chain) C ('(' :: (gap ++ body)) rest := by
    refine (accepts_char '(').bind fun _ _ => (accepts_blanks hgap hbody).bind fun _ _ => ?_
    refine hc.bind fun c hc => (accepts_blanks hgap' (forall_mem_head (by decide))).bind
      fun _ _ => ?_
    exact (accepts_char ')').bind fun _ _ => Accepts.pure hc
  exact Accepts.orElse (hgroup.construct.spanned.bind fun y hy => Accepts.pure ⟨y.1, y.2, rfl, hy⟩)

theorem accepts_call {name : List Char} {A : List Chain → Prop} (hname : IsName name)
    (hgap : ∀ c ∈ gap, isBlank c = true) (hgap' : ∀ c ∈ gap', isBlank c = true)
    (hbody : ∀ c ∈ body.head?, isBlank c = false) {gap'' : List Char}
    (hargs : Accepts (arguments inner <|> pure []) A body (gap'' ++ ')' :: rest))
    (hgap'' : ∀ c ∈ gap'', isBlank c = true) :
    Accepts (primary inner) (fun p => ∃ args span, p = .call name args span ∧ A args)
      (name ++ (gap ++ '(' :: (gap' ++ body))) rest := by
  have hends : Ends (gap ++ '(' :: (gap' ++ body)) := by
    by_cases hne : gap = []
    · subst hne
      exact forall_mem_head (by decide)
    · exact ends_of_gap ⟨hne, hgap⟩
  have hcall : Accepts (do
      let fn ← Grammar.name
      blanks
      char '('
      blanks
      let args ← arguments inner <|> pure []
      blanks
      char ')'
      pure (fn, args)) (fun y => y.1 = name ∧ A y.2) (name ++ (gap ++ '(' :: (gap' ++ body)))
      rest := by
    refine (accepts_name hname hends).bind fun fn hfn => ?_
    refine (accepts_blanks hgap (forall_mem_head (by decide))).bind fun _ _ => ?_
    refine (accepts_char '(').bind fun _ _ => (accepts_blanks hgap' hbody).bind fun _ _ => ?_
    refine hargs.bind fun args hargs =>
      (accepts_blanks hgap'' (forall_mem_head (by decide))).bind fun _ _ => ?_
    exact (accepts_char ')').bind fun _ _ => Accepts.pure ⟨hfn, hargs⟩
  have hgroup : ∀ c ∈ (name ++ (gap ++ '(' :: (gap' ++ body))).head?, c ≠ '(' :=
    fun c hc => ne_of_test (name_head hname c hc) rfl
  refine (rejects_group hgroup).orElse
    (Accepts.orElse (hcall.construct.spanned.bind fun y hy => ?_))
  exact Accepts.pure ⟨y.1.2, y.2, by rw [hy.1], hy.2⟩

theorem rejects_primary_close : Rejects (primary inner) (')' :: rest) := by
  refine Rejects.first fun step hstep => ?_
  simp only [List.mem_cons, List.not_mem_nil, or_false] at hstep
  obtain rfl | rfl | rfl | rfl | rfl | rfl | rfl | rfl := hstep
  · exact rejects_group (forall_mem_head (by decide))
  · exact rejects_call (forall_mem_head rfl)
  · exact rejects_leaf (rejects_bracketed (forall_mem_head (by decide)))
  · exact rejects_leaf (rejects_macroReference (forall_mem_head (by decide)))
  · exact rejects_leaf (rejects_float (forall_mem_head ⟨rfl, by decide⟩))
  · exact rejects_leaf (Rejects.construct (rejects_run1 (forall_mem_head rfl)))
  · exact rejects_leaf (rejects_quotedText (forall_mem_head (by decide)))
  · exact rejects_leaf (rejects_name (forall_mem_head rfl))

/-- There is no formula in front of a closing parenthesis. -/
theorem rejects_expression_close (levels : Nat) : Rejects (expression levels) (')' :: rest) := by
  cases levels with
  | zero => exact fun start a => ⟨a, outcome_fail⟩
  | succ levels =>
      have hsigns : Accepts signs (· = []) (')' :: rest) (')' :: rest) :=
        accepts_signs_none (forall_mem_head (by decide))
      exact Rejects.construct (Rejects.bind (hsigns.rejects_bind fun _ _ =>
        rejects_primary_close.bind))

end Chains

/-! ### Sketches -/

/-- The characters of a text, with a backslash in front of a delimiter and of a backslash. -/
def escapedParts (delimiter : Char) (cs : List Char) : List (List Char) :=
  cs.map fun c => if c == delimiter || c == '\\' then ['\\', c] else [c]

/-- A text as it stands between delimiters. -/
def escaped (delimiter : Char) (cs : List Char) : List Char :=
  (escapedParts delimiter cs).flatten

/-- An operand that is a single token. -/
inductive Word where
  | number (n : Numeral)
  | text (s : String)
  | ident (name : { cs : List Char // IsName cs })
  | attributeRef (name : { s : String // s ≠ "" })
  | macroRef (name : { cs : List Char // IsMacroName cs })

namespace Word

/-- How the grammar takes a word. -/
def leaf : Word → Leaf
  | number n => n.leaf
  | text s => .string (escaped '"' s.toList)
  | ident name => .ident name.1
  | attributeRef name => .attributeRef (escaped ']' name.1.toList)
  | macroRef name => .macroRef name.1

/-- The token of a word. -/
def chars : Word → List Char
  | number n => n.chars
  | text s => '"' :: escaped '"' s.toList ++ ['"']
  | ident name => name.1
  | attributeRef name => '[' :: escaped ']' name.1.toList ++ [']']
  | macroRef name => '%' :: '\x7b' :: name.1 ++ ['\x7d']

end Word

/-- A formula as it is meant, without spans. -/
inductive Sketch where
  | word (w : Word)
  | unary (op : UnaryOp) (x : Sketch)
  | infixed (op : InfixOp) (x y : Sketch)
  | call (name : { cs : List Char // IsName cs }) (args : List Sketch)

namespace Sketch

mutual

/-- The tokens of a formula, with parentheses around every operator. -/
def tokens : Sketch → List (List Char)
  | word w => [w.chars]
  | unary op x => ['('] :: op.text.toList :: (tokens x ++ [[')']])
  | infixed op x y => ['('] :: (tokens x ++ op.text.toList :: (tokens y ++ [[')']]))
  | call name args => name.1 :: ['('] :: (tokensOfArguments args ++ [[')']])

def tokensOfArguments : List Sketch → List (List Char)
  | [] => []
  | x :: xs => tokens x ++ tokensOfMore xs

/-- Further arguments, each behind a comma. -/
def tokensOfMore : List Sketch → List (List Char)
  | [] => []
  | x :: xs => [','] :: (tokens x ++ tokensOfMore xs)

end

mutual

/-- Number of sketches on the longest way down to a word. -/
def height : Sketch → Nat
  | word _ => 1
  | unary _ x => height x + 1
  | infixed _ x y => max (height x) (height y) + 1
  | call _ args => heights args + 1

def heights : List Sketch → Nat
  | [] => 0
  | x :: xs => max (height x) (heights xs)

end

end Sketch

/-- A text of tokens with blanks between any two of them. -/
inductive Separated : List (List Char) → List Char → Prop
  | single {token : List Char} : Separated [token] token
  | cons {token gap cs : List Char} {tokens : List (List Char)} :
      IsGap gap → Separated tokens cs → Separated (token :: tokens) (token ++ (gap ++ cs))

mutual

/-- A sketch draws an operand: every operator stands alone in its group. -/
inductive Draws : Sketch → Primary → Prop
  | word {w : Word} {span : Span} : Draws (.word w) (.leaf w.leaf span)
  | unary {op : UnaryOp} {x : Sketch} {p : Primary} {s span : Span} :
      Draws x p → Draws (.unary op x) (.group (.single (.mk [⟨op, s⟩] p)) span)
  | infixed {op : InfixOp} {x y : Sketch} {p q : Primary} {s span : Span} :
      Draws x p → Draws y q →
      Draws (.infixed op x y) (.group (.link (.mk [] p) op s (.single (.mk [] q))) span)
  | call {name : { cs : List Char // IsName cs }} {args : List Sketch} {cs : List Chain}
      {span : Span} : DrawsAll args cs → Draws (.call name args) (.call name.1 cs span)

inductive DrawsAll : List Sketch → List Chain → Prop
  | nil : DrawsAll [] []
  | cons {x : Sketch} {xs : List Sketch} {p : Primary} {cs : List Chain} :
      Draws x p → DrawsAll xs cs → DrawsAll (x :: xs) (.single (.mk [] p) :: cs)

end

/-! ### Tokens and blanks -/

section Tokens

variable {cs more rest : List Char}

theorem attributePart_of_escaped {part : List Char} (h : part ∈ escapedParts ']' cs) :
    AttributePart part := by
  obtain ⟨c, -, rfl⟩ := List.mem_map.1 h
  by_cases hc : (c == ']' || c == '\\') = true
  · rw [if_pos hc]
    refine .escape ?_
    rw [Bool.or_assoc, hc, Bool.or_true]
  · rw [if_neg hc]
    rw [Bool.or_eq_true, beq_iff_eq, beq_iff_eq, not_or] at hc
    exact .plain hc.1 hc.2

theorem textPart_of_escaped {part : List Char} (h : part ∈ escapedParts '"' cs) :
    TextPart part := by
  obtain ⟨c, -, rfl⟩ := List.mem_map.1 h
  by_cases hc : (c == '"' || c == '\\') = true
  · rw [if_pos hc]
    refine .escape ?_
    rw [hc, Bool.true_or, Bool.true_or, Bool.true_or]
  · rw [if_neg hc]
    rw [Bool.or_eq_true, beq_iff_eq, beq_iff_eq, not_or] at hc
    exact .plain hc.1 hc.2

theorem SpellsLeaf.ne_nil {leaf : Leaf} (h : SpellsLeaf cs leaf) : cs ≠ [] := by
  cases h with
  | attributeRef => exact List.cons_ne_nil _ _
  | macroRef => exact List.cons_ne_nil _ _
  | float hdigits =>
      cases hdigits with
      | point hwhole => simp
      | leadingPoint => simp
      | exponent hwhole => simp [hwhole.1]
  | integer hdigits => exact hdigits.1
  | string => exact List.cons_ne_nil _ _
  | ident hname =>
      cases hname with
      | cons => exact List.cons_ne_nil _ _

theorem Word.spellsLeaf (w : Word) : SpellsLeaf w.chars w.leaf := by
  cases w with
  | number n => exact spellsLeaf_leaf n
  | text s => exact .string fun _ => textPart_of_escaped
  | ident name => exact .ident name.2
  | attributeRef name =>
      refine .attributeRef (fun hnil => name.2 ?_) fun _ => attributePart_of_escaped
      exact String.toList_inj.1 (List.map_eq_nil_iff.1 hnil)
  | macroRef name => exact .macroRef name.2

theorem isBlank_of_test {test : Char → Bool} {c : Char} (h : test c = true)
    (hblanks : ∀ d ∈ [' ', '\t', '\r', '\n'], test d = false) : isBlank c = false := by
  have hne : ∀ d ∈ [' ', '\t', '\r', '\n'], c ≠ d := fun d hd => ne_of_test h (hblanks d hd)
  simp only [isBlank, Bool.or_eq_false_iff, beq_eq_false_iff_ne]
  exact ⟨⟨⟨hne _ (by decide), hne _ (by decide)⟩, hne _ (by decide)⟩, hne _ (by decide)⟩

/-- Characters with which an operand without signs begins. -/
def opensPrimary (c : Char) : Bool :=
  startsName c || c.isDigit || ['(', '[', '%', '"', '.'].contains c

/-- Characters with which an operand begins. -/
def opensOperand (c : Char) : Bool :=
  opensPrimary c || ['-', '+', '!'].contains c

/-- The text begins with a character that passes a test. -/
def Opens (test : Char → Bool) (cs : List Char) : Prop :=
  ∃ c ∈ cs.head?, test c = true

variable {test : Char → Bool} {c : Char}

theorem opens_cons (h : test c = true) : Opens test (c :: cs) :=
  ⟨c, rfl, h⟩

theorem Opens.append (h : Opens test cs) : Opens test (cs ++ rest) := by
  obtain ⟨c, hc, htest⟩ := h
  cases cs with
  | nil => cases hc
  | cons => exact ⟨c, hc, htest⟩

theorem Opens.head (h : Opens test cs) : ∀ c ∈ cs.head?, test c = true := by
  obtain ⟨c, hc, htest⟩ := h
  intro d hd
  cases hc.symm.trans hd
  exact htest

theorem Opens.length_pos (h : Opens test cs) : 0 < cs.length := by
  obtain ⟨c, hc, -⟩ := h
  cases cs with
  | nil => cases hc
  | cons => exact Nat.succ_pos _

theorem opens_of_head (hne : cs ≠ []) (h : ∀ c ∈ cs.head?, test c = true) : Opens test cs := by
  cases cs with
  | nil => exact absurd rfl hne
  | cons c cs => exact opens_cons (h c rfl)

theorem Opens.operand (h : Opens opensPrimary cs) : Opens opensOperand cs := by
  obtain ⟨c, hc, htest⟩ := h
  exact ⟨c, hc, by rw [opensOperand, htest, Bool.true_or]⟩

theorem Opens.begins (h : Opens opensPrimary cs) : Begins (cs ++ rest) := by
  intro c hc
  have htest := h.append.head c hc
  have hothers : ∀ d ∈ ['-', '+', '!', '=', '\x7b'], opensPrimary d = false :=
    forall_mem_of_all (by decide)
  exact ⟨isBlank_of_test htest (forall_mem_of_all (by decide)),
    fun hmem => ne_of_test htest (hothers c hmem) rfl⟩

theorem SpellsLeaf.opens {leaf : Leaf} (h : SpellsLeaf cs leaf) : Opens opensPrimary cs := by
  have hdigit : ∀ c : Char, c.isDigit = true → opensPrimary c = true := fun c hc => by
    rw [opensPrimary, hc, Bool.or_true, Bool.true_or]
  have hname : ∀ c : Char, startsName c = true → opensPrimary c = true := fun c hc => by
    rw [opensPrimary, hc, Bool.true_or, Bool.true_or]
  refine opens_of_head h.ne_nil fun c hc => ?_
  rw [← List.append_nil cs] at hc
  cases h with
  | attributeRef | macroRef | string =>
      cases hc
      rfl
  | float hdigits =>
      rcases float_head hdigits c hc with h | rfl
      · exact hdigit c h
      · rfl
  | integer hdigits =>
      exact hdigit c (forall_mem_head_append hdigits.1 hdigits.2 c hc)
  | ident h => exact hname c (name_head h c hc)

theorem IsName.opens (h : IsName cs) : Opens opensPrimary cs :=
  (SpellsLeaf.ident h).opens

theorem IsName.begins (h : IsName cs) : Begins (cs ++ rest) :=
  h.opens.begins

/-- An operand does not begin like an operator. -/
theorem SpellsLeaf.begins {leaf : Leaf} (h : SpellsLeaf cs leaf) : Begins (cs ++ rest) :=
  h.opens.begins

theorem Separated.of_single {token : List Char} (h : Separated [token] cs) : cs = token := by
  cases h with
  | single => rfl
  | cons _ h => cases h

theorem Separated.of_cons {token : List Char} {tokens : List (List Char)}
    (h : Separated (token :: tokens) cs) (hne : tokens ≠ []) :
    ∃ gap ds, cs = token ++ (gap ++ ds) ∧ IsGap gap ∧ Separated tokens ds := by
  cases h with
  | single => exact absurd rfl hne
  | cons hgap h => exact ⟨_, _, rfl, hgap, h⟩

theorem Separated.of_append {ts us : List (List Char)} (h : Separated (ts ++ us) cs)
    (hts : ts ≠ []) (hus : us ≠ []) :
    ∃ as gap bs, cs = as ++ (gap ++ bs) ∧ IsGap gap ∧ Separated ts as ∧ Separated us bs := by
  induction ts generalizing cs with
  | nil => exact absurd rfl hts
  | cons t ts ih =>
      obtain ⟨gap, ds, rfl, hgap, h⟩ := h.of_cons (List.append_ne_nil_of_right_ne_nil ts hus)
      by_cases hne : ts = []
      · subst hne
        exact ⟨t, gap, ds, rfl, hgap, .single, h⟩
      · obtain ⟨as, gap', bs, rfl, hgap', has, hbs⟩ := ih h hne
        refine ⟨t ++ (gap ++ as), gap', bs, ?_, hgap', .cons hgap has, hbs⟩
        simp only [List.append_assoc]

/-- Tokens in parentheses. -/
theorem Separated.of_append_close {ts : List (List Char)} (h : Separated (ts ++ [[')']]) cs)
    (hts : ts ≠ []) : ∃ as gap, cs = as ++ (gap ++ [')']) ∧ IsGap gap ∧ Separated ts as := by
  obtain ⟨as, gap, bs, rfl, hgap, has, hbs⟩ := h.of_append hts (List.cons_ne_nil _ _)
  obtain rfl := hbs.of_single
  exact ⟨as, gap, rfl, hgap, has⟩

/-- The text begins with the first token. -/
theorem Separated.exists_append {token : List Char} {tokens : List (List Char)}
    (h : Separated (token :: tokens) cs) : ∃ more, cs = token ++ more := by
  cases h with
  | single => exact ⟨[], (List.append_nil _).symm⟩
  | cons => exact ⟨_, rfl⟩

end Tokens

namespace Sketch

theorem height_pos (x : Sketch) : 0 < x.height := by
  cases x <;> rw [height] <;> exact Nat.succ_pos _

theorem tokens_ne_nil (x : Sketch) : x.tokens ≠ [] := by
  cases x <;> rw [tokens] <;> exact List.cons_ne_nil _ _

/-- A sketch does not begin like an operator. -/
theorem begins {x : Sketch} {cs rest : List Char} (h : Separated x.tokens cs) :
    Begins (cs ++ rest) := by
  cases x with
  | word w =>
      rw [tokens] at h
      obtain rfl := h.of_single
      exact w.spellsLeaf.begins
  | unary op x =>
      obtain ⟨more, rfl⟩ := h.exists_append
      exact forall_mem_head (by decide)
  | infixed op x y =>
      obtain ⟨more, rfl⟩ := h.exists_append
      exact forall_mem_head (by decide)
  | call name args =>
      obtain ⟨more, rfl⟩ := h.exists_append
      rw [List.append_assoc]
      exact name.2.begins

end Sketch

/-! ### Taking what is written -/

section Taking

variable {cs bs gap rest : List Char} {levels : Nat}

theorem closes_of_close (hgap : ∀ c ∈ gap, isBlank c = true) : Closes (gap ++ ')' :: rest) :=
  ⟨gap, ')' :: rest, rfl, hgap, forall_mem_head (.inl rfl)⟩

theorem closes_of_more {xs : List Sketch} (hgap : IsGap gap)
    (h : Separated (Sketch.tokensOfMore xs ++ [[')']]) bs) : Closes (gap ++ (bs ++ rest)) := by
  refine ⟨gap, bs ++ rest, rfl, hgap.2, ?_⟩
  cases xs with
  | nil =>
      obtain ⟨more, rfl⟩ := h.exists_append
      exact forall_mem_head (.inl rfl)
  | cons x xs =>
      obtain ⟨more, rfl⟩ := h.exists_append
      exact forall_mem_head (.inr rfl)

/-- A bare operand is a chain. -/
theorem accepts_bare {P : Primary → Prop} {input : List Char} (hbegins : Begins input)
    (h : Accepts (primary (expression levels)) P input rest) (hrest : Closes rest) :
    Accepts (expression (levels + 1)) (fun c => ∃ p, c = .single (.mk [] p) ∧ P p) input rest := by
  have hoperand := accepts_operand (accepts_signs_none hbegins) h
  refine ((accepts_single hoperand hrest).mono ?_).construct
  rintro _ ⟨_, rfl, _, p, rfl, rfl, hp⟩
  exact ⟨p, rfl, hp⟩

/-- A text that is taken as an operand is recognised as the operand. -/
theorem recognize_bare {P : Primary → Prop} (hbegins : Begins cs)
    (h : Accepts (primary (expression cs.length)) P cs []) :
    ∃ p, recognize cs = .ok (.single (.mk [] p)) ∧ P p := by
  obtain ⟨_, stop, htakes, p, rfl, hp⟩ := accepts_bare hbegins h closes_nil 0
  exact ⟨p, recognize_of_takes (Recognize.takes_blanks hbegins.isBlank) htakes
    (Recognize.takes_blanks nofun), hp⟩

theorem accepts_unary (op : UnaryOp) {x : Sketch} {gap₀ gap₁ gap₂ : List Char}
    (hgap₀ : IsGap gap₀) (hgap₁ : IsGap gap₁) (hgap₂ : IsGap gap₂)
    (hbegins : Begins (cs ++ (gap₂ ++ ')' :: rest)))
    (hx : Accepts (primary (expression levels)) (Draws x) (cs ++ (gap₂ ++ ')' :: rest))
      (gap₂ ++ ')' :: rest)) :
    Accepts (primary (expression (levels + 1))) (Draws (.unary op x))
      ('(' :: (gap₀ ++ (op.text.toList ++ (gap₁ ++ (cs ++ (gap₂ ++ ')' :: rest)))))) rest := by
  have hclose : Closes (gap₂ ++ ')' :: rest) := closes_of_close hgap₂.2
  have hhead : ∀ c ∈ (op.text.toList ++ (gap₁ ++ (cs ++ (gap₂ ++ ')' :: rest)))).head?,
      isBlank c = false :=
    forall_mem_head_append (by cases op <;> decide)
      (forall_mem_of_all (by cases op <;> decide))
  have hoperand := accepts_operand (@accepts_signs_one gap₁ _ op hgap₁ hbegins) hx
  refine (accepts_group hgap₀.2 hhead (accepts_single hoperand hclose).construct hgap₂.2).mono ?_
  rintro _ ⟨_, span, rfl, _, rfl, _, p, rfl, ⟨s, rfl⟩, hp⟩
  exact .unary hp

theorem accepts_infixed (op : InfixOp) {x y : Sketch} {gap₀ gap₁ gap₂ gap₃ : List Char}
    (hgap₀ : IsGap gap₀) (hgap₁ : IsGap gap₁) (hgap₂ : IsGap gap₂) (hgap₃ : IsGap gap₃)
    (hxbegins : ∀ {more}, Begins (cs ++ more)) (hybegins : Begins (bs ++ (gap₃ ++ ')' :: rest)))
    (hx : ∀ {more}, Accepts (primary (expression levels)) (Draws x)
      (cs ++ (gap₁ ++ (op.text.toList ++ more))) (gap₁ ++ (op.text.toList ++ more)))
    (hy : Accepts (primary (expression levels)) (Draws y) (bs ++ (gap₃ ++ ')' :: rest))
      (gap₃ ++ ')' :: rest)) :
    Accepts (primary (expression (levels + 1))) (Draws (.infixed op x y))
      ('(' :: (gap₀ ++ (cs ++ (gap₁ ++ (op.text.toList ++ (gap₂ ++
        (bs ++ (gap₃ ++ ')' :: rest)))))))) rest := by
  have hclose : Closes (gap₃ ++ ')' :: rest) := closes_of_close hgap₃.2
  have hlink := accepts_link op hgap₁.2 (hgap₂.separates hybegins)
    (accepts_operand (accepts_signs_none hybegins) hy)
  have hchain := accepts_linked (accepts_operand (accepts_signs_none hxbegins) hx) hlink hclose
  refine (accepts_group hgap₀.2 hxbegins.isBlank hchain.construct hgap₃.2).mono ?_
  rintro _ ⟨_, span, rfl, _, s, _, rfl, ⟨_, p, rfl, rfl, hp⟩, _, q, rfl, rfl, hq⟩
  exact .infixed hp hq

theorem accepts_round {x : Sketch} {gap₀ gap₁ more : List Char} (hgap₀ : IsGap gap₀)
    (hgap₁ : IsGap gap₁) (hbegins : Begins (cs ++ more)) (hmore : Closes more)
    (hx : Accepts (primary (expression levels)) (Draws x) (cs ++ more) more) :
    Accepts (do blanks; char ','; blanks; expression (levels + 1))
      (fun c => ∃ p, c = .single (.mk [] p) ∧ Draws x p)
      (gap₀ ++ ',' :: (gap₁ ++ (cs ++ more))) more := by
  refine (accepts_blanks hgap₀.2 (forall_mem_head (by decide))).bind fun _ _ => ?_
  refine (accepts_char ',').bind fun _ _ => ?_
  exact (accepts_blanks hgap₁.2 hbegins.isBlank).bind fun _ _ => accepts_bare hbegins hx hmore

mutual

/-- What is written for a sketch is taken as the operand that it draws. -/
theorem accepts_sketch : ∀ (x : Sketch) {cs rest : List Char} {levels : Nat},
    Separated x.tokens cs → Ends rest → NoCall rest → x.height ≤ levels + 1 →
    Accepts (primary (expression levels)) (Draws x) (cs ++ rest) rest
  | .word w, cs, rest, levels, h, hends, hcall, _ => by
      rw [Sketch.tokens] at h
      obtain rfl := h.of_single
      refine (accepts_leaf w.spellsLeaf hends hcall).mono ?_
      rintro _ ⟨span, rfl⟩
      exact .word
  | .unary op x, cs, rest, levels, h, _, _, hheight => by
      rw [Sketch.tokens] at h
      rw [Sketch.height] at hheight
      obtain ⟨gap₀, _, rfl, hgap₀, h⟩ := h.of_cons (List.cons_ne_nil _ _)
      obtain ⟨gap₁, _, rfl, hgap₁, h⟩ := h.of_cons
        (List.append_ne_nil_of_left_ne_nil x.tokens_ne_nil _)
      obtain ⟨cs, gap₂, rfl, hgap₂, h⟩ := h.of_append_close x.tokens_ne_nil
      obtain ⟨levels, rfl⟩ := Nat.exists_eq_add_one_of_ne_zero
        (show levels ≠ 0 by have := x.height_pos; omega)
      have hclose : Closes (gap₂ ++ ')' :: rest) := closes_of_close hgap₂.2
      have htaken := accepts_unary op hgap₀ hgap₁ hgap₂ (Sketch.begins h)
        (accepts_sketch x h hclose.ends hclose.noCall (show x.height ≤ levels + 1 by omega))
      simpa only [List.append_assoc, List.cons_append, List.nil_append] using htaken
  | .infixed op x y, cs, rest, levels, h, _, _, hheight => by
      rw [Sketch.tokens] at h
      rw [Sketch.height] at hheight
      obtain ⟨gap₀, _, rfl, hgap₀, h⟩ := h.of_cons
        (List.append_ne_nil_of_left_ne_nil x.tokens_ne_nil _)
      obtain ⟨cs, gap₁, _, rfl, hgap₁, hx, h⟩ :=
        h.of_append x.tokens_ne_nil (List.cons_ne_nil _ _)
      obtain ⟨gap₂, _, rfl, hgap₂, h⟩ := h.of_cons
        (List.append_ne_nil_of_left_ne_nil y.tokens_ne_nil _)
      obtain ⟨bs, gap₃, rfl, hgap₃, hy⟩ := h.of_append_close y.tokens_ne_nil
      obtain ⟨levels, rfl⟩ := Nat.exists_eq_add_one_of_ne_zero
        (show levels ≠ 0 by have := x.height_pos; omega)
      have hclose : Closes (gap₃ ++ ')' :: rest) := closes_of_close hgap₃.2
      have hcall : ∀ {more}, NoCall (gap₁ ++ (op.text.toList ++ more)) := by
        intro more
        refine noCall_of_gap hgap₁.2 (forall_mem_head_append ?_ (forall_mem_of_all ?_)) <;>
          rcases op with op | op | op <;> cases op <;> decide
      have htaken := accepts_infixed op hgap₀ hgap₁ hgap₂ hgap₃ (Sketch.begins hx)
        (Sketch.begins hy)
        (accepts_sketch x hx (ends_of_gap hgap₁) hcall (show x.height ≤ levels + 1 by omega))
        (accepts_sketch y hy hclose.ends hclose.noCall (show y.height ≤ levels + 1 by omega))
      simpa only [List.append_assoc, List.cons_append, List.nil_append] using htaken
  | .call name args, cs, rest, levels, h, _, _, hheight => by
      rw [Sketch.tokens] at h
      rw [Sketch.height] at hheight
      obtain ⟨gap₀, _, rfl, hgap₀, h⟩ := h.of_cons (List.cons_ne_nil _ _)
      obtain ⟨gap₁, bs, rfl, hgap₁, h⟩ := h.of_cons
        (List.append_ne_nil_of_right_ne_nil _ (List.cons_ne_nil _ _))
      obtain ⟨gap₂, hgap₂, hbody, hargs⟩ := accepts_arguments args rest h
        (Nat.le_of_succ_le_succ hheight)
      have htaken := accepts_call name.2 hgap₀.2 hgap₁.2 hbody hargs hgap₂
      simp only [List.append_assoc, List.cons_append, List.nil_append]
      refine htaken.mono ?_
      rintro _ ⟨args, span, rfl, hdraws⟩
      exact .call hdraws
  termination_by structural x => x

theorem accepts_arguments : ∀ (xs : List Sketch) (rest : List Char) {bs : List Char} {levels : Nat},
    Separated (Sketch.tokensOfArguments xs ++ [[')']]) bs → Sketch.heights xs ≤ levels →
    ∃ gap, (∀ c ∈ gap, isBlank c = true) ∧ (∀ c ∈ (bs ++ rest).head?, isBlank c = false) ∧
      Accepts (arguments (expression levels) <|> pure []) (DrawsAll xs) (bs ++ rest)
        (gap ++ ')' :: rest)
  | [], rest, bs, levels, h, _ => by
      obtain rfl := h.of_single
      refine ⟨[], nofun, forall_mem_head (by decide), ?_⟩
      exact (rejects_expression_close levels).bind.orElse (Accepts.pure .nil)
  | x :: xs, rest, bs, levels, h, hheight => by
      rw [Sketch.tokensOfArguments, List.append_assoc] at h
      rw [Sketch.heights] at hheight
      obtain ⟨cs, gap, ds, rfl, hgap, hx, h⟩ := h.of_append x.tokens_ne_nil
        (List.append_ne_nil_of_right_ne_nil _ (List.cons_ne_nil _ _))
      obtain ⟨levels, rfl⟩ := Nat.exists_eq_add_one_of_ne_zero
        (show levels ≠ 0 by have := x.height_pos; omega)
      have hcloses : Closes (gap ++ (ds ++ rest)) := closes_of_more hgap h
      have hfirst := accepts_bare (Sketch.begins hx)
        (accepts_sketch x hx hcloses.ends hcloses.noCall (show x.height ≤ levels + 1 by omega))
        hcloses
      obtain ⟨gap', hgap', hmore⟩ := accepts_more xs rest hgap h
        (show Sketch.heights xs ≤ levels + 1 by omega)
      refine ⟨gap', hgap', ?_, Accepts.orElse ?_⟩
      · rw [List.append_assoc]
        exact (Sketch.begins hx).isBlank
      · simp only [List.append_assoc]
        refine hfirst.bind fun c hc => (hmore.many ?_).bind fun cs hcs => ?_
        · exact (accepts_blanks hgap' (forall_mem_head (by decide))).rejects_bind fun _ _ =>
            Rejects.bind (rejects_char (forall_mem_head (by decide)))
        · obtain ⟨p, rfl, hp⟩ := hc
          exact Accepts.pure (.cons hp hcs)
  termination_by structural xs => xs

theorem accepts_more : ∀ (xs : List Sketch) (rest : List Char) {bs gap : List Char} {levels : Nat},
    IsGap gap → Separated (Sketch.tokensOfMore xs ++ [[')']]) bs → Sketch.heights xs ≤ levels →
    ∃ gap', (∀ c ∈ gap', isBlank c = true) ∧
      Repeatedly (do blanks; char ','; blanks; expression levels) (DrawsAll xs)
        (gap ++ (bs ++ rest)) (gap' ++ ')' :: rest)
  | [], rest, bs, gap, levels, hgap, h, _ => by
      obtain rfl := h.of_single
      exact ⟨gap, hgap.2, Repeatedly.nil .nil⟩
  | x :: xs, rest, bs, gap, levels, hgap, h, hheight => by
      rw [Sketch.tokensOfMore, List.cons_append, List.append_assoc] at h
      rw [Sketch.heights] at hheight
      obtain ⟨gap₁, _, rfl, hgap₁, h⟩ := h.of_cons
        (List.append_ne_nil_of_left_ne_nil x.tokens_ne_nil _)
      obtain ⟨cs, gap₂, ds, rfl, hgap₂, hx, h⟩ := h.of_append x.tokens_ne_nil
        (List.append_ne_nil_of_right_ne_nil _ (List.cons_ne_nil _ _))
      obtain ⟨levels, rfl⟩ := Nat.exists_eq_add_one_of_ne_zero
        (show levels ≠ 0 by have := x.height_pos; omega)
      have hcloses : Closes (gap₂ ++ (ds ++ rest)) := closes_of_more hgap₂ h
      obtain ⟨gap', hgap', hmore⟩ := accepts_more xs rest hgap₂ h
        (show Sketch.heights xs ≤ levels + 1 by omega)
      have hround := accepts_round hgap hgap₁ (Sketch.begins hx) hcloses
        (accepts_sketch x hx hcloses.ends hcloses.noCall (show x.height ≤ levels + 1 by omega))
      refine ⟨gap', hgap', ?_⟩
      simp only [List.append_assoc, List.cons_append, List.nil_append]
      refine Repeatedly.cons hround ?_ hmore ?_
      · simp only [List.length_append, List.length_cons]
        omega
      · rintro _ cs ⟨p, rfl, hp⟩ hcs
        exact .cons hp hcs
  termination_by structural xs => xs

end

end Taking

end RowFormula.Grammar
