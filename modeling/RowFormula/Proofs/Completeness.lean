/-
# What is spelled is recognised

The language of formulas says which texts spell a chain and leaves open how they are found.
Here the steps of the grammar are held against it: whatever is spelled between two cursors is
taken, whichever alternatives are tried before it.  The chain that is taken may have other spans,
because the language does not say to which token the blanks between two tokens belong.

A text that is spelled may begin with blanks, which the step in front of it takes.  So each
statement trims them and speaks about the text from its first token on.
-/

import RowFormula.Proofs.Writing

namespace RowFormula.Grammar

open Cursor (Passes)
open Recognize

/-! ### Chains up to spans -/

mutual

/-- The chains differ in nothing but spans. -/
inductive SameChain : Chain → Chain → Prop
  | single {x x' : Operand} : SameOperand x x' → SameChain (.single x) (.single x')
  | link {x x' : Operand} {op : InfixOp} {span span' : Span} {rest rest' : Chain} :
      SameOperand x x' → SameChain rest rest' →
      SameChain (.link x op span rest) (.link x' op span' rest')

inductive SameOperand : Operand → Operand → Prop
  | mk {signs signs' : List Sign} {p p' : Primary} :
      signs.map Sign.op = signs'.map Sign.op → SamePrimary p p' →
      SameOperand (.mk signs p) (.mk signs' p')

inductive SamePrimary : Primary → Primary → Prop
  | group {c c' : Chain} {span span' : Span} :
      SameChain c c' → SamePrimary (.group c span) (.group c' span')
  | call {name : List Char} {args args' : List Chain} {span span' : Span} :
      SameChains args args' → SamePrimary (.call name args span) (.call name args' span')
  | leaf {leaf : Leaf} {span span' : Span} : SamePrimary (.leaf leaf span) (.leaf leaf span')

inductive SameChains : List Chain → List Chain → Prop
  | nil : SameChains [] []
  | cons {c c' : Chain} {cs cs' : List Chain} :
      SameChain c c' → SameChains cs cs' → SameChains (c :: cs) (c' :: cs')

end

/-- The first operand of a chain. -/
def Chain.head : Chain → Operand
  | single x => x
  | link x _ _ _ => x

/-! ### How operands begin -/

section Beginnings

variable {cs ds gap rest : List Char}

theorem Opens.not_blank (h : Opens opensOperand cs) :
    ∀ c ∈ (cs ++ rest).head?, isBlank c = false :=
  fun c hc => isBlank_of_test (h.append.head c hc) (forall_mem_of_all (by decide))

theorem Opens.ne (h : Opens opensOperand cs) {d : Char} (hd : opensOperand d = false) :
    ∀ c ∈ (cs ++ rest).head?, c ≠ d :=
  fun c hc => ne_of_test (h.append.head c hc) hd

/-- An operand may stand behind any operator, with or without blanks between them. -/
theorem Opens.separates (h : Opens opensOperand cs) (hgap : ∀ c ∈ gap, isBlank c = true) :
    Separates gap (cs ++ rest) where
  blanks := hgap
  token c hc := ⟨h.not_blank c hc, h.ne rfl c hc, h.ne rfl c hc⟩
  front := by
    have hfront : ∀ d ∈ ['=', '&', '|'], opensOperand d = false ∧ isBlank d = false :=
      forall_mem_of_all rfl
    cases gap with
    | nil => exact fun c hc hmem => h.ne (hfront c hmem).1 c hc rfl
    | cons d gap =>
        refine forall_mem_head fun hmem => ?_
        exact Bool.false_ne_true ((hfront d hmem).2.symm.trans (hgap d List.mem_cons_self))

theorem ends_operator (op : InfixOp) : Ends (op.text.toList ++ rest) := by
  rcases op with op | op | op <;> cases op <;> exact forall_mem_head (by decide)

theorem noCall_operator (op : InfixOp) (hgap : ∀ c ∈ gap, isBlank c = true) :
    NoCall (gap ++ (op.text.toList ++ rest)) := by
  refine noCall_of_gap hgap ?_
  rcases op with op | op | op <;> cases op <;> exact forall_mem_head (by decide)

theorem Ends.of_gap (hgap : ∀ c ∈ gap, isBlank c = true) (h : Ends rest) : Ends (gap ++ rest) := by
  by_cases hne : gap = []
  · rwa [hne]
  · exact ends_of_gap ⟨hne, hgap⟩

theorem blank_append (hcs : ∀ c ∈ cs, isBlank c = true) (hds : ∀ c ∈ ds, isBlank c = true) :
    ∀ c ∈ cs ++ ds, isBlank c = true :=
  List.forall_mem_append.2 ⟨hcs, hds⟩

end Beginnings

/-! ### Signs -/

theorem SpellsSigns.text {s s' : Cursor} {signs : List Sign} (h : SpellsSigns s signs s') :
    ∃ gap cs, (∀ c ∈ gap, isBlank c = true) ∧ SignsText (signs.map Sign.op) cs ∧
      s.Passes (gap ++ cs) s' := by
  induction h with
  | nil hblanks =>
      obtain ⟨gap, hgap, hpasses⟩ := hblanks
      exact ⟨gap, [], hgap, .nil, by rwa [List.append_nil]⟩
  | @cons _ _ _ _ op _ hblanks hoperator _ ih =>
      obtain ⟨gap, hgap, hpasses⟩ := hblanks
      obtain ⟨s₁, htext, gap₁, hgap₁, hpasses₁⟩ := hoperator
      obtain ⟨gap₂, cs, hgap₂, hcs, hpasses₂⟩ := ih
      refine ⟨gap, _, hgap, .cons (blank_append hgap₁ hgap₂) hcs, ?_⟩
      rw [List.append_assoc gap₁]
      exact hpasses.append (htext.append (hpasses₁.append hpasses₂))

/-! ### Chains -/

/-- The text is taken as the operand without signs, if the levels that are left suffice for its
length. -/
structure PrimaryTaken (p : Primary) (cs : List Char) : Prop where
  opens : Opens opensPrimary cs
  accepts : ∀ {levels : Nat} {rest : List Char}, cs.length ≤ levels + 1 → Ends rest → NoCall rest →
    Accepts (primary (expression levels)) (SamePrimary p) (cs ++ rest) rest

structure OperandTaken (x : Operand) (cs : List Char) : Prop where
  opens : Opens opensOperand cs
  accepts : ∀ {levels : Nat} {rest : List Char}, cs.length ≤ levels + 1 → Ends rest → NoCall rest →
    Accepts (operand (primary (expression levels))) (SameOperand x) (cs ++ rest) rest

/-- The first operand is taken from the text, and then one link after another. -/
structure ChainTaken (c : Chain) (cs : List Char) : Prop where
  opens : Opens opensOperand cs
  accepts : ∀ {levels : Nat} {rest : List Char}, cs.length ≤ levels + 1 → Closes rest →
    ∃ mid, mid.length ≤ (cs ++ rest).length ∧
      Accepts (operand (primary (expression levels))) (SameOperand c.head) (cs ++ rest) mid ∧
      Repeatedly (link (primary (expression levels)))
        (fun links => ∀ x, SameOperand c.head x → SameChain c (chainOf x links)) mid rest

/-- Further arguments are taken, each behind a comma. -/
structure MoreTaken (args : List Chain) (cs : List Char) : Prop where
  closes : ∀ {rest : List Char}, Closes rest → Closes (cs ++ rest)
  accepts : ∀ {levels : Nat} {rest : List Char}, cs.length ≤ levels → Closes rest →
    Repeatedly (do blanks; char ','; blanks; expression levels) (SameChains args) (cs ++ rest) rest

structure ArgumentsTaken (args : List Chain) (cs : List Char) : Prop where
  opens : Opens opensOperand cs
  accepts : ∀ {levels : Nat} {gap rest : List Char}, cs.length ≤ levels →
    (∀ c ∈ gap, isBlank c = true) →
    Accepts (arguments (expression levels)) (SameChains args) (cs ++ (gap ++ ')' :: rest))
      (gap ++ ')' :: rest)

section Taking

variable {x : Operand} {c : Chain} {args : List Chain} {cs ds gap rest : List Char} {levels : Nat}

theorem ChainTaken.expression (h : ChainTaken c cs) (hlevels : cs.length ≤ levels)
    (hrest : Closes rest) : Accepts (expression levels) (SameChain c) (cs ++ rest) rest := by
  obtain ⟨levels, rfl⟩ := Nat.exists_eq_add_one_of_ne_zero
    (Nat.ne_of_gt (Nat.lt_of_lt_of_le h.opens.length_pos hlevels))
  obtain ⟨mid, -, hx, hlinks⟩ := h.accepts hlevels hrest
  refine (hx.bind fun x hx => (hlinks.many hrest.rejects_link).bind fun links hlinks => ?_).construct
  exact Accepts.pure (hlinks x hx)

theorem operandTaken_of_signs {signs : List Sign} {p : Primary}
    (hsigns : SignsText (signs.map Sign.op) cs) (hp : PrimaryTaken p ds) :
    OperandTaken (.mk signs p) (cs ++ ds) where
  opens := by
    generalize hops : signs.map Sign.op = ops at hsigns
    cases hsigns with
    | nil => exact hp.opens.operand
    | @cons op => cases op <;> exact opens_cons rfl
  accepts := by
    intro levels rest hlevels hends hcall
    rw [List.length_append] at hlevels
    rw [List.append_assoc]
    refine (accepts_operand (hsigns.accepts hp.opens.begins)
      (hp.accepts (by omega) hends hcall)).mono ?_
    rintro _ ⟨found, q, rfl, hfound, hq⟩
    exact .mk hfound.symm hq

theorem chainTaken_of_operand (h : OperandTaken x cs) : ChainTaken (.single x) cs where
  opens := h.opens
  accepts hlevels hrest := by
    refine ⟨_, ?_, h.accepts hlevels hrest.ends hrest.noCall, Repeatedly.nil fun y hy => .single hy⟩
    rw [List.length_append]
    exact Nat.le_add_left _ _

/-- An operand, an operator and a chain. -/
theorem chainTaken_of_link {op : InfixOp} {span : Span} {gap' : List Char}
    (hx : OperandTaken x cs) (hgap : ∀ c ∈ gap, isBlank c = true)
    (hgap' : ∀ c ∈ gap', isBlank c = true) (hc : ChainTaken c ds) :
    ChainTaken (.link x op span c) (cs ++ (gap ++ (op.text.toList ++ (gap' ++ ds)))) where
  opens := hx.opens.append
  accepts := by
    intro levels rest hlevels hrest
    have hlength := hx.opens.length_pos
    simp only [List.length_append] at hlevels
    obtain ⟨mid, hmid, hy, hlinks⟩ := hc.accepts (show ds.length ≤ levels + 1 by omega) hrest
    have hlink := accepts_link op hgap (hc.opens.separates hgap') hy
    have hfirst := @hx.accepts levels (gap ++ (op.text.toList ++ (gap' ++ (ds ++ rest))))
      (by omega) (Ends.of_gap hgap (ends_operator op)) (noCall_operator op hgap)
    simp only [List.append_assoc]
    refine ⟨_, ?_, hfirst, Repeatedly.cons hlink ?_ hlinks ?_⟩
    · simp only [List.length_append]
      omega
    · have hop : 0 < op.text.toList.length := by
        rcases op with op | op | op <;> cases op <;> decide
      simp only [List.length_append] at hmid ⊢
      omega
    · rintro _ links ⟨span', y, rfl, hy⟩ hsame x' hx'
      exact .link hx' (hsame y hy)

theorem primaryTaken_of_leaf {leaf : Leaf} {span : Span} (h : SpellsLeaf cs leaf) :
    PrimaryTaken (.leaf leaf span) cs where
  opens := h.opens
  accepts _ hends hcall := by
    refine (accepts_leaf h hends hcall).mono ?_
    rintro _ ⟨span', rfl⟩
    exact .leaf

theorem primaryTaken_of_group {span : Span} {gap' : List Char}
    (hgap : ∀ c ∈ gap, isBlank c = true) (hc : ChainTaken c cs)
    (hgap' : ∀ c ∈ gap', isBlank c = true) :
    PrimaryTaken (.group c span) ('(' :: (gap ++ (cs ++ (gap' ++ [')'])))) where
  opens := opens_cons rfl
  accepts := by
    intro levels rest hlevels _ _
    simp only [List.length_cons, List.length_append] at hlevels
    have hclose : Closes (gap' ++ ')' :: rest) := closes_of_close hgap'
    have hinner := hc.expression (show cs.length ≤ levels by omega) hclose
    simp only [List.append_assoc, List.cons_append, List.nil_append]
    refine (accepts_group hgap hc.opens.not_blank hinner hgap').mono ?_
    rintro _ ⟨c', span', rfl, hc'⟩
    exact .group hc'

theorem moreTaken_nil : MoreTaken [] [] where
  closes h := h
  accepts _ _ := Repeatedly.nil .nil

theorem moreTaken_cons {gap' : List Char} (hgap : ∀ c ∈ gap, isBlank c = true)
    (hgap' : ∀ c ∈ gap', isBlank c = true) (hc : ChainTaken c cs) (hmore : MoreTaken args ds) :
    MoreTaken (c :: args) (gap ++ ',' :: (gap' ++ (cs ++ ds))) where
  closes {rest} _ := by
    rw [List.append_assoc]
    exact ⟨gap, _, rfl, hgap, forall_mem_head (.inr rfl)⟩
  accepts := by
    intro levels rest hlevels hrest
    simp only [List.length_append, List.length_cons] at hlevels
    have hexpression := hc.expression (show cs.length ≤ levels by omega) (hmore.closes hrest)
    have hround := (accepts_blanks hgap (forall_mem_head (by decide))).bind fun _ _ =>
      (accepts_char ',').bind fun _ _ =>
        (accepts_blanks hgap' hc.opens.not_blank).bind fun _ _ => hexpression
    simp only [List.append_assoc, List.cons_append]
    refine Repeatedly.cons hround ?_ (hmore.accepts (by omega) hrest) fun _ _ => .cons
    simp only [List.length_append, List.length_cons]
    omega

theorem argumentsTaken_of_more (hc : ChainTaken c cs) (hmore : MoreTaken args ds) :
    ArgumentsTaken (c :: args) (cs ++ ds) where
  opens := hc.opens.append
  accepts := by
    intro levels gap rest hlevels hgap
    rw [List.length_append] at hlevels
    have hrest : Closes (gap ++ ')' :: rest) := closes_of_close hgap
    have hstop : Rejects (do blanks; char ','; blanks; expression levels) (gap ++ ')' :: rest) :=
      (accepts_blanks hgap (forall_mem_head (by decide))).rejects_bind fun _ _ =>
        Rejects.bind (rejects_char (forall_mem_head (by decide)))
    rw [List.append_assoc]
    refine (hc.expression (by omega) (hmore.closes hrest)).bind fun c' hc' => ?_
    refine ((hmore.accepts (by omega) hrest).many hstop).bind fun cs' hcs' => ?_
    exact Accepts.pure (.cons hc' hcs')

theorem primaryTaken_of_no_arguments {name gap' : List Char} {span : Span} (hname : IsName name)
    (hgap : ∀ c ∈ gap, isBlank c = true) (hgap' : ∀ c ∈ gap', isBlank c = true) :
    PrimaryTaken (.call name [] span) (name ++ (gap ++ '(' :: (gap' ++ [')']))) where
  opens := hname.opens.append
  accepts := by
    intro levels rest _ _ _
    have hnone : Accepts (arguments (expression levels) <|> pure []) (SameChains []) (')' :: rest)
        ([] ++ ')' :: rest) :=
      (rejects_expression_close levels).bind.orElse (Accepts.pure .nil)
    simp only [List.append_assoc, List.cons_append, List.nil_append]
    refine (accepts_call hname hgap hgap' (forall_mem_head (by decide)) hnone
      (List.forall_mem_nil _)).mono ?_
    rintro _ ⟨args, span', rfl, hargs⟩
    exact .call hargs

theorem primaryTaken_of_arguments {name gap' gap'' : List Char} {span : Span}
    (hname : IsName name) (hgap : ∀ c ∈ gap, isBlank c = true)
    (hgap' : ∀ c ∈ gap', isBlank c = true) (hargs : ArgumentsTaken args cs)
    (hgap'' : ∀ c ∈ gap'', isBlank c = true) :
    PrimaryTaken (.call name args span)
      (name ++ (gap ++ '(' :: (gap' ++ (cs ++ (gap'' ++ [')']))))) where
  opens := hname.opens.append
  accepts := by
    intro levels rest hlevels _ _
    have hpos := hname.opens.length_pos
    simp only [List.length_append, List.length_cons] at hlevels
    have htaken := (@hargs.accepts levels gap'' rest (by omega) hgap'').orElse (q := pure [])
    simp only [List.append_assoc, List.cons_append, List.nil_append]
    refine (accepts_call hname hgap hgap' hargs.opens.not_blank htaken hgap'').mono ?_
    rintro _ ⟨args', span', rfl, hargs'⟩
    exact .call hargs'

end Taking

mutual

/-- The text between two cursors that spells a chain is taken as that chain.  The induction is on
the chain. -/
theorem SpellsChain.taken : ∀ (c : Chain) {s s' : Cursor}, SpellsChain s c s' →
    ∃ gap cs, (∀ c ∈ gap, isBlank c = true) ∧ s.Passes (gap ++ cs) s' ∧ ChainTaken c cs
  | .single x, s, s', h => by
      cases h with
      | single hx =>
          obtain ⟨gap, cs, hgap, hpasses, htaken⟩ := SpellsOperand.taken x hx
          exact ⟨gap, cs, hgap, hpasses, chainTaken_of_operand htaken⟩
  | .link x op span rest, s, s', h => by
      cases h with
      | link hx hblanks hoperator hblanks' hrest =>
          obtain ⟨gap, cs, hgap, hpasses, htaken⟩ := SpellsOperand.taken x hx
          obtain ⟨gap₁, hgap₁, hpasses₁⟩ := hblanks
          obtain ⟨_, htext, gap₂, hgap₂, hpasses₂⟩ := hoperator
          obtain ⟨gap₃, hgap₃, hpasses₃⟩ := hblanks'
          obtain ⟨gap₄, ds, hgap₄, hpasses₄, htaken'⟩ := SpellsChain.taken rest hrest
          refine ⟨gap, _, hgap, ?_, chainTaken_of_link htaken hgap₁
            (blank_append hgap₂ (blank_append hgap₃ hgap₄)) htaken'⟩
          have hall := hpasses.append (hpasses₁.append (htext.append
            (hpasses₂.append (hpasses₃.append hpasses₄))))
          simpa only [List.append_assoc] using hall
  termination_by structural c => c

theorem SpellsOperand.taken : ∀ (x : Operand) {s s' : Cursor}, SpellsOperand s x s' →
    ∃ gap cs, (∀ c ∈ gap, isBlank c = true) ∧ s.Passes (gap ++ cs) s' ∧ OperandTaken x cs
  | .mk signs p, s, s', h => by
      cases h with
      | mk hsigns hp =>
          obtain ⟨gap, cs, hgap, hcs, hpasses⟩ := hsigns.text
          obtain ⟨ds, hpasses', htaken⟩ := SpellsPrimary.taken p hp
          refine ⟨gap, cs ++ ds, hgap, ?_, operandTaken_of_signs hcs htaken⟩
          rw [← List.append_assoc]
          exact hpasses.append hpasses'
  termination_by structural x => x

theorem SpellsPrimary.taken : ∀ (p : Primary) {s s' : Cursor}, SpellsPrimary s p s' →
    ∃ cs, s.Passes cs s' ∧ PrimaryTaken p cs
  | .group inner span, s, s', h => by
      cases h with
      | group hopen hblanks hinner hblanks' hclose =>
          obtain ⟨gap₁, hgap₁, hpasses₁⟩ := hblanks
          obtain ⟨gap₂, cs, hgap₂, hpasses₂, htaken⟩ := SpellsChain.taken inner hinner
          obtain ⟨gap₃, hgap₃, hpasses₃⟩ := hblanks'
          refine ⟨_, ?_, primaryTaken_of_group (blank_append hgap₁ hgap₂) htaken hgap₃⟩
          have hall := hopen.append (hpasses₁.append (hpasses₂.append
            (hpasses₃.append hclose)))
          simpa only [List.append_assoc, List.cons_append, List.nil_append] using hall
  | .call name args span, s, s', h => by
      cases h with
      | call hname hpasses hblanks hopen hblanks' hargs hblanks'' hclose =>
          obtain ⟨gap₁, hgap₁, hpasses₁⟩ := hblanks
          obtain ⟨gap₂, hgap₂, hpasses₂⟩ := hblanks'
          obtain ⟨gap₄, hgap₄, hpasses₄⟩ := hblanks''
          obtain ⟨rfl, hsame⟩ | ⟨gap₃, cs, hgap₃, hpasses₃, htaken⟩ :=
            SpellsArguments.taken args hargs
          · subst hsame
            refine ⟨_, ?_, primaryTaken_of_no_arguments hname hgap₁ (blank_append hgap₂ hgap₄)⟩
            have hall := hpasses.append (hpasses₁.append (hopen.append (hpasses₂.append
              (hpasses₄.append hclose))))
            simpa only [List.append_assoc, List.cons_append, List.nil_append] using hall
          · refine ⟨_, ?_, primaryTaken_of_arguments hname hgap₁ (blank_append hgap₂ hgap₃) htaken
              hgap₄⟩
            have hall := hpasses.append (hpasses₁.append (hopen.append (hpasses₂.append
              (hpasses₃.append (hpasses₄.append hclose)))))
            simpa only [List.append_assoc, List.cons_append, List.nil_append] using hall
  | .leaf leaf span, s, s', h => by
      cases h with
      | leaf hleaf hpasses => exact ⟨_, hpasses, primaryTaken_of_leaf hleaf⟩
  termination_by structural p => p

theorem SpellsArguments.taken : ∀ (args : List Chain) {s s' : Cursor}, SpellsArguments s args s' →
    (args = [] ∧ s = s') ∨ ∃ gap cs, (∀ c ∈ gap, isBlank c = true) ∧ s.Passes (gap ++ cs) s' ∧
      ArgumentsTaken args cs
  | [], s, s', h => by
      cases h with
      | none => exact .inl ⟨rfl, rfl⟩
  | c :: args, s, s', h => by
      cases h with
      | some hc hmore =>
          obtain ⟨gap, cs, hgap, hpasses, htaken⟩ := SpellsChain.taken c hc
          obtain ⟨ds, hpasses', htaken'⟩ := SpellsMore.taken args hmore
          refine .inr ⟨gap, cs ++ ds, hgap, ?_, argumentsTaken_of_more htaken htaken'⟩
          rw [← List.append_assoc]
          exact hpasses.append hpasses'
  termination_by structural args => args

theorem SpellsMore.taken : ∀ (args : List Chain) {s s' : Cursor}, SpellsMore s args s' →
    ∃ cs, s.Passes cs s' ∧ MoreTaken args cs
  | [], s, s', h => by
      cases h with
      | nil => exact ⟨[], Passes.nil s, moreTaken_nil⟩
  | c :: args, s, s', h => by
      cases h with
      | cons hblanks hcomma hblanks' hc hmore =>
          obtain ⟨gap₁, hgap₁, hpasses₁⟩ := hblanks
          obtain ⟨gap₂, hgap₂, hpasses₂⟩ := hblanks'
          obtain ⟨gap₃, cs, hgap₃, hpasses₃, htaken⟩ := SpellsChain.taken c hc
          obtain ⟨ds, hpasses₄, htaken'⟩ := SpellsMore.taken args hmore
          refine ⟨_, ?_, moreTaken_cons hgap₁ (blank_append hgap₂ hgap₃) htaken htaken'⟩
          have hall := hpasses₁.append (hcomma.append (hpasses₂.append
            (hpasses₃.append hpasses₄)))
          simpa only [List.append_assoc, List.cons_append, List.nil_append] using hall
  termination_by structural args => args

end

/-- A text that is taken as a chain is recognised as that chain, also with blanks around it. -/
theorem ChainTaken.recognize {c : Chain} {cs gap gap' : List Char} (h : ChainTaken c cs)
    (hgap : ∀ c ∈ gap, isBlank c = true) (hgap' : ∀ c ∈ gap', isBlank c = true) :
    ∃ c', recognize (gap ++ (cs ++ gap')) = .ok c' ∧ SameChain c c' := by
  have hcloses : Closes gap' := ⟨gap', [], (List.append_nil _).symm, hgap', nofun⟩
  have hlength : cs.length ≤ (gap ++ (cs ++ gap')).length + 1 := by
    simp only [List.length_append]
    omega
  obtain ⟨_, start, hfront, -⟩ := accepts_blanks hgap (@Opens.not_blank cs gap' h.opens) 0
  obtain ⟨c', stop, htakes, hsame⟩ := h.expression hlength hcloses start
  obtain ⟨_, _, hback, -⟩ := @accepts_blanks gap' [] hgap' nofun stop
  rw [List.append_nil] at hback
  exact ⟨c', recognize_of_takes hfront htakes hback, hsame⟩

/-- A text that is taken as an operand without signs is recognised as a chain of that operand. -/
theorem PrimaryTaken.recognize {p : Primary} {cs : List Char} (h : PrimaryTaken p cs) :
    ∃ p', recognize cs = .ok (.single (.mk [] p')) ∧ SamePrimary p p' := by
  have htaken := chainTaken_of_operand (@operandTaken_of_signs [] cs [] p .nil h)
  obtain ⟨c, hc, hsame⟩ := htaken.recognize (List.forall_mem_nil _) (List.forall_mem_nil _)
  rw [List.nil_append, List.nil_append, List.append_nil] at hc
  cases hsame with
  | single hsame =>
      cases hsame with
      | mk hsigns hp =>
          obtain rfl := List.map_eq_nil_iff.1 hsigns.symm
          exact ⟨_, hc, hp⟩

/-- A text that spells a chain is taken as that chain, apart from the blanks around it. -/
theorem Spells.taken {source : List Char} {c : Chain} (h : Spells source c) :
    ∃ gap cs gap', (∀ c ∈ gap, isBlank c = true) ∧ (∀ c ∈ gap', isBlank c = true) ∧
      source = gap ++ (cs ++ gap') ∧ ChainTaken c cs := by
  obtain ⟨s, s', t, ⟨gap, hgap, hpasses⟩, hc, ⟨gap', hgap', hpasses'⟩, hend⟩ := h
  obtain ⟨gap₁, cs, hgap₁, hpasses₁, htaken⟩ := hc.taken
  have hsource := (hpasses.append (hpasses₁.append hpasses')).1
  rw [hend, List.append_nil] at hsource
  refine ⟨gap ++ gap₁, cs, gap', blank_append hgap hgap₁, hgap', ?_, htaken⟩
  simpa only [List.append_assoc] using hsource

/-- Every text that spells a chain is recognised, as the chain that it spells. -/
theorem recognize_of_spells {source : List Char} {c : Chain} (h : Spells source c) :
    ∃ c', recognize source = .ok c' ∧ SameChain c c' := by
  obtain ⟨gap, cs, gap', hgap, hgap', rfl, htaken⟩ := h.taken
  exact htaken.recognize hgap hgap'

end RowFormula.Grammar
