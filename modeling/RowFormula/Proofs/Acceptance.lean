/-
# Forms that are accepted

How the steps of the grammar go on texts of a known form.  An alternative is refused by its
first character, and a chain ends where no operator follows.
-/

import RowFormula.Proofs.Spelling

namespace RowFormula.Grammar

open Recognize

variable {inner : Recognize Chain} {p : Recognize Primary} {s s₁ s₂ s₃ s₄ s₅ s' : Cursor}
variable {x y : Operand} {c : Chain}

/-- There is no operator in front of an operand where none begins. -/
theorem refuses_sign (h : ∀ c ∈ s.rest.head?, c ≠ '-' ∧ c ≠ '+' ∧ c ≠ '!') : Refuses sign s := by
  refine Refuses.first fun step hstep => ?_
  obtain ⟨op, -, rfl⟩ := List.mem_map.1 hstep
  refine Refuses.bind (Refuses.spanned (Refuses.construct (Refuses.bind ?_)))
  cases op with
  | neg => exact refuses_text fun c hc => (h c hc).1
  | pos => exact refuses_text fun c hc => (h c hc).2.1
  | not => exact refuses_text fun c hc => (h c hc).2.2

/-- There is no operator between operands where none begins. -/
theorem refuses_infixOperator
    (h : ∀ c ∈ s.rest.head?, ∀ op : InfixOp, some c ≠ op.text.toList.head?) :
    Refuses infixOperator s := by
  refine Refuses.first fun step hstep => ?_
  obtain ⟨op, -, rfl⟩ := List.mem_map.1 hstep
  refine Refuses.bind (Refuses.spanned (Refuses.construct (Refuses.bind ?_)))
  cases hop : op.text.toList with
  | nil => exact absurd hop (by rcases op with op | op | op <;> cases op <;> decide)
  | cons d ds =>
      refine refuses_text fun c hc heq => h c hc op ?_
      rw [hop, heq]
      rfl

theorem takes_or {cs : List Char} {start : Nat} :
    ∃ span stop, Takes infixOperator ⟨'|' :: '|' :: cs, start⟩ (.logical .or, span)
      ⟨cs, stop⟩ := by
  have htext : Takes (text LogicalOp.or.text.toList) ⟨'|' :: '|' :: cs, start⟩ ()
      ⟨cs, start + '|'.utf8Size + '|'.utf8Size⟩ :=
    takes_char.bind (takes_char.bind (Takes.pure () _))
  exact ⟨_, _, Takes.orElse (Takes.bind (Takes.spanned (Takes.construct
    (htext.bind (Takes.pure () _)))) (Takes.pure _ _))⟩

theorem refuses_infixOperator_close {cs : List Char} {start : Nat} :
    Refuses infixOperator ⟨')' :: cs, start⟩ := by
  refine refuses_infixOperator fun c hc op => ?_
  cases hc
  rcases op with op | op | op <;> cases op <;> decide

theorem takes_no_blanks {c : Char} {cs : List Char} {start : Nat} (hc : isBlank c = false) :
    Takes blanks ⟨c :: cs, start⟩ () ⟨c :: cs, start⟩ := by
  refine takes_blanks fun d hd => ?_
  cases hd
  exact hc

theorem takes_operand {c : Char} {cs : List Char} {start : Nat} {primary : Primary}
    (hblank : isBlank c = false) (hsign : c ≠ '-' ∧ c ≠ '+' ∧ c ≠ '!')
    (h : Takes p ⟨c :: cs, start⟩ primary s') :
    Takes (operand p) ⟨c :: cs, start⟩ (.mk [] primary) s' := by
  have hrefuses : Refuses sign ⟨c :: cs, start⟩ := by
    refine refuses_sign fun d hd => ?_
    cases hd
    exact hsign
  have hsigns : Takes signs ⟨c :: cs, start⟩ [] ⟨c :: cs, start⟩ :=
    Takes.bind (hrefuses.bind.orElse (Takes.pure [] _))
      (Takes.bind (takes_no_blanks hblank) (Takes.pure [] _))
  exact hsigns.bind (h.bind (Takes.pure _ s'))

theorem takes_chain_single (hx : Takes (operand p) s x s') (hblanks : Takes blanks s' () s₁)
    (hstop : Refuses infixOperator s₁) : Takes (chain p) s (.single x) s' :=
  Takes.bind hx (Takes.bind (Refuses.many (Takes.refuses_bind hblanks hstop.bind))
    (Takes.pure _ s'))

theorem takes_chain_link {op : InfixOp} {span : Span} (hx : Takes (operand p) s x s₁)
    (hblanks : Takes blanks s₁ () s₂) (hop : Takes infixOperator s₂ (op, span) s₃)
    (hblanks' : Takes blanks s₃ () s₄) (hy : Takes (operand p) s₄ y s')
    (hafter : Takes blanks s' () s₅) (hstop : Refuses infixOperator s₅) :
    Takes (chain p) s (.link x op span (.single y)) s' := by
  have hlink : Takes (link p) s₁ (op, span, y) s' :=
    Takes.bind hblanks (Takes.bind hop (Takes.bind hblanks' (Takes.bind hy (Takes.pure _ s'))))
  refine Takes.bind hx (Takes.bind (Takes.many (.cons hlink .nil) ?_ ?_) (Takes.pure _ s'))
  · exact Takes.refuses_bind hafter hstop.bind
  · exact Nat.le_add_left _ _

theorem takes_group {cs rest : List Char} {start stop : Nat}
    (hblanks : Takes blanks ⟨cs, start + '('.utf8Size⟩ () s₁) (hc : Takes inner s₁ c s₂)
    (hblanks' : Takes blanks s₂ () ⟨')' :: rest, stop⟩) :
    Takes (primary inner) ⟨'(' :: cs, start⟩ (.group c ⟨start, stop + ')'.utf8Size⟩)
      ⟨rest, stop + ')'.utf8Size⟩ := by
  have hgroup : Takes (do
      char '('
      blanks
      let chain ← inner
      blanks
      char ')'
      pure chain) ⟨'(' :: cs, start⟩ c ⟨rest, stop + ')'.utf8Size⟩ :=
    Takes.bind takes_char (Takes.bind hblanks (Takes.bind hc (Takes.bind hblanks'
      (Takes.bind takes_char (Takes.pure c _)))))
  exact Takes.orElse (Takes.bind (Takes.spanned (Takes.construct hgroup)) (Takes.pure _ _))

theorem takes_leaf {make : List Char → Leaf} {step : Recognize (List Char)} {cs : List Char}
    (h : Takes step s cs s') :
    Takes (leaf make step) s (.leaf (make cs) ⟨s.position, s'.position⟩) s' :=
  Takes.bind h.spanned (Takes.pure _ _)

theorem takes_macroReference {name rest : List Char} {start : Nat} (h : IsMacroName name) :
    ∃ stop, Takes macroReference ⟨'%' :: '\x7b' :: (name ++ '\x7d' :: rest), start⟩ name
      ⟨rest, stop⟩ := by
  refine ⟨_, Takes.construct (Takes.bind (takes_char.bind (takes_char.bind (Takes.pure () _)))
    (Takes.bind (Takes.construct (takes_run1 h.1 ?_ ?_)) (takes_char.bind (Takes.pure name _))))⟩
  · intro c hc
    exact bne_iff_ne.2 fun heq => h.2 (heq ▸ hc)
  · intro c hc
    cases hc
    rfl

theorem takes_macroRef {name rest : List Char} {start : Nat} (h : IsMacroName name) :
    ∃ stop, Takes (primary inner) ⟨'%' :: '\x7b' :: (name ++ '\x7d' :: rest), start⟩
      (.leaf (.macroRef name) ⟨start, stop⟩) ⟨rest, stop⟩ := by
  obtain ⟨stop, htakes⟩ := @takes_macroReference name rest start h
  have hgroup : Refuses (group inner) ⟨'%' :: '\x7b' :: (name ++ '\x7d' :: rest), start⟩ :=
    fun _ => ⟨_, rfl⟩
  have hcall : Refuses (call inner) ⟨'%' :: '\x7b' :: (name ++ '\x7d' :: rest), start⟩ :=
    fun _ => ⟨_, rfl⟩
  have hbracketed : Refuses (leaf .attributeRef bracketed)
      ⟨'%' :: '\x7b' :: (name ++ '\x7d' :: rest), start⟩ := fun _ => ⟨_, rfl⟩
  exact ⟨stop, hgroup.orElse (hcall.orElse (hbracketed.orElse (takes_leaf htakes).orElse))⟩

/-- A digit in parentheses. -/
theorem takes_digit {rest : List Char} {start : Nat} :
    ∃ stop, Takes (primary inner) ⟨'1' :: ')' :: rest, start⟩
      (.leaf (.integer ['1']) ⟨start, stop⟩) ⟨')' :: rest, stop⟩ := by
  have hgroup : Refuses (group inner) ⟨'1' :: ')' :: rest, start⟩ := fun _ => ⟨_, rfl⟩
  have hcall : Refuses (call inner) ⟨'1' :: ')' :: rest, start⟩ := fun _ => ⟨_, rfl⟩
  have hbracketed : Refuses (leaf .attributeRef bracketed) ⟨'1' :: ')' :: rest, start⟩ :=
    fun _ => ⟨_, rfl⟩
  have hreference : Refuses (leaf .macroRef macroReference) ⟨'1' :: ')' :: rest, start⟩ :=
    fun _ => ⟨_, rfl⟩
  have hfloat : Refuses (leaf .float float) ⟨'1' :: ')' :: rest, start⟩ := fun _ => ⟨_, rfl⟩
  have hinteger : Takes integer ⟨['1'] ++ ')' :: rest, start⟩ ['1']
      ⟨')' :: rest, start + Span.bytesOf ['1']⟩ := by
    refine Takes.construct (takes_run1 (List.cons_ne_nil _ _) (fun c hc => ?_) fun c hc => ?_)
    · obtain rfl := List.mem_singleton.1 hc
      rfl
    · cases hc
      rfl
  exact ⟨_, hgroup.orElse (hcall.orElse (hbracketed.orElse (hreference.orElse (hfloat.orElse
    (takes_leaf hinteger).orElse))))⟩

theorem takes_expression {levels : Nat} (h : Takes (chain (primary (expression levels))) s c s') :
    Takes (expression (levels + 1)) s c s' :=
  Takes.construct h

/-- A whole text that is taken is recognised. -/
theorem recognize_of_takes {source : List Char} {stop : Nat}
    (hblanks : Takes blanks ⟨source, 0⟩ () s)
    (hc : Takes (expression (source.length + 1)) s c s')
    (hblanks' : Takes blanks s' () ⟨[], stop⟩) : recognize source = .ok c := by
  have hend : Takes endOfInput ⟨[], stop⟩ () ⟨[], stop⟩ := fun a => ⟨a, rfl⟩
  have htakes : Takes wholeText ⟨source, 0⟩ c ⟨[], stop⟩ :=
    Takes.bind (fun a => ⟨a, outcome_get⟩) (Takes.construct (Takes.bind hblanks (Takes.bind hc
      (Takes.bind hblanks' (Takes.bind hend (Takes.pure c _))))))
  obtain ⟨a, ha⟩ := htakes {}
  rw [recognize_eq, ha]

end RowFormula.Grammar
