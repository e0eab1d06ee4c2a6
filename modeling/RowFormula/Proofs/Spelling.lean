/-
# The language of formulas

The grammar as a relation between chains and the text that spells them, without regard to how
the text is recognised: which alternative comes first and where a step has to stop are left
out.  `spells_of_recognize` says that whatever is recognised is spelled by its text, with all
spans where they should be.
-/

import RowFormula.Proofs.Recognition

namespace RowFormula.Grammar

open Cursor (Passes)
open Recognize

/-! ### Operands without parts -/

def IsDigits (cs : List Char) : Prop := cs ≠ [] ∧ ∀ c ∈ cs, c.isDigit = true

inductive IsExponent : List Char → Prop
  | unsigned {e : Char} {digits : List Char} :
      (e == 'e' || e == 'E') = true → IsDigits digits → IsExponent (e :: digits)
  | signed {e sign : Char} {digits : List Char} :
      (e == 'e' || e == 'E') = true → (sign == '+' || sign == '-') = true → IsDigits digits →
      IsExponent (e :: sign :: digits)

inductive IsFloat : List Char → Prop
  | point {whole fraction e : List Char} :
      IsDigits whole → (∀ c ∈ fraction, c.isDigit = true) → (e = [] ∨ IsExponent e) →
      IsFloat (whole ++ '.' :: fraction ++ e)
  | leadingPoint {fraction e : List Char} :
      IsDigits fraction → (e = [] ∨ IsExponent e) → IsFloat ('.' :: fraction ++ e)
  | exponent {whole e : List Char} : IsDigits whole → IsExponent e → IsFloat (whole ++ e)

inductive IsName : List Char → Prop
  | cons {c : Char} {cs : List Char} :
      startsName c = true → (∀ d ∈ cs, continuesName d = true) → IsName (c :: cs)

/-- A character of a name in brackets. -/
inductive AttributePart : List Char → Prop
  | plain {c : Char} : c ≠ ']' → c ≠ '\\' → AttributePart [c]
  | escape {c : Char} : (c == '[' || c == ']' || c == '\\') = true → AttributePart ['\\', c]

/-- A character of a text in quotes. -/
inductive TextPart : List Char → Prop
  | plain {c : Char} : c ≠ '"' → c ≠ '\\' → TextPart [c]
  | escape {c : Char} :
      (c == '"' || c == '\\' || c == 'n' || c == 'r' || c == 't') = true → TextPart ['\\', c]
  | unicode {a b c d : Char} :
      isHexDigit a = true → isHexDigit b = true → isHexDigit c = true → isHexDigit d = true →
      TextPart ['\\', 'u', a, b, c, d]

/-- A name that a macro reference can hold. -/
def IsMacroName (cs : List Char) : Prop := cs ≠ [] ∧ '\x7d' ∉ cs

/-- The texts of operands without parts. -/
inductive SpellsLeaf : List Char → Leaf → Prop
  | attributeRef {parts : List (List Char)} :
      parts ≠ [] → (∀ part ∈ parts, AttributePart part) →
      SpellsLeaf ('[' :: parts.flatten ++ [']']) (.attributeRef parts.flatten)
  | macroRef {name : List Char} :
      IsMacroName name → SpellsLeaf ('%' :: '\x7b' :: name ++ ['\x7d']) (.macroRef name)
  | float {digits : List Char} : IsFloat digits → SpellsLeaf digits (.float digits)
  | integer {digits : List Char} : IsDigits digits → SpellsLeaf digits (.integer digits)
  | string {parts : List (List Char)} :
      (∀ part ∈ parts, TextPart part) →
      SpellsLeaf ('"' :: parts.flatten ++ ['"']) (.string parts.flatten)
  | ident {name : List Char} : IsName name → SpellsLeaf name (.ident name)

/-! ### Chains -/

/-- There are only blanks between the cursors. -/
def PassesBlanks (s s' : Cursor) : Prop :=
  ∃ cs, (∀ c ∈ cs, isBlank c = true) ∧ s.Passes cs s'

/-- There is an operator between the cursors, possibly with blanks that belong to it. -/
def PassesOperator (text : String) (s s' : Cursor) : Prop :=
  ∃ s₁, s.Passes text.toList s₁ ∧ PassesBlanks s₁ s'

/-- Operators in front of an operand, with blanks around them. -/
inductive SpellsSigns : Cursor → List Sign → Cursor → Prop
  | nil {s s' : Cursor} : PassesBlanks s s' → SpellsSigns s [] s'
  | cons {s s₁ s₂ s' : Cursor} {op : UnaryOp} {signs : List Sign} :
      PassesBlanks s s₁ → PassesOperator op.text s₁ s₂ → SpellsSigns s₂ signs s' →
      SpellsSigns s (⟨op, ⟨s₁.position, s₂.position⟩⟩ :: signs) s'

mutual

/-- The text between two cursors spells a chain. -/
inductive SpellsChain : Cursor → Chain → Cursor → Prop
  | single {s s' : Cursor} {x : Operand} : SpellsOperand s x s' → SpellsChain s (.single x) s'
  | link {s s₁ s₂ s₃ s₄ s' : Cursor} {x : Operand} {op : InfixOp} {rest : Chain} :
      SpellsOperand s x s₁ → PassesBlanks s₁ s₂ → PassesOperator op.text s₂ s₃ →
      PassesBlanks s₃ s₄ → SpellsChain s₄ rest s' →
      SpellsChain s (.link x op ⟨s₂.position, s₃.position⟩ rest) s'

inductive SpellsOperand : Cursor → Operand → Cursor → Prop
  | mk {s s₁ s' : Cursor} {signs : List Sign} {p : Primary} :
      SpellsSigns s signs s₁ → SpellsPrimary s₁ p s' → SpellsOperand s (.mk signs p) s'

inductive SpellsPrimary : Cursor → Primary → Cursor → Prop
  | group {s s₁ s₂ s₃ s₄ s' : Cursor} {c : Chain} :
      s.Passes ['('] s₁ → PassesBlanks s₁ s₂ → SpellsChain s₂ c s₃ → PassesBlanks s₃ s₄ →
      s₄.Passes [')'] s' → SpellsPrimary s (.group c ⟨s.position, s'.position⟩) s'
  | call {s s₁ s₂ s₃ s₄ s₅ s₆ s' : Cursor} {name : List Char} {args : List Chain} :
      IsName name → s.Passes name s₁ → PassesBlanks s₁ s₂ → s₂.Passes ['('] s₃ →
      PassesBlanks s₃ s₄ → SpellsArguments s₄ args s₅ → PassesBlanks s₅ s₆ →
      s₆.Passes [')'] s' → SpellsPrimary s (.call name args ⟨s.position, s'.position⟩) s'
  | leaf {s s' : Cursor} {cs : List Char} {leaf : Leaf} :
      SpellsLeaf cs leaf → s.Passes cs s' →
      SpellsPrimary s (.leaf leaf ⟨s.position, s'.position⟩) s'

/-- Arguments with commas between them, or none. -/
inductive SpellsArguments : Cursor → List Chain → Cursor → Prop
  | none {s : Cursor} : SpellsArguments s [] s
  | some {s s₁ s' : Cursor} {c : Chain} {cs : List Chain} :
      SpellsChain s c s₁ → SpellsMore s₁ cs s' → SpellsArguments s (c :: cs) s'

/-- Further arguments, each behind a comma. -/
inductive SpellsMore : Cursor → List Chain → Cursor → Prop
  | nil {s : Cursor} : SpellsMore s [] s
  | cons {s s₁ s₂ s₃ s₄ s' : Cursor} {c : Chain} {cs : List Chain} :
      PassesBlanks s s₁ → s₁.Passes [','] s₂ → PassesBlanks s₂ s₃ → SpellsChain s₃ c s₄ →
      SpellsMore s₄ cs s' → SpellsMore s (c :: cs) s'

end

/-- A whole text, with blanks around the chain. -/
def Spells (source : List Char) (c : Chain) : Prop :=
  ∃ s s' t : Cursor,
    PassesBlanks ⟨source, 0⟩ s ∧ SpellsChain s c s' ∧ PassesBlanks s' t ∧ t.rest = []

/-! ### Steps for operands without parts -/

section Leaves

variable {s s' : Cursor} {cs : List Char}

theorem isName_of_yields (h : Yields name s cs s') : IsName cs ∧ s.Passes cs s' := by
  obtain ⟨c, _, hc, h⟩ := h.of_construct.of_bind
  obtain ⟨ds, _, hds, h⟩ := h.of_bind
  obtain ⟨rfl, rfl⟩ := yields_pure.1 h
  obtain ⟨hstart, hpasses⟩ := hc.of_satisfy
  obtain ⟨hcontinue, hpasses'⟩ := hds.of_run
  exact ⟨.cons hstart hcontinue, hpasses.append hpasses'⟩

theorem isDigits_of_yields (h : Yields (run1 Char.isDigit) s cs s') :
    IsDigits cs ∧ s.Passes cs s' := by
  obtain ⟨hne, hdigits, hpasses⟩ := h.of_run1
  exact ⟨⟨hne, hdigits⟩, hpasses⟩

theorem isExponent_of_yields (h : Yields exponent s cs s') : IsExponent cs ∧ s.Passes cs s' := by
  obtain ⟨e, _, he, h⟩ := h.of_bind
  obtain ⟨sign, _, hsign, h⟩ := h.of_bind
  obtain ⟨digits, _, hdigits, h⟩ := h.of_bind
  obtain ⟨rfl, rfl⟩ := yields_pure.1 h
  obtain ⟨hletter, hpasses⟩ := he.of_satisfy
  obtain ⟨hall, hpasses'⟩ := isDigits_of_yields hdigits
  rcases hsign.of_orElse with hsign | hsign
  · obtain ⟨c, _, hc, h⟩ := hsign.of_bind
    obtain ⟨rfl, rfl⟩ := yields_pure.1 h
    obtain ⟨hsign, hpasses''⟩ := hc.of_satisfy
    exact ⟨.signed hletter hsign hall, (hpasses.append hpasses'').append hpasses'⟩
  · obtain ⟨rfl, rfl⟩ := yields_pure.1 hsign
    exact ⟨.unsigned hletter hall, hpasses.append hpasses'⟩

theorem optionalExponent_of_yields (h : Yields (exponent <|> pure []) s cs s') :
    (cs = [] ∨ IsExponent cs) ∧ s.Passes cs s' := by
  rcases h.of_orElse with h | h
  · obtain ⟨hexponent, hpasses⟩ := isExponent_of_yields h
    exact ⟨.inr hexponent, hpasses⟩
  · obtain ⟨rfl, rfl⟩ := yields_pure.1 h
    exact ⟨.inl rfl, Passes.nil s⟩

theorem isFloat_of_yields (h : Yields float s cs s') : IsFloat cs ∧ s.Passes cs s' := by
  obtain ⟨p, hp, h⟩ := h.of_construct.of_first
  simp only [List.mem_cons, List.not_mem_nil, or_false] at hp
  obtain rfl | rfl | rfl := hp
  · obtain ⟨whole, _, hwhole, h⟩ := h.of_bind
    obtain ⟨_, _, hpoint, h⟩ := h.of_bind
    obtain ⟨fraction, _, hfraction, h⟩ := h.of_bind
    obtain ⟨e, _, he, h⟩ := h.of_bind
    obtain ⟨rfl, rfl⟩ := yields_pure.1 h
    obtain ⟨hwhole, hpasses⟩ := isDigits_of_yields hwhole
    obtain ⟨hfraction, hpasses'⟩ := hfraction.of_run
    obtain ⟨he, hpasses''⟩ := optionalExponent_of_yields he
    exact ⟨.point hwhole hfraction he,
      (hpasses.append (hpoint.of_char.append hpasses')).append hpasses''⟩
  · obtain ⟨_, _, hpoint, h⟩ := h.of_bind
    obtain ⟨fraction, _, hfraction, h⟩ := h.of_bind
    obtain ⟨e, _, he, h⟩ := h.of_bind
    obtain ⟨rfl, rfl⟩ := yields_pure.1 h
    obtain ⟨hfraction, hpasses⟩ := isDigits_of_yields hfraction
    obtain ⟨he, hpasses'⟩ := optionalExponent_of_yields he
    exact ⟨.leadingPoint hfraction he, (hpoint.of_char.append hpasses).append hpasses'⟩
  · obtain ⟨whole, _, hwhole, h⟩ := h.of_bind
    obtain ⟨e, _, he, h⟩ := h.of_bind
    obtain ⟨rfl, rfl⟩ := yields_pure.1 h
    obtain ⟨hwhole, hpasses⟩ := isDigits_of_yields hwhole
    obtain ⟨he, hpasses'⟩ := isExponent_of_yields he
    exact ⟨.exponent hwhole he, hpasses.append hpasses'⟩

theorem escapeOf_of_yields {allowed : Char → Bool} (h : Yields (escapeOf allowed) s cs s') :
    ∃ c, allowed c = true ∧ cs = ['\\', c] ∧ s.Passes cs s' := by
  obtain ⟨_, _, hescape, h⟩ := h.of_bind
  obtain ⟨c, _, hc, h⟩ := h.of_bind
  obtain ⟨rfl, rfl⟩ := yields_pure.1 h
  obtain ⟨hallowed, hpasses⟩ := hc.of_satisfy
  exact ⟨c, hallowed, rfl, hescape.of_char.append hpasses⟩

theorem plainBefore_of_yields {delimiter : Char} (h : Yields (plainBefore delimiter) s cs s') :
    ∃ c, c ≠ delimiter ∧ c ≠ '\\' ∧ cs = [c] ∧ s.Passes cs s' := by
  obtain ⟨c, _, hc, h⟩ := h.of_bind
  obtain ⟨rfl, rfl⟩ := yields_pure.1 h
  obtain ⟨htest, hpasses⟩ := hc.of_satisfy
  rw [Bool.and_eq_true, bne_iff_ne, bne_iff_ne] at htest
  exact ⟨c, htest.1, htest.2, rfl, hpasses⟩

theorem unicodeEscape_of_yields (h : Yields unicodeEscape s cs s') :
    TextPart cs ∧ s.Passes cs s' := by
  obtain ⟨_, _, hescape, h⟩ := h.of_bind
  obtain ⟨a, _, ha, h⟩ := h.of_bind
  obtain ⟨b, _, hb, h⟩ := h.of_bind
  obtain ⟨c, _, hc, h⟩ := h.of_bind
  obtain ⟨d, _, hd, h⟩ := h.of_bind
  obtain ⟨rfl, rfl⟩ := yields_pure.1 h
  obtain ⟨ha, hpassesa⟩ := ha.of_satisfy
  obtain ⟨hb, hpassesb⟩ := hb.of_satisfy
  obtain ⟨hc, hpassesc⟩ := hc.of_satisfy
  obtain ⟨hd, hpassesd⟩ := hd.of_satisfy
  exact ⟨.unicode ha hb hc hd,
    (((hescape.of_text.append hpassesa).append hpassesb).append hpassesc).append hpassesd⟩

/-- Parts that are taken one after another make up the text that they pass. -/
theorem repeats_parts {R : Cursor → List Char → Cursor → Prop} {Part : List Char → Prop}
    {parts : List (List Char)} (h : Repeats R s parts s')
    (hpart : ∀ s cs s', R s cs s' → Part cs ∧ s.Passes cs s') :
    (∀ part ∈ parts, Part part) ∧ s.Passes parts.flatten s' := by
  induction h with
  | nil => exact ⟨nofun, Passes.nil _⟩
  | cons hx _ ih =>
      obtain ⟨hx, hpasses⟩ := hpart _ _ _ hx
      exact ⟨List.forall_mem_cons.2 ⟨hx, ih.1⟩, hpasses.append ih.2⟩

theorem attributePart_of_yields
    (h : Yields (first [escapeOf fun c => c == '[' || c == ']' || c == '\\', plainBefore ']'])
      s cs s') : AttributePart cs ∧ s.Passes cs s' := by
  obtain ⟨p, hp, h⟩ := h.of_first
  simp only [List.mem_cons, List.not_mem_nil, or_false] at hp
  obtain rfl | rfl := hp
  · obtain ⟨c, hc, rfl, hpasses⟩ := escapeOf_of_yields h
    exact ⟨.escape hc, hpasses⟩
  · obtain ⟨c, hdelimiter, hescape, rfl, hpasses⟩ := plainBefore_of_yields h
    exact ⟨.plain hdelimiter hescape, hpasses⟩

theorem textPart_of_yields
    (h : Yields (first
      [ escapeOf fun c => c == '"' || c == '\\' || c == 'n' || c == 'r' || c == 't',
        unicodeEscape,
        plainBefore '"' ]) s cs s') : TextPart cs ∧ s.Passes cs s' := by
  obtain ⟨p, hp, h⟩ := h.of_first
  simp only [List.mem_cons, List.not_mem_nil, or_false] at hp
  obtain rfl | rfl | rfl := hp
  · obtain ⟨c, hc, rfl, hpasses⟩ := escapeOf_of_yields h
    exact ⟨.escape hc, hpasses⟩
  · exact unicodeEscape_of_yields h
  · obtain ⟨c, hdelimiter, hescape, rfl, hpasses⟩ := plainBefore_of_yields h
    exact ⟨.plain hdelimiter hescape, hpasses⟩

theorem bracketed_of_yields (h : Yields bracketed s cs s') :
    ∃ ds, SpellsLeaf ds (.attributeRef cs) ∧ s.Passes ds s' := by
  obtain ⟨_, _, hopen, h⟩ := h.of_construct.of_bind
  obtain ⟨parts, _, hparts, h⟩ := h.of_bind
  obtain ⟨_, _, hclose, h⟩ := h.of_bind
  obtain ⟨rfl, rfl⟩ := yields_pure.1 h
  obtain ⟨ds, _, hds, h⟩ := hparts.of_construct.of_bind
  split at h
  · exact absurd h not_yields_fail
  · rename_i hempty
    obtain ⟨rfl, rfl⟩ := yields_pure.1 h
    obtain ⟨hds, hpasses⟩ := repeats_parts hds.of_many fun _ _ _ => attributePart_of_yields
    exact ⟨_, .attributeRef (fun hnil => hempty (by rw [hnil]; rfl)) hds,
      (hopen.of_char.append hpasses).append hclose.of_char⟩

theorem macroReference_of_yields (h : Yields macroReference s cs s') :
    ∃ ds, SpellsLeaf ds (.macroRef cs) ∧ s.Passes ds s' := by
  obtain ⟨_, _, hopen, h⟩ := h.of_construct.of_bind
  obtain ⟨name, _, hname, h⟩ := h.of_bind
  obtain ⟨_, _, hclose, h⟩ := h.of_bind
  obtain ⟨rfl, rfl⟩ := yields_pure.1 h
  obtain ⟨hne, htest, hpasses⟩ := hname.of_construct.of_run1
  refine ⟨_, .macroRef ⟨hne, fun hmem => ?_⟩,
    (hopen.of_text.append hpasses).append hclose.of_char⟩
  exact bne_iff_ne.1 (htest _ hmem) rfl

theorem quotedText_of_yields (h : Yields quotedText s cs s') :
    ∃ ds, SpellsLeaf ds (.string cs) ∧ s.Passes ds s' := by
  obtain ⟨_, _, hopen, h⟩ := h.of_construct.of_bind
  obtain ⟨parts, _, hparts, h⟩ := h.of_bind
  obtain ⟨_, _, hclose, h⟩ := h.of_bind
  obtain ⟨rfl, rfl⟩ := yields_pure.1 h
  obtain ⟨hparts, hpasses⟩ :=
    repeats_parts hparts.of_construct.of_many fun _ _ _ => textPart_of_yields
  exact ⟨_, .string hparts, (hopen.of_char.append hpasses).append hclose.of_char⟩

end Leaves

/-! ### Steps for chains -/

section Chains

variable {s s' : Cursor}

theorem passesBlanks_of_yields {u : Unit} (h : Yields blanks s u s') : PassesBlanks s s' := by
  obtain ⟨cs, _, hcs, h⟩ := h.of_bind
  obtain ⟨-, rfl⟩ := yields_pure.1 h
  exact ⟨cs, hcs.of_run⟩

theorem PassesBlanks.refl (s : Cursor) : PassesBlanks s s := ⟨[], nofun, Passes.nil s⟩

/-- An operator that must not be followed by some character may have blanks behind it. -/
theorem passesOperator_of_yields {cs : String} {guarded : Prop} [Decidable guarded]
    {next : Char} {u : Unit}
    (h : Yields (do
      text cs.toList
      if guarded then
        blanks
        isNotNext next) s u s') : PassesOperator cs s s' := by
  obtain ⟨_, s₁, htext, h⟩ := h.of_bind
  refine ⟨s₁, htext.of_text, ?_⟩
  split at h
  · obtain ⟨_, _, hblanks, h⟩ := h.of_bind
    obtain rfl := h.of_isNotNext
    exact passesBlanks_of_yields hblanks
  · obtain ⟨-, rfl⟩ := yields_pure.1 h
    exact PassesBlanks.refl s₁

theorem sign_of_yields {x : Sign} (h : Yields sign s x s') :
    PassesOperator x.op.text s s' ∧ x.span = ⟨s.position, s'.position⟩ := by
  obtain ⟨p, hp, h⟩ := h.of_first
  obtain ⟨op, -, rfl⟩ := List.mem_map.1 hp
  obtain ⟨⟨_, span⟩, _, hspanned, h⟩ := h.of_bind
  obtain ⟨rfl, rfl⟩ := yields_pure.1 h
  obtain ⟨hconstruct, rfl⟩ := hspanned.of_spanned
  exact ⟨passesOperator_of_yields hconstruct.of_construct, rfl⟩

theorem infixOperator_of_yields {op : InfixOp} {span : Span}
    (h : Yields infixOperator s (op, span) s') :
    PassesOperator op.text s s' ∧ span = ⟨s.position, s'.position⟩ := by
  obtain ⟨p, hp, h⟩ := h.of_first
  obtain ⟨op, -, rfl⟩ := List.mem_map.1 hp
  obtain ⟨⟨_, span⟩, _, hspanned, h⟩ := h.of_bind
  obtain ⟨heq, rfl⟩ := yields_pure.1 h
  cases heq
  obtain ⟨hconstruct, rfl⟩ := hspanned.of_spanned
  exact ⟨passesOperator_of_yields hconstruct.of_construct, rfl⟩

theorem spellsSigns_of_repeats {found : List Sign} {s₁ : Cursor}
    (h : Repeats (Yields (do blanks; sign)) s found s₁) (hblanks : PassesBlanks s₁ s') :
    SpellsSigns s found s' := by
  induction h with
  | nil => exact .nil hblanks
  | @cons _ _ _ x _ hx _ ih =>
      obtain ⟨_, _, hbefore, hx⟩ := hx.of_bind
      obtain ⟨op, span⟩ := x
      obtain ⟨hoperator, rfl⟩ := sign_of_yields hx
      exact .cons (passesBlanks_of_yields hbefore) hoperator (ih hblanks)

theorem spellsSigns_of_yields {found : List Sign} (h : Yields signs s found s') :
    SpellsSigns s found s' := by
  obtain ⟨found, s₁, hfound, h⟩ := h.of_bind
  obtain ⟨_, _, hblanks, h⟩ := h.of_bind
  obtain ⟨rfl, rfl⟩ := yields_pure.1 h
  have hblanks := passesBlanks_of_yields hblanks
  rcases hfound.of_orElse with hfound | hfound
  · obtain ⟨⟨op, span⟩, _, hsign, h⟩ := hfound.of_bind
    obtain ⟨more, _, hmore, h⟩ := h.of_bind
    obtain ⟨rfl, rfl⟩ := yields_pure.1 h
    obtain ⟨hoperator, rfl⟩ := sign_of_yields hsign
    exact .cons (PassesBlanks.refl s) hoperator (spellsSigns_of_repeats hmore.of_many hblanks)
  · obtain ⟨rfl, rfl⟩ := yields_pure.1 hfound
    exact .nil hblanks

section Parts

variable {inner : Recognize Chain}

theorem spellsOperand_of_yields {p : Recognize Primary} {x : Operand}
    (hp : ∀ {s x s'}, Yields p s x s' → SpellsPrimary s x s')
    (h : Yields (operand p) s x s') : SpellsOperand s x s' := by
  obtain ⟨found, _, hfound, h⟩ := h.of_bind
  obtain ⟨x, _, hx, h⟩ := h.of_bind
  obtain ⟨rfl, rfl⟩ := yields_pure.1 h
  exact .mk (spellsSigns_of_yields hfound) (hp hx)

theorem spellsChain_of_links {p : Recognize Primary} {x : Operand} {s₁ : Cursor}
    {links : List (InfixOp × Span × Operand)}
    (hp : ∀ {s x s'}, Yields p s x s' → SpellsPrimary s x s') (hx : SpellsOperand s x s₁)
    (hlinks : Repeats (Yields (link p)) s₁ links s') : SpellsChain s (chainOf x links) s' := by
  induction hlinks generalizing s x with
  | nil => exact .single hx
  | cons hlink _ ih =>
      obtain ⟨_, _, hblanks, h⟩ := hlink.of_bind
      obtain ⟨⟨op, span⟩, _, hop, h⟩ := h.of_bind
      obtain ⟨_, _, hblanks', h⟩ := h.of_bind
      obtain ⟨y, _, hy, h⟩ := h.of_bind
      obtain ⟨rfl, rfl⟩ := yields_pure.1 h
      obtain ⟨hoperator, rfl⟩ := infixOperator_of_yields hop
      exact .link hx (passesBlanks_of_yields hblanks) hoperator (passesBlanks_of_yields hblanks')
        (ih (spellsOperand_of_yields hp hy))

theorem spellsChain_of_yields {p : Recognize Primary} {c : Chain}
    (hp : ∀ {s x s'}, Yields p s x s' → SpellsPrimary s x s')
    (h : Yields (chain p) s c s') : SpellsChain s c s' := by
  obtain ⟨x, s₁, hx, h⟩ := h.of_bind
  obtain ⟨links, _, hlinks, h⟩ := h.of_bind
  obtain ⟨rfl, rfl⟩ := yields_pure.1 h
  exact spellsChain_of_links hp (spellsOperand_of_yields hp hx) hlinks.of_many

variable (hinner : ∀ {s c s'}, Yields inner s c s' → SpellsChain s c s')

include hinner

theorem spellsPrimary_of_group {p : Primary} (h : Yields (group inner) s p s') :
    SpellsPrimary s p s' := by
  obtain ⟨⟨c, span⟩, _, hspanned, h⟩ := h.of_bind
  obtain ⟨rfl, rfl⟩ := yields_pure.1 h
  obtain ⟨hgroup, rfl⟩ := hspanned.of_spanned
  obtain ⟨_, _, hopen, h⟩ := hgroup.of_construct.of_bind
  obtain ⟨_, _, hblanks, h⟩ := h.of_bind
  obtain ⟨c, _, hc, h⟩ := h.of_bind
  obtain ⟨_, _, hblanks', h⟩ := h.of_bind
  obtain ⟨_, _, hclose, h⟩ := h.of_bind
  obtain ⟨rfl, rfl⟩ := yields_pure.1 h
  exact .group hopen.of_char (passesBlanks_of_yields hblanks) (hinner hc)
    (passesBlanks_of_yields hblanks') hclose.of_char

theorem spellsMore_of_repeats {cs : List Chain}
    (h : Repeats (Yields (do blanks; char ','; blanks; inner)) s cs s') : SpellsMore s cs s' := by
  induction h with
  | nil => exact .nil
  | cons hc _ ih =>
      obtain ⟨_, _, hblanks, h⟩ := hc.of_bind
      obtain ⟨_, _, hcomma, h⟩ := h.of_bind
      obtain ⟨_, _, hblanks', h⟩ := h.of_bind
      exact .cons (passesBlanks_of_yields hblanks) hcomma.of_char
        (passesBlanks_of_yields hblanks') (hinner h) ih

theorem spellsArguments_of_yields {cs : List Chain}
    (h : Yields (arguments inner <|> pure []) s cs s') : SpellsArguments s cs s' := by
  rcases h.of_orElse with h | h
  · obtain ⟨c, _, hc, h⟩ := h.of_bind
    obtain ⟨cs, _, hcs, h⟩ := h.of_bind
    obtain ⟨rfl, rfl⟩ := yields_pure.1 h
    exact .some (hinner hc) (spellsMore_of_repeats hinner hcs.of_many)
  · obtain ⟨rfl, rfl⟩ := yields_pure.1 h
    exact .none

theorem spellsPrimary_of_call {p : Primary} (h : Yields (call inner) s p s') :
    SpellsPrimary s p s' := by
  obtain ⟨⟨⟨fn, args⟩, span⟩, _, hspanned, h⟩ := h.of_bind
  obtain ⟨rfl, rfl⟩ := yields_pure.1 h
  obtain ⟨hcall, rfl⟩ := hspanned.of_spanned
  obtain ⟨fn, _, hfn, h⟩ := hcall.of_construct.of_bind
  obtain ⟨_, _, hblanks, h⟩ := h.of_bind
  obtain ⟨_, _, hopen, h⟩ := h.of_bind
  obtain ⟨_, _, hblanks', h⟩ := h.of_bind
  obtain ⟨args, _, hargs, h⟩ := h.of_bind
  obtain ⟨_, _, hblanks'', h⟩ := h.of_bind
  obtain ⟨_, _, hclose, h⟩ := h.of_bind
  obtain ⟨heq, rfl⟩ := yields_pure.1 h
  cases heq
  obtain ⟨hname, hpasses⟩ := isName_of_yields hfn
  exact .call hname hpasses (passesBlanks_of_yields hblanks) hopen.of_char
    (passesBlanks_of_yields hblanks') (spellsArguments_of_yields hinner hargs)
    (passesBlanks_of_yields hblanks'') hclose.of_char

omit hinner in
theorem spellsPrimary_of_leaf {make : List Char → Leaf} {step : Recognize (List Char)}
    {p : Primary} (h : Yields (leaf make step) s p s')
    (hstep : ∀ {cs}, Yields step s cs s' → ∃ ds, SpellsLeaf ds (make cs) ∧ s.Passes ds s') :
    SpellsPrimary s p s' := by
  obtain ⟨⟨cs, span⟩, _, hspanned, h⟩ := h.of_bind
  obtain ⟨rfl, rfl⟩ := yields_pure.1 h
  obtain ⟨hcs, rfl⟩ := hspanned.of_spanned
  obtain ⟨ds, hleaf, hpasses⟩ := hstep hcs
  exact .leaf hleaf hpasses

theorem spellsPrimary_of_yields {p : Primary} (h : Yields (primary inner) s p s') :
    SpellsPrimary s p s' := by
  obtain ⟨step, hstep, h⟩ := h.of_first
  simp only [List.mem_cons, List.not_mem_nil, or_false] at hstep
  obtain rfl | rfl | rfl | rfl | rfl | rfl | rfl | rfl := hstep
  · exact spellsPrimary_of_group hinner h
  · exact spellsPrimary_of_call hinner h
  · exact spellsPrimary_of_leaf h bracketed_of_yields
  · exact spellsPrimary_of_leaf h macroReference_of_yields
  · refine spellsPrimary_of_leaf h fun hcs => ?_
    obtain ⟨hfloat, hpasses⟩ := isFloat_of_yields hcs
    exact ⟨_, .float hfloat, hpasses⟩
  · refine spellsPrimary_of_leaf h fun hcs => ?_
    obtain ⟨hdigits, hpasses⟩ := isDigits_of_yields hcs.of_construct
    exact ⟨_, .integer hdigits, hpasses⟩
  · exact spellsPrimary_of_leaf h quotedText_of_yields
  · refine spellsPrimary_of_leaf h fun hcs => ?_
    obtain ⟨hname, hpasses⟩ := isName_of_yields hcs
    exact ⟨_, .ident hname, hpasses⟩

end Parts

/-- What the steps for chains take is spelled as the grammar says.  The induction is on the
levels of groups and calls that may still be opened. -/
theorem spellsChain_of_expression {levels : Nat} {c : Chain}
    (h : Yields (expression levels) s c s') : SpellsChain s c s' := by
  induction levels generalizing s c s' with
  | zero => exact absurd h not_yields_fail
  | succ levels ih => exact spellsChain_of_yields (spellsPrimary_of_yields ih) h.of_construct

theorem spells_of_recognize {source : List Char} {c : Chain} (h : recognize source = .ok c) :
    Spells source c := by
  have hyields : ∃ t, Yields wholeText ⟨source, 0⟩ c t := by
    unfold recognize at h
    split at h
    · rename_i c' t a houtcome
      cases h
      exact ⟨t, {}, congrArg Prod.fst houtcome⟩
    · cases h
  obtain ⟨t, h⟩ := hyields
  obtain ⟨_, _, hget, h⟩ := h.of_bind
  obtain ⟨rfl, rfl⟩ := yields_get.1 hget
  obtain ⟨_, s, hblanks, h⟩ := h.of_construct.of_bind
  obtain ⟨c, s', hc, h⟩ := h.of_bind
  obtain ⟨_, t, hblanks', h⟩ := h.of_bind
  obtain ⟨_, _, hend, h⟩ := h.of_bind
  obtain ⟨rfl, rfl⟩ := yields_pure.1 h
  obtain ⟨_, _, hget, hend⟩ := hend.of_construct.of_bind
  obtain ⟨rfl, rfl⟩ := yields_get.1 hget
  split at hend
  · rename_i hempty
    exact ⟨s, s', t, passesBlanks_of_yields hblanks, spellsChain_of_expression hc,
      passesBlanks_of_yields hblanks', List.isEmpty_iff.1 hempty⟩
  · exact absurd hend not_yields_fail

end Chains

end RowFormula.Grammar
