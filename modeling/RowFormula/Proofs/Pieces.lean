/-
# The pieces of a text

The grammar hands a text on as a tree of pieces.  A piece has a construct, a place and parts, and
nothing keeps it from having other parts than its construct asks for: an attribute without a
name, an expression that ends with an operator.  Whoever builds a tree out of pieces needs a
branch for each such shape, and looks names and numbers up in the text once more.

This module writes such a builder down, with a `Mismatch` for every shape that it does not
expect.  The pieces of a recognised text have none of these shapes, and `parsePieces_eq` says
that building from them is building from the chain.  What is left to go wrong is what a text can
really get wrong, and `ofChain_eq_error` says what that is.
-/

import RowFormula.Proofs.Climbing
import RowFormula.Proofs.Fragments
import RowFormula.Proofs.Operands

namespace RowFormula

namespace Grammar

/-! ### Pieces -/

/-- A part of the text that some construct of the grammar took. -/
inductive Piece where
  | mk (construct : Construct) (span : Span) (parts : List Piece)

namespace Piece

def construct : Piece → Construct
  | mk construct _ _ => construct

def span : Piece → Span
  | mk _ span _ => span

def parts : Piece → List Piece
  | mk _ _ parts => parts

/-- The text that the construct took. -/
def text (source : String) (p : Piece) : String := p.span.textOf source

theorem text_mk {source : String} {construct : Construct} {span : Span} {parts : List Piece} :
    (mk construct span parts).text source = span.textOf source := rfl

end Piece

/-- What is left of a span without so many bytes on either side. -/
def inside (span : Span) (front back : Nat) : Span := ⟨span.start + front, span.stop - back⟩

/-- A single token, in which only the text between delimiters is a piece of its own. -/
def Leaf.piece (span : Span) : Leaf → Piece
  | attributeRef _ => .mk .attributeRef span [.mk .attributeName (inside span 1 1) []]
  | macroRef _ => .mk .macroRef span [.mk .macroName (inside span 2 1) []]
  | float _ => .mk .float span []
  | integer _ => .mk .integer span []
  | string _ => .mk .string span [.mk .stringContent (inside span 1 1) []]
  | ident _ => .mk .ident span []

def Sign.piece (s : Sign) : Piece := .mk (.unary s.op) s.span []

def Primary.span : Primary → Span
  | group _ span => span
  | call _ _ span => span
  | leaf _ span => span

/-- Where the first sign or operand starts. -/
def Operand.start : Operand → Nat
  | mk [] p => p.span.start
  | mk (s :: _) _ => s.span.start

def Chain.start : Chain → Nat
  | single x => x.start
  | link x _ _ _ => x.start

/-- Where the last operand ends. -/
def Chain.stop : Chain → Nat
  | single x => x.primary.span.stop
  | link _ _ _ rest => rest.stop

mutual

/-- The signs, operands and operators of an expression in one list. -/
def Chain.pieces : Chain → List Piece
  | .single x => x.pieces
  | .link x op span rest => x.pieces ++ .mk (.binary op) span [] :: rest.pieces

def Operand.pieces : Operand → List Piece
  | .mk signs p => signs.map Sign.piece ++ [p.piece]

def Primary.piece : Primary → Piece
  | .group inner span => .mk .group span [.mk .expression ⟨inner.start, inner.stop⟩ inner.pieces]
  | .call name args span =>
    .mk .call span
      (.mk .ident ⟨span.start, span.start + Span.bytesOf name⟩ [] :: piecesOfArguments args)
  | .leaf leaf span => leaf.piece span

def piecesOfArguments : List Chain → List Piece
  | [] => []
  | c :: cs => .mk .expression ⟨c.start, c.stop⟩ c.pieces :: piecesOfArguments cs

end

/-- The piece of an expression. -/
def Chain.piece (c : Chain) : Piece := .mk .expression ⟨c.start, c.stop⟩ c.pieces

theorem SpellsPrimary.span_eq {s s' : Cursor} {p : Primary} (h : SpellsPrimary s p s') :
    p.span = ⟨s.position, s'.position⟩ := by
  cases h <;> rfl

theorem SpellsOperand.start_eq {s s' : Cursor} {x : Operand} (h : SpellsOperand s x s')
    (hs : s.OnToken) : x.start = s.position := by
  cases h with
  | mk hsigns hp =>
      cases hsigns with
      | nil hblanks =>
          obtain rfl := hblanks.eq_of_onToken hs
          rw [Operand.start, hp.span_eq]
      | cons hblanks =>
          obtain rfl := hblanks.eq_of_onToken hs
          rfl

theorem SpellsChain.stop_eq {c : Chain} {s s' : Cursor} (h : SpellsChain s c s') :
    c.stop = s'.position := by
  induction c using Chain.induction generalizing s with
  | single signs p =>
      cases h with
      | single hx =>
          cases hx with
          | mk _ hp => rw [Chain.stop, Operand.primary, hp.span_eq]
  | link signs p op span rest ih =>
      cases h with
      | link _ _ _ _ hrest => exact ih hrest

/-- The piece of an expression stands where the chain is spelled. -/
theorem SpellsChain.span_piece {s s' : Cursor} {c : Chain} (h : SpellsChain s c s')
    (hs : s.OnToken) : c.piece.span = ⟨s.position, s'.position⟩ := by
  rw [Chain.piece, Piece.span, h.stop_eq]
  cases h with
  | single hx | link hx => rw [Chain.start, hx.start_eq hs]

/-- The piece of a whole text. -/
def formulaPiece (source : String) (c : Chain) : Piece :=
  .mk .formula ⟨0, source.utf8ByteSize⟩
    [c.piece, .mk .endOfInput ⟨source.utf8ByteSize, source.utf8ByteSize⟩ []]

/-- Recognises a text and yields its pieces. -/
def recognizePieces (source : String) : Except Attempts (List Piece) :=
  (recognize source.toList).map fun c => [formulaPiece source c]

end Grammar

namespace Tree

open Grammar

/-! ### Building from pieces -/

/-- A shape that the builder does not expect. -/
inductive Mismatch where
  | emptyFormula
  | missing (part : String)
  | unhandled (construct : Construct)
  | unknownSign (construct : Construct)
  | unknownOperator (construct : Construct)
  /-- An operator without operands, or operands without an operator. -/
  | dangling
  deriving DecidableEq, Repr

/-- Why building from pieces fails. -/
inductive Refusal where
  | faulty (e : SyntaxError)
  | mismatched (mismatch : Mismatch) (span : Span)
  deriving DecidableEq, Repr

/-- What building from pieces can result in. -/
abbrev Assembly (α : Type) : Type := Except Refusal α

/-- A step that does not look at pieces. -/
def lifted {α : Type} (x : Build α) : Assembly α := x.mapError .faulty

def mismatched {α : Type} (mismatch : Mismatch) (span : Span) : Assembly α :=
  throw (.mismatched mismatch span)

section Building

variable (source : String) (maxDepth : Nat)

/-- Places the operator of a token in front of an operand. -/
def signedBy (t : Token (Assembly Built)) (operand : Assembly Built) : Assembly Built := do
  let x ← operand
  match t.construct with
  | .unary op =>
    lifted (nest source maxDepth (unary op (Span.combine t.span x.tree.span) x.tree) x.height)
  | c => mismatched (.unknownSign c) t.span

/-- Places the operator of a token between two operands. -/
def joinedBy (t : Token (Assembly Built)) (left right : Assembly Built) : Assembly Built := do
  let x ← left
  let y ← right
  match t.construct with
  | .binary op =>
    let span := Span.combine x.tree.span y.tree.span
    lifted (nest source maxDepth (infixNode op span x.tree y.tree) (max x.height y.height))
  | c => mismatched (.unknownOperator c) t.span

/-- The first piece with which a run of operators that nest to the right becomes too long. -/
def longRunIn? : (run : Nat) → List Piece → Option Span
  | _, [] => none
  | run, .mk (.unary _) span _ :: rest =>
    if maxDepth < run + 1 then some span else longRunIn? (run + 1) rest
  | run, .mk (.binary op) span _ :: rest =>
    if op = InfixOp.power then
      if maxDepth < run + 1 then some span else longRunIn? (run + 1) rest
    else longRunIn? 0 rest
  | run, _ :: rest => longRunIn? run rest

mutual

/-- The tree of a piece. -/
def build : Piece → Assembly Built
  | .mk .expression span parts =>
    match longRunIn? maxDepth 0 parts with
    | some span => lifted (refuse source (.tooDeep maxDepth) span)
    | none =>
      match groupedTokens (signedBy source maxDepth) (joinedBy source maxDepth) (tokensOf parts) with
      | some x => x
      | none => mismatched .dangling span
  | .mk .group span [] => mismatched (.missing "expression in parentheses") span
  | .mk .group span (inner :: _) => do
    let x ← build inner
    pure ⟨x.tree.withSpan span, x.height⟩
  | .mk .call span [] => mismatched (.missing "function name") span
  | .mk .call span (name :: args) => do
    let (trees, height) ← buildAll args
    lifted (nest source maxDepth (call (name.text source) span trees) height)
  | .mk .attributeRef span [] => mismatched (.missing "attribute name") span
  | .mk .attributeRef span (name :: _) =>
    pure ⟨attributeRef (unbracket (name.text source)) span, 1⟩
  | .mk .macroRef span [] => mismatched (.missing "macro name") span
  | .mk .macroRef span (name :: _) => pure ⟨macroRef (name.text source) span, 1⟩
  | .mk .integer span _ => do
    let x ← lifted (readNumber source (span.textOf source).toList span)
    pure ⟨integer x span, 1⟩
  | .mk .float span _ => do
    let x ← lifted (readNumber source (span.textOf source).toList span)
    pure ⟨float x span, 1⟩
  | .mk .string span parts =>
    match unescape ((parts.head?.map (Piece.text source)).getD "") with
    | .ok s => pure ⟨text s span, 1⟩
    | .error fault => lifted (refuse source (.invalidString fault) span)
  | .mk .ident span _ => pure ⟨ident (span.textOf source) span, 1⟩
  | .mk c span _ => mismatched (.unhandled c) span
  termination_by structural p => p

/-- The trees of arguments, and the greatest of their heights. -/
def buildAll : List Piece → Assembly (List Tree × Nat)
  | [] => pure ([], 0)
  | p :: ps => do
    let x ← build p
    let (trees, height) ← buildAll ps
    pure (x.tree :: trees, max x.height height)
  termination_by structural ps => ps

/-- The pieces of an expression with what they would be as operands. -/
def tokensOf : List Piece → List (Token (Assembly Built))
  | [] => []
  | p :: ps => ⟨p.construct, p.span, build p⟩ :: tokensOf ps
  termination_by structural ps => ps

end

/-- The tree of a whole text. -/
def buildFormula (main : Piece) : Assembly Tree :=
  match main.parts.find? (·.construct == .expression) with
  | some p => (build source maxDepth p).map Built.tree
  | none => mismatched (.missing "expression") main.span

end Building

/-- Reads a formula by way of its pieces. -/
def parsePieces (maxDepth : Nat) (source : String) : Assembly Tree :=
  match deepParenthesis? maxDepth {} 0 source.toList with
  | some position => lifted (refuse source (.tooDeep maxDepth) ⟨position, position + 1⟩)
  | none =>
    match recognizePieces source with
    | .error attempts => throw (.faulty (SyntaxError.ofAttempts source attempts))
    | .ok [] => mismatched .emptyFormula ⟨0, 0⟩
    | .ok (main :: _) => buildFormula source maxDepth main

/-! ### Lifted steps -/

section Lifted

variable {α β : Type}

theorem lifted_bind (x : Build α) (f : α → Build β) :
    lifted (x >>= f) = lifted x >>= fun a => lifted (f a) := by
  cases x <;> rfl

theorem lifted_map (x : Build α) (f : α → β) : lifted (x.map f) = (lifted x).map f := by
  cases x <;> rfl

end Lifted

/-! ### Texts of tokens -/

open Cursor (Passes Reaches)

section Tokens

variable {source : String} {s s' : Cursor} {maxDepth : Nat}

theorem Passes.of_append {cs ds : List Char} (h : s.Passes (cs ++ ds) s') :
    ∃ u, s.Passes cs u ∧ u.Passes ds s' := by
  refine ⟨⟨ds ++ s'.rest, s.position + Span.bytesOf cs⟩, ⟨?_, rfl⟩, rfl, ?_⟩
  · rw [h.1, List.append_assoc]
  · rw [h.2, Span.bytesOf_append, Nat.add_assoc]

/-- What stands between delimiters is the text inside of their span. -/
theorem textOf_inside {front cs back : List Char} (hs : Reaches ⟨source.toList, 0⟩ s)
    (h : s.Passes (front ++ cs ++ back) s') :
    (inside ⟨s.position, s'.position⟩ (Span.bytesOf front) (Span.bytesOf back)).textOf source =
      String.ofList cs := by
  obtain ⟨u', h, hback⟩ := Passes.of_append h
  obtain ⟨u, hfront, hcs⟩ := Passes.of_append h
  rw [inside, hback.2, Nat.add_sub_cancel, ← hfront.2]
  exact (hs.trans hfront.reaches).textOf hcs

/-- The piece of a token is built as the token is read. -/
theorem build_leaf {cs : List Char} {leaf : Leaf} (hs : Reaches ⟨source.toList, 0⟩ s)
    (hleaf : SpellsLeaf cs leaf) (h : s.Passes cs s') :
    build source maxDepth (leaf.piece ⟨s.position, s'.position⟩) =
      lifted (ofPrimary source maxDepth (.leaf leaf ⟨s.position, s'.position⟩)) := by
  have htext := hs.textOf h
  rw [ofPrimary]
  cases hleaf with
  | @attributeRef parts =>
      have hname : (inside ⟨s.position, s'.position⟩ 1 1).textOf source =
          String.ofList parts.flatten := @textOf_inside source s s' ['['] _ [']'] hs h
      rw [Leaf.piece, build, Piece.text_mk, hname]
      rfl
  | @macroRef name =>
      have hname : (inside ⟨s.position, s'.position⟩ 2 1).textOf source = String.ofList name :=
        @textOf_inside source s s' ['%', '\x7b'] _ ['\x7d'] hs h
      rw [Leaf.piece, build, Piece.text_mk, hname]
      rfl
  | float | integer =>
      rw [Leaf.piece, build, htext, String.toList_ofList, ofLeaf]
      cases readNumber source _ _ <;> rfl
  | @string parts =>
      have hcontent : (inside ⟨s.position, s'.position⟩ 1 1).textOf source =
          String.ofList parts.flatten := @textOf_inside source s s' ['"'] _ ['"'] hs h
      rw [Leaf.piece, build, List.head?_cons, Option.map_some, Option.getD_some, Piece.text_mk,
        hcontent, ofLeaf]
      cases unescape (String.ofList parts.flatten) <;> rfl
  | ident =>
      rw [Leaf.piece, build, htext]
      rfl

end Tokens

/-! ### Expressions -/

section Expressions

section Operators

variable (source : String) (maxDepth : Nat)

/-- Places an operator in front of an operand that was built from pieces. -/
def signedLifted (s : Sign) (operand : Assembly Built) : Assembly Built := do
  let x ← operand
  lifted (signed source maxDepth s (.ok x))

/-- Places an operator between two operands that were built from pieces. -/
def joinedLifted (op : InfixOp) (left right : Assembly Built) : Assembly Built := do
  let x ← left
  let y ← right
  lifted (joined source maxDepth op (.ok x) (.ok y))

end Operators

variable {source : String} {maxDepth : Nat}

/-- The operator of a token for a sign is known. -/
theorem signedBy_eq {t : Token (Assembly Built)} {s : Sign} (hconstruct : t.construct = .unary s.op)
    (hspan : t.span = s.span) (x : Assembly Built) :
    signedBy source maxDepth t x = signedLifted source maxDepth s x := by
  unfold signedBy
  cases x with
  | error => rfl
  | ok x =>
      rw [hconstruct, hspan]
      rfl

theorem joinedBy_eq {t : Token (Assembly Built)} {op : InfixOp}
    (hconstruct : t.construct = .binary op) (x y : Assembly Built) :
    joinedBy source maxDepth t x y = joinedLifted source maxDepth op x y := by
  unfold joinedBy
  cases x with
  | error => rfl
  | ok x =>
      cases y with
      | error => rfl
      | ok y =>
          rw [hconstruct]
          rfl

theorem signedLifted_lifted (s : Sign) (x : Build Built) :
    signedLifted source maxDepth s (lifted x) = lifted (signed source maxDepth s x) := by
  cases x <;> rfl

theorem joinedLifted_lifted (op : InfixOp) (x y : Build Built) :
    joinedLifted source maxDepth op (lifted x) (lifted y) =
      lifted (joined source maxDepth op x y) := by
  cases x <;> cases y <;> rfl

/-- No operand stands in the table of operators. -/
theorem affix?_piece (p : Primary) : affix? p.piece.construct = none := by
  cases p with
  | group | call => rfl
  | leaf leaf span => cases leaf <;> rfl

theorem longRunIn?_signs {run : Nat} {signs : List Sign} {rest : List Piece} :
    longRunIn? maxDepth run (signs.map Sign.piece ++ rest) =
      match longRun?.inSigns maxDepth run signs with
      | (_, some span) => some span
      | (run, none) => longRunIn? maxDepth run rest := by
  induction signs generalizing run with
  | nil => rfl
  | cons s signs ih =>
      rw [List.map_cons, List.cons_append, Sign.piece, longRunIn?, longRun?.inSigns]
      split
      · rfl
      · exact ih

theorem longRunIn?_operand {run : Nat} {p : Primary} {rest : List Piece} :
    longRunIn? maxDepth run (p.piece :: rest) = longRunIn? maxDepth run rest := by
  cases p with
  | group | call => rfl
  | leaf leaf span => cases leaf <;> rfl

/-- Runs are as long among the pieces as in the chain. -/
theorem longRunIn?_pieces {c : Chain} {run : Nat} :
    longRunIn? maxDepth run c.pieces = longRun? maxDepth run c := by
  induction c using Chain.induction generalizing run with
  | single signs p =>
      rw [Chain.pieces, Operand.pieces, longRunIn?_signs, longRun?]
      cases longRun?.inSigns maxDepth run signs with
      | mk run found =>
          cases found with
          | some => rfl
          | none => exact longRunIn?_operand
  | link signs p op span rest ih =>
      rw [Chain.pieces, Operand.pieces, List.append_assoc, longRunIn?_signs, longRun?]
      cases longRun?.inSigns maxDepth run signs with
      | mk run found =>
          cases found with
          | some => rfl
          | none => simp only [List.singleton_append, longRunIn?_operand, longRunIn?, ih]

/-- A piece with what it would be as an operand. -/
def tokenOf (source : String) (maxDepth : Nat) (p : Piece) : Token (Assembly Built) :=
  ⟨p.construct, p.span, build source maxDepth p⟩

theorem spreads_of_signs {signs : List Sign} {x : Assembly Built} {links : List (Link (Assembly Built))}
    {rest : List Piece} (h : SpreadsSigned ⟨[], x⟩ links (tokensOf source maxDepth rest)) :
    SpreadsSigned ⟨signs, x⟩ links
      (tokensOf source maxDepth (signs.map Sign.piece ++ rest)) := by
  induction signs with
  | nil => exact h
  | cons s signs ih =>
      exact SpreadsSigned.sign (t := tokenOf source maxDepth s.piece) rfl rfl ih

/-- The pieces of a chain spread its operands out. -/
theorem spreads_pieces (c : Chain) :
    SpreadsSigned (c.sequence.map fun p => build source maxDepth p.piece).first
      (c.sequence.map fun p => build source maxDepth p.piece).links
      (tokensOf source maxDepth c.pieces) := by
  induction c using Chain.induction with
  | single signs p =>
      rw [Chain.pieces, Operand.pieces]
      refine spreads_of_signs ?_
      exact SpreadsSigned.operand (t := tokenOf source maxDepth p.piece) (affix?_piece p) .nil
  | link signs p op span rest ih =>
      rw [Chain.pieces, Operand.pieces, List.append_assoc]
      refine spreads_of_signs ?_
      exact SpreadsSigned.operand (t := tokenOf source maxDepth p.piece) (affix?_piece p)
        (.cons (t := tokenOf source maxDepth (.mk (.binary op) span [])) rfl ih)

/-- The operators of an expression are told from its operands, and grouped as in the chain. -/
theorem groupedTokens_pieces (c : Chain) :
    groupedTokens (signedBy source maxDepth) (joinedBy source maxDepth)
        (tokensOf source maxDepth c.pieces) =
      some (grouped (signedLifted source maxDepth) (joinedLifted source maxDepth)
        (c.sequence.map fun p => build source maxDepth p.piece)) :=
  groupedTokens_of_spreads (fun _ _ x hconstruct hspan => signedBy_eq hconstruct hspan x)
    (fun _ _ x y hconstruct => joinedBy_eq hconstruct x y) (spreads_pieces c)

/-- The piece of a chain is built as the chain is, if the pieces of its operands are. -/
theorem build_chain {c : Chain} (h : ∀ p ∈ c.sequence.operands,
    build source maxDepth p.piece = lifted (ofPrimary source maxDepth p)) :
    build source maxDepth c.piece =
      lifted (assembled source maxDepth c (operandsOf source maxDepth c)) := by
  rw [Chain.piece, build, longRunIn?_pieces, assembled]
  cases longRun? maxDepth 0 c with
  | some span => rfl
  | none =>
      simp only [groupedTokens_pieces, operandsOf_eq]
      -- operators in the pieces do to lifted operands what they do in the chain
      exact grouped_relates (R := fun x y => x = lifted y)
        (fun s _ y hx => hx ▸ signedLifted_lifted s y)
        (fun op _ _ x y hx hy => hx ▸ hy ▸ joinedLifted_lifted op x y) h

end Expressions

/-! ### Texts -/

section Texts

variable {source : String} {maxDepth : Nat} {s s' : Cursor}

/-- Arguments are built as their chains are, if their pieces are. -/
theorem buildAll_arguments {cs : List Chain} (h : ∀ c ∈ cs, build source maxDepth c.piece =
    lifted (assembled source maxDepth c (operandsOf source maxDepth c))) :
    buildAll source maxDepth (piecesOfArguments cs) = lifted (ofChains source maxDepth cs) := by
  induction cs with
  | nil => rfl
  | cons c cs ih =>
      rw [List.forall_mem_cons] at h
      rw [piecesOfArguments, buildAll, ofChains, lifted_bind, ← h.1, ih h.2]
      congr 1
      funext x
      rw [lifted_bind]
      rfl

/-- The piece of an operand is built as the operand is. -/
theorem build_primary {p : Primary} (hs : Reaches ⟨source.toList, 0⟩ s)
    (h : SpellsPrimary s p s') :
    build source maxDepth p.piece = lifted (ofPrimary source maxDepth p) := by
  induction p using Primary.induction generalizing s s' with
  | group inner span ih =>
      cases h with
      | group hopen hblanks hinner hblanks' hclose =>
          have hbuilt : build source maxDepth inner.piece = _ := build_chain fun p hp => by
            obtain ⟨t, t', ht, hspells, -⟩ := hinner.holdsPrimary p hp
            exact ih p hp (hs.trans (hopen.reaches.trans (hblanks.reaches.trans ht))) hspells
          rw [Primary.piece, build, ofPrimary, lifted_bind, ← hbuilt]
          rfl
  | call name args span ih =>
      cases h with
      | @call _ s₁ _ _ _ _ _ _ _ _ _ hname hblanks hopen hblanks' hargs hblanks'' hclose =>
          have hfront := hname.reaches.trans (hblanks.reaches.trans
            (hopen.reaches.trans hblanks'.reaches))
          have hbuilt := @buildAll_arguments source maxDepth args fun c hc => build_chain
            fun p hp => by
              obtain ⟨u, u', hu, hchain, -⟩ := hargs.holdsChain c hc
              obtain ⟨t, t', ht, hspells, -⟩ := hchain.holdsPrimary p hp
              exact ih c hc p hp (hs.trans (hfront.trans (hu.trans ht))) hspells
          have htext := hs.textOf hname
          rw [hname.2] at htext
          rw [Primary.piece, build, ofPrimary, lifted_bind, ← hbuilt, Piece.text_mk, htext]
  | leaf leaf span =>
      cases h with
      | leaf hleaf hpasses => exact build_leaf hs hleaf hpasses

/-- The pieces of a text that is spelled are built as its chain is. -/
theorem buildFormula_of_spells {c : Chain} (h : Spells source.toList c) :
    buildFormula source maxDepth (formulaPiece source c) =
      lifted ((ofChain source maxDepth c).map Built.tree) := by
  obtain ⟨s, s', t, hblanks, hc, -, -⟩ := h
  have hbuilt : build source maxDepth c.piece = _ := build_chain fun p hp => by
    obtain ⟨u, u', hu, hspells, -⟩ := hc.holdsPrimary p hp
    exact build_primary (hblanks.reaches.trans hu) hspells
  rw [lifted_map, ofChain, ← hbuilt]
  rfl

/-- Building from pieces never meets a shape that it does not expect. -/
theorem parsePieces_eq : parsePieces maxDepth source = lifted (parse maxDepth source) := by
  unfold parsePieces parse recognizePieces
  cases deepParenthesis? maxDepth {} 0 source.toList with
  | some => rfl
  | none =>
      cases hrecognize : recognize source.toList with
      | error => rfl
      | ok c => exact buildFormula_of_spells (spells_of_recognize hrecognize)

/-- A text that is recognised is read, unless its tree is too high or one of its texts has an
escape by the number of a surrogate. -/
theorem ofChain_eq_error {c : Chain} {e : SyntaxError} (h : Spells source.toList c)
    (he : ofChain source maxDepth c = .error e) :
    e.fault = .tooDeep maxDepth ∨
      ∃ content position n, (.string content, e.span) ∈ c.leaves ∧
        e.span.textOf source = String.ofList ('"' :: content ++ ['"']) ∧ HasSurrogate content ∧
        0xD800 ≤ n ∧ n ≤ 0xDFFF ∧ e.fault = .invalidString (.notScalar position n) := by
  obtain hdeep | ⟨⟨leaf, span⟩, hleaf, he⟩ := blames_ofChain c e he
  · exact .inl hdeep
  · obtain ⟨s', hleaves⟩ := h.holdsLeaf
    obtain ⟨u, u', cs, hu, hspells, hpasses, -, hspan⟩ := hleaves _ hleaf
    obtain ⟨content, position, n, rfl, hsurrogate, hlower, hupper, rfl⟩ :=
      ofLeaf_eq_error hspells he
    have htext : span.textOf source = String.ofList cs := by
      rw [show span = _ from hspan, hu.textOf hpasses]
    cases hspells
    exact .inr ⟨_, position, n, hleaf, htext, hsurrogate, hlower, hupper, rfl⟩

end Texts

/-- The grammar and the builder agree.  Building from the pieces that the grammar yields takes
none of the branches for other shapes, and it is what reading does.  A text is refused because
something unexpected stands in it, because it is too deep, or because a text in it has an escape
by the number of a surrogate; the error then stands at that text.  The reason is that every number
of the grammar can be read, and so can every text of the grammar without such an escape. -/
theorem grammar_agrees_with_builder (maxDepth : Nat) (source : String) :
    parsePieces maxDepth source = (parse maxDepth source).mapError .faulty ∧
    (∀ e, parse maxDepth source = .error e →
      (∃ expected found, e.fault = .unexpected expected found) ∨ e.fault = .tooDeep maxDepth ∨
      ∃ c content position n, Spells source.toList c ∧ (.string content, e.span) ∈ c.leaves ∧
        e.span.textOf source = String.ofList ('"' :: content ++ ['"']) ∧ HasSurrogate content ∧
        0xD800 ≤ n ∧ n ≤ 0xDFFF ∧ e.fault = .invalidString (.notScalar position n)) ∧
    (∀ digits span, IsDigits digits ∨ IsFloat digits →
      ∃ x, readNumber source digits span = .ok x) ∧
    ∀ parts : List (List Char), (∀ part ∈ parts, TextPart part) →
      ((∃ s, unescape (String.ofList parts.flatten) = .ok s) ↔ ¬ HasSurrogate parts.flatten) := by
  refine ⟨parsePieces_eq, fun e he => ?faults, fun digits span => exists_readNumber,
    fun parts => exists_unescape_iff⟩
  unfold parse at he
  split at he
  · cases he
    exact .inr (.inl rfl)
  · split at he
    · cases he
      exact .inl ⟨_, _, rfl⟩
    · rename_i c hc
      have hspells := spells_of_recognize hc
      rw [map_eq_error_iff] at he
      obtain hdeep | ⟨content, position, n, hfault⟩ := ofChain_eq_error hspells he
      · exact .inr (.inl hdeep)
      · exact .inr (.inr ⟨c, content, position, n, hspells, hfault⟩)

/-- A number and a surrogate behind a character of two bytes. -/
theorem grammar_agrees_with_builder_of_surrogate :
    ∃ e c content, parse 8 "2.5 + \"é\\uDABCf\"" = .error e ∧
      parsePieces 8 "2.5 + \"é\\uDABCf\"" = .error (.faulty e) ∧
      e.fault = .invalidString (.notScalar 2 0xDABC) ∧
      Spells "2.5 + \"é\\uDABCf\"".toList c ∧ (.string content, e.span) ∈ c.leaves ∧
      HasSurrogate content ∧ e.span = ⟨6, 17⟩ ∧
      ∃ x, readNumber "2.5 + \"é\\uDABCf\"" ['2', '.', '5'] ⟨0, 3⟩ = .ok x := by
  let refusal : SyntaxError :=
    ⟨.invalidString (.notScalar 2 0xDABC), "2.5 + \"é\\uDABCf\"", ⟨6, 17⟩⟩
  have hcheck : (parse 8 "2.5 + \"é\\uDABCf\"").map (fun _ => ()) = .error refusal := by
    decide +kernel
  have he : parse 8 "2.5 + \"é\\uDABCf\"" = .error refusal := map_eq_error_iff.1 hcheck
  obtain ⟨hpieces, hfaults, hnumbers, -⟩ :=
    grammar_agrees_with_builder 8 "2.5 + \"é\\uDABCf\""
  rw [he] at hpieces
  have hfloat : IsFloat ['2', '.', '5'] :=
    @IsFloat.point ['2'] ['5'] [] ⟨List.cons_ne_nil _ _, List.forall_mem_singleton.2 rfl⟩
      (List.forall_mem_singleton.2 rfl) (.inl rfl)
  obtain ⟨_, _, hother⟩ | hother | ⟨c, content, _, _, hspells, hleaf, -, hsurrogate, -⟩ :=
    hfaults refusal he
  · cases hother
  · cases hother
  · exact ⟨refusal, c, content, he, hpieces, rfl, hspells, hleaf, hsurrogate, rfl,
      hnumbers _ _ (.inr hfloat)⟩

end Tree

end RowFormula
