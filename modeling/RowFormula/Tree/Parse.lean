/-
# Reading formulas

`Tree.parse` reads a text into a tree.  Three limits keep deep formulas out: the
nesting of parentheses is checked before anything else, runs of operators that
nest to the right are checked before they are grouped, and the height of the tree
is checked while it is built.  A tree of a single node is never too high.
-/

import RowFormula.Error.Syntax
import RowFormula.Grammar.Formula
import RowFormula.Grammar.Precedence
import RowFormula.Number.Read
import RowFormula.Tree

namespace RowFormula.Tree

open Grammar

/-- The nesting and height that formulas may have unless a caller says otherwise. -/
def defaultMaxDepth : Nat := 256

/-- Where a scan for parentheses stands. -/
structure ScanState where
  depth : Nat := 0
  inText : Bool := false
  inBrackets : Bool := false
  escaped : Bool := false
  deriving DecidableEq, Repr

namespace ScanState

/-- Takes one character into account.  Parentheses count outside of texts and
brackets. -/
def step (s : ScanState) (c : Char) : ScanState :=
  if s.escaped then { s with escaped := false }
  else if c == '\\' && (s.inText || s.inBrackets) then { s with escaped := true }
  else if c == '"' && !s.inBrackets then { s with inText := !s.inText }
  else if c == '[' && !s.inText then { s with inBrackets := true }
  else if c == ']' && !s.inText then { s with inBrackets := false }
  else if c == '(' && !s.inText && !s.inBrackets then { s with depth := s.depth + 1 }
  else if c == ')' && !s.inText && !s.inBrackets then { s with depth := s.depth - 1 }
  else s

end ScanState

/-- The byte position of the first parenthesis that nests too deeply. -/
def deepParenthesis? (maxDepth : Nat) :
    ScanState → (position : Nat) → List Char → Option Nat
  | _, _, [] => none
  | s, position, c :: cs =>
    let s := s.step c
    if maxDepth < s.depth then some position
    else deepParenthesis? maxDepth s (position + c.utf8Size) cs

/-- A tree and its height. -/
structure Built where
  tree : Tree
  height : Nat

/-- What building with one source and limit can result in. -/
abbrev Build (α : Type) : Type := Except SyntaxError α

section Building

variable (source : String) (maxDepth : Nat)

/-- Fails because of a fault at some place. -/
def refuse {α : Type} (fault : SyntaxFault) (span : Span) : Build α :=
  throw ⟨fault, source, span⟩

/-- Places a node above parts of some height. -/
def nest (tree : Tree) (partsHeight : Nat) : Build Built :=
  if maxDepth < partsHeight + 1 then refuse source (.tooDeep maxDepth) tree.span
  else pure ⟨tree, partsHeight + 1⟩

/-- Places an operator in front of an operand. -/
def signed (s : Sign) (operand : Build Built) : Build Built := do
  let x ← operand
  nest source maxDepth (unary s.op (Span.combine s.span x.tree.span) x.tree) x.height

/-- The node of an infix operator. -/
def infixNode (op : InfixOp) (span : Span) (left right : Tree) : Tree :=
  match op with
  | .arithmetic op => arithmetic op span left right
  | .comparison op => comparison op span left right
  | .logical op => logical op span left right

/-- Places an operator between two operands. -/
def joined (op : InfixOp) (left right : Build Built) : Build Built := do
  let x ← left
  let y ← right
  let span := Span.combine x.tree.span y.tree.span
  nest source maxDepth (infixNode op span x.tree y.tree) (max x.height y.height)

/-- Reads the digits of a literal. -/
def readNumber (digits : List Char) (span : Span) : Build Float :=
  let text := String.ofList digits
  match Number.read? text with
  | some x => pure x
  | none => refuse source (.invalidNumber text) span

/-- The tree of an operand without parts. -/
def ofLeaf (span : Span) : Leaf → Build Tree
  | .attributeRef content => pure (attributeRef (unbracket (String.ofList content)) span)
  | .macroRef name => pure (macroRef (String.ofList name) span)
  | .float digits => do pure (float (← readNumber source digits span) span)
  | .integer digits => do pure (integer (← readNumber source digits span) span)
  | .string content =>
    match unescape (String.ofList content) with
    | .ok s => pure (text s span)
    | .error fault => refuse source (.invalidString fault) span
  | .ident name => pure (ident (String.ofList name) span)

/-- The first operator with which a run of operators that nest to the right becomes
too long.  Signs and powers make up a run, and any other operator ends it. -/
def longRun? : (run : Nat) → Chain → Option Span
  | run, .single (.mk signs _) => (inSigns run signs).2
  | run, .link (.mk signs _) op opSpan rest =>
    match inSigns run signs with
    | (_, some span) => some span
    | (run, none) =>
      if op = InfixOp.power then
        if maxDepth < run + 1 then some opSpan else longRun? (run + 1) rest
      else longRun? 0 rest
where
  /-- Counts signs, up to the first that is one too many. -/
  inSigns : (run : Nat) → List Sign → Nat × Option Span
    | run, [] => (run, none)
    | run, s :: more =>
      if maxDepth < run + 1 then (run, some s.span) else inSigns (run + 1) more

/-- The tree of a chain whose operands are known. -/
def assembled (c : Chain) (operands : Sequence (Build Built)) : Build Built :=
  match longRun? maxDepth 0 c with
  | some span => refuse source (.tooDeep maxDepth) span
  | none => grouped (signed source maxDepth) (joined source maxDepth) operands

mutual

/-- The operands of a chain, with the operators between them. -/
def operandsOf : Chain → Sequence (Build Built)
  | .single x => ⟨ofOperand x, []⟩
  | .link x op _ rest =>
    let later := operandsOf rest
    ⟨ofOperand x, (op, later.first) :: later.links⟩
  termination_by structural c => c

/-- An operand with its signs. -/
def ofOperand : Operand → Signed (Build Built)
  | .mk signs primary => ⟨signs, ofPrimary primary⟩
  termination_by structural x => x

/-- The tree of an operand without signs.  A group keeps the height of what it
holds, and its tree spans the parentheses. -/
def ofPrimary : Primary → Build Built
  | .group inner span => do
    let x ← assembled source maxDepth inner (operandsOf inner)
    pure ⟨x.tree.withSpan span, x.height⟩
  | .call name args span => do
    let (trees, height) ← ofChains args
    nest source maxDepth (call (String.ofList name) span trees) height
  | .leaf leaf span => do pure ⟨← ofLeaf source span leaf, 1⟩
  termination_by structural p => p

/-- The trees of arguments, and the greatest of their heights. -/
def ofChains : List Chain → Build (List Tree × Nat)
  | [] => pure ([], 0)
  | c :: cs => do
    let x ← assembled source maxDepth c (operandsOf c)
    let (trees, height) ← ofChains cs
    pure (x.tree :: trees, max x.height height)
  termination_by structural cs => cs

end

/-- The tree of a chain. -/
def ofChain (c : Chain) : Build Built :=
  assembled source maxDepth c (operandsOf source maxDepth c)

end Building

/-- Reads a formula. -/
def parse (maxDepth : Nat) (source : String) : Except SyntaxError Tree :=
  match deepParenthesis? maxDepth {} 0 source.toList with
  | some position => refuse source (.tooDeep maxDepth) ⟨position, position + 1⟩
  | none =>
    match recognize source.toList with
    | .error attempts => throw (SyntaxError.ofAttempts source attempts)
    | .ok chain => (ofChain source maxDepth chain).map Built.tree

end RowFormula.Tree
