/-
# The grammar of formulas

Operands are groups, calls, attributes, macro references, numbers, texts and names,
tried in this order.  Blanks may stand between all parts except inside names,
numbers, texts, attributes and macro references.  Whether an operator takes the
text in front of it is decided together with the blanks behind it: `!` must not be
followed by `=`, and `%` not by `{`.
-/

import RowFormula.Grammar.Recognizer

namespace RowFormula.Grammar

open Recognize

/-- Characters with which a name can start. -/
def startsName (c : Char) : Bool := c.isAlpha || c == '_'

/-- Characters with which a name can go on. -/
def continuesName (c : Char) : Bool := startsName c || c.isDigit

def name : Recognize (List Char) :=
  construct .ident do
    let c ← satisfy startsName
    let cs ← run continuesName
    pure (c :: cs)

/-- An exponent with its letter and its sign. -/
def exponent : Recognize (List Char) := do
  let e ← satisfy fun c => c == 'e' || c == 'E'
  let sign ← (do pure [← satisfy fun c => c == '+' || c == '-']) <|> pure []
  let digits ← run1 Char.isDigit
  pure (e :: sign ++ digits)

/-- A number with a point, an exponent, or both. -/
def float : Recognize (List Char) :=
  construct .float (first
    [ do
        let whole ← run1 Char.isDigit
        char '.'
        let fraction ← run Char.isDigit
        let e ← exponent <|> pure []
        pure (whole ++ '.' :: fraction ++ e),
      do
        char '.'
        let fraction ← run1 Char.isDigit
        let e ← exponent <|> pure []
        pure ('.' :: fraction ++ e),
      do
        let whole ← run1 Char.isDigit
        let e ← exponent
        pure (whole ++ e) ])

def integer : Recognize (List Char) :=
  construct .integer (run1 Char.isDigit)

/-- A backslash with one of the characters that it may escape. -/
def escapeOf (allowed : Char → Bool) : Recognize (List Char) := do
  char '\\'
  let c ← satisfy allowed
  pure ['\\', c]

/-- A character other than a backslash and the delimiter. -/
def plainBefore (delimiter : Char) : Recognize (List Char) := do
  let c ← satisfy fun c => c != delimiter && c != '\\'
  pure [c]

/-- The name in brackets, in which brackets and backslashes can be escaped. -/
def bracketed : Recognize (List Char) :=
  construct .attributeRef do
    char '['
    let parts ← construct .attributeName do
      let parts ← many (first
        [escapeOf fun c => c == '[' || c == ']' || c == '\\', plainBefore ']'])
      if parts.isEmpty then fail else pure parts
    char ']'
    pure parts.flatten

/-- The name of a macro reference, which holds anything but a closing brace. -/
def macroReference : Recognize (List Char) :=
  construct .macroRef do
    text ['%', '\x7b']
    let cs ← construct .macroName (run1 fun c => c != '\x7d')
    char '\x7d'
    pure cs

def isHexDigit (c : Char) : Bool :=
  c.isDigit || ('a' ≤ c && c ≤ 'f') || ('A' ≤ c && c ≤ 'F')

/-- An escape of a character by four hexadecimal digits. -/
def unicodeEscape : Recognize (List Char) := do
  text ['\\', 'u']
  let a ← satisfy isHexDigit
  let b ← satisfy isHexDigit
  let c ← satisfy isHexDigit
  let d ← satisfy isHexDigit
  pure ['\\', 'u', a, b, c, d]

/-- A text in quotes. -/
def quotedText : Recognize (List Char) :=
  construct .string do
    char '"'
    let parts ← construct .stringContent (many (first
      [ escapeOf fun c => c == '"' || c == '\\' || c == 'n' || c == 'r' || c == 't',
        unicodeEscape,
        plainBefore '"' ]))
    char '"'
    pure parts.flatten

/-- An operator in front of an operand. -/
def sign : Recognize Sign :=
  first (unaryOps.map fun op => do
    let (_, span) ← spanned (construct (.unary op) do
      text op.text.toList
      if op = .not then
        blanks
        isNotNext '=')
    pure ⟨op, span⟩)

/-- An operator between two operands. -/
def infixOperator : Recognize (InfixOp × Span) :=
  first (InfixOp.all.map fun op => do
    let (_, span) ← spanned (construct (.binary op) do
      text op.text.toList
      if op = .arithmetic .mod then
        blanks
        isNotNext '\x7b')
    pure (op, span))

/-- The operators in front of an operand, and the blanks behind them. -/
def signs : Recognize (List Sign) := do
  let found ←
    (do
      let s ← sign
      let more ← many do
        blanks
        sign
      pure (s :: more)) <|> pure []
  blanks
  pure found

def operand (primary : Recognize Primary) : Recognize Operand := do
  let found ← signs
  pure (.mk found (← primary))

/-- Strings operands together. -/
def chainOf (first : Operand) : List (InfixOp × Span × Operand) → Chain
  | [] => .single first
  | (op, span, next) :: rest => .link first op span (chainOf next rest)

/-- An operator with the operand on its right. -/
def link (primary : Recognize Primary) : Recognize (InfixOp × Span × Operand) := do
  blanks
  let (op, span) ← infixOperator
  blanks
  let y ← operand primary
  pure (op, span, y)

def chain (primary : Recognize Primary) : Recognize Chain := do
  let x ← operand primary
  let links ← many (link primary)
  pure (chainOf x links)

/-- A chain in parentheses. -/
def group (inner : Recognize Chain) : Recognize Primary := do
  let (chain, span) ← spanned (construct .group do
    char '('
    blanks
    let chain ← inner
    blanks
    char ')'
    pure chain)
  pure (.group chain span)

/-- Arguments with commas between them. -/
def arguments (inner : Recognize Chain) : Recognize (List Chain) := do
  let x ← inner
  let xs ← many do
    blanks
    char ','
    blanks
    inner
  pure (x :: xs)

def call (inner : Recognize Chain) : Recognize Primary := do
  let ((fn, args), span) ← spanned (construct .call do
    let fn ← name
    blanks
    char '('
    blanks
    let args ← arguments inner <|> pure []
    blanks
    char ')'
    pure (fn, args))
  pure (.call fn args span)

/-- An operand without parts. -/
def leaf (make : List Char → Leaf) (p : Recognize (List Char)) : Recognize Primary := do
  let (cs, span) ← spanned p
  pure (.leaf (make cs) span)

/-- An operand without operators in front. -/
def primary (inner : Recognize Chain) : Recognize Primary :=
  first
    [ group inner, call inner, leaf .attributeRef bracketed, leaf .macroRef macroReference,
      leaf .float float, leaf .integer integer, leaf .string quotedText, leaf .ident name ]

/-- A chain with at most `levels` levels of groups and calls around its innermost
operands. -/
def expression : (levels : Nat) → Recognize Chain
  | 0 => fail
  | levels + 1 => construct .expression (chain (primary (expression levels)))

/-- The end of the text. -/
def endOfInput : Recognize Unit :=
  construct .endOfInput do
    if (← get).rest.isEmpty then pure () else fail

/-- A whole text.  Every level of groups and calls takes a parenthesis, so the
length of the text bounds the levels. -/
def wholeText : Recognize Chain := do
  let levels := (← get).rest.length + 1
  construct .formula do
    blanks
    let chain ← expression levels
    blanks
    endOfInput
    pure chain

/-- Recognises a text as a chain, or tells what was tried at the furthest place. -/
def recognize (source : List Char) : Except Attempts Chain :=
  match ((wholeText ⟨source, 0⟩).run.run {} : Id _) with
  | (some (chain, _), _) => .ok chain
  | (none, attempts) => .error attempts

end RowFormula.Grammar
