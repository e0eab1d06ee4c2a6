/-
# Climbing through a flat list

The grammar yields an expression as one list, in which nothing but the constructs tells signs,
operands and operators apart.  A parser by precedence looks each construct up in the table of
operators as it comes to it: what is not in the table is an operand.  Such a parser gets stuck
where it finds an operator in place of an operand, or an operand in place of an operator.

`groupedTokens_of_spreads` says that it does not get stuck on a list that spreads a sequence out,
and that it finds what grouping the sequence gives.
-/

import RowFormula.Proofs.Layers

namespace RowFormula.Grammar

variable {α : Type}

/-! ### The table -/

/-- What the table of operators says of a construct. -/
inductive Affix where
  | front (strength : Nat)
  | between (strength : Nat) (side : Side)
  deriving DecidableEq, Repr

/-- Looks a construct up in the table of operators. -/
def affix? : Construct → Option Affix
  | .unary _ => (Level.all.findIdx? (· == .front)).map fun level => .front (level + 1)
  | .binary op => (Level.all.findIdx? (·.holds op)).map fun level => .between (level + 1) (side op)
  | _ => none

theorem affix?_unary (op : UnaryOp) : affix? (.unary op) = some (.front frontStrength) := rfl

theorem affix?_binary (op : InfixOp) :
    affix? (.binary op) = some (.between (strength op) (side op)) := by
  rcases op with op | op | op <;> cases op <;> rfl

/-! ### Climbing -/

/-- A member of the list: its construct, its place, and its value as an operand. -/
structure Token (α : Type) where
  construct : Construct
  span : Span
  value : α

section Climbing

variable (sign : Token α → α → α) (join : Token α → α → α → α)

/-- The bound for the operand on the right of an operator. -/
def boundBehind (strength : Nat) : Side → Nat
  | .left => strength
  | .right => strength - 1

mutual

/-- Takes an operand and all operators behind it that bind tighter than the bound.  There is
nothing to take where no operand is found, or no operator behind one. -/
def climbTokens (bound : Nat) (tokens : List (Token α)) :
    Option (α × { rest : List (Token α) // rest.length ≤ tokens.length }) :=
  match tokens with
  | [] => none
  | t :: ts =>
    match affix? t.construct with
    | some (.between _ _) => none
    | some (.front strength) =>
      (climbTokens (strength - 1) ts).bind fun y =>
        (extendTokens bound (sign t y.1) y.2.1).map fun z =>
          (z.1, ⟨z.2.1, Nat.le_succ_of_le (Nat.le_trans z.2.2 y.2.2)⟩)
    | none =>
      (extendTokens bound t.value ts).map fun z => (z.1, ⟨z.2.1, Nat.le_succ_of_le z.2.2⟩)
  termination_by tokens.length
  decreasing_by
    · exact Nat.lt_succ_self _
    · exact Nat.lt_succ_of_le y.2.2
    · exact Nat.lt_succ_self _

/-- Goes on behind an operand that has been taken. -/
def extendTokens (bound : Nat) (x : α) (tokens : List (Token α)) :
    Option (α × { rest : List (Token α) // rest.length ≤ tokens.length }) :=
  match tokens with
  | [] => some (x, ⟨[], Nat.le_refl _⟩)
  | t :: ts =>
    match affix? t.construct with
    | none => none
    | some (.front strength) =>
      if bound < strength then none else some (x, ⟨t :: ts, Nat.le_refl _⟩)
    | some (.between strength side) =>
      if bound < strength then
        (climbTokens (boundBehind strength side) ts).bind fun y =>
          (extendTokens bound (join t x y.1) y.2.1).map fun z =>
            (z.1, ⟨z.2.1, Nat.le_succ_of_le (Nat.le_trans z.2.2 y.2.2)⟩)
      else some (x, ⟨t :: ts, Nat.le_refl _⟩)
  termination_by tokens.length
  decreasing_by
    · exact Nat.lt_succ_self _
    · exact Nat.lt_succ_of_le y.2.2

end

/-- Groups a whole list, if it does not get stuck. -/
def groupedTokens (tokens : List (Token α)) : Option α :=
  (climbTokens sign join 0 tokens).map Prod.fst

/-- What climbing takes from the list, and what it leaves. -/
def climbedTokens (bound : Nat) (tokens : List (Token α)) : Option (α × List (Token α)) :=
  (climbTokens sign join bound tokens).map fun y => (y.1, y.2.1)

/-- What goes on behind an operand, and what it leaves. -/
def extendedTokens (bound : Nat) (x : α) (tokens : List (Token α)) : Option (α × List (Token α)) :=
  (extendTokens sign join bound x tokens).map fun y => (y.1, y.2.1)

variable {sign join} {bound : Nat} {x : α} {t : Token α} {ts : List (Token α)}

theorem climbedTokens_operand (h : affix? t.construct = none) :
    climbedTokens sign join bound (t :: ts) = extendedTokens sign join bound t.value ts := by
  rw [climbedTokens, climbTokens, h]
  simp only [Option.map_map]
  rfl

theorem climbedTokens_front {strength : Nat} (h : affix? t.construct = some (.front strength)) :
    climbedTokens sign join bound (t :: ts) =
      (climbedTokens sign join (strength - 1) ts).bind fun y =>
        extendedTokens sign join bound (sign t y.1) y.2 := by
  rw [climbedTokens, climbTokens, h]
  simp only [Option.map_bind, Option.bind_map, climbedTokens, extendedTokens, Function.comp_def,
    Option.map_map]

theorem extendedTokens_nil : extendedTokens sign join bound x [] = some (x, []) := by
  rw [extendedTokens, extendTokens]
  rfl

theorem extendedTokens_of_lt {strength : Nat} {side : Side}
    (h : affix? t.construct = some (.between strength side)) (hlt : bound < strength) :
    extendedTokens sign join bound x (t :: ts) =
      (climbedTokens sign join (boundBehind strength side) ts).bind fun y =>
        extendedTokens sign join bound (join t x y.1) y.2 := by
  rw [extendedTokens, extendTokens, h]
  simp only [if_pos hlt, Option.map_bind, Option.bind_map, climbedTokens, extendedTokens,
    Function.comp_def, Option.map_map]

theorem extendedTokens_of_le {strength : Nat} {side : Side}
    (h : affix? t.construct = some (.between strength side)) (hle : strength ≤ bound) :
    extendedTokens sign join bound x (t :: ts) = some (x, t :: ts) := by
  rw [extendedTokens, extendTokens, h]
  simp only [if_neg (Nat.not_lt.2 hle)]
  rfl

end Climbing

/-! ### Sequences spread out -/

mutual

/-- The list holds an operand with its signs, and everything behind it. -/
inductive SpreadsSigned : Signed α → List (Link α) → List (Token α) → Prop
  | sign {t : Token α} {s : Sign} {signs : List Sign} {x : α} {links : List (Link α)}
      {ts : List (Token α)} :
      t.construct = .unary s.op → t.span = s.span → SpreadsSigned ⟨signs, x⟩ links ts →
      SpreadsSigned ⟨s :: signs, x⟩ links (t :: ts)
  | operand {t : Token α} {links : List (Link α)} {ts : List (Token α)} :
      affix? t.construct = none → SpreadsLinks links ts → SpreadsSigned ⟨[], t.value⟩ links (t :: ts)

inductive SpreadsLinks : List (Link α) → List (Token α) → Prop
  | nil : SpreadsLinks [] []
  | cons {t : Token α} {op : InfixOp} {next : Signed α} {links : List (Link α)}
      {ts : List (Token α)} :
      t.construct = .binary op → SpreadsSigned next links ts →
      SpreadsLinks ((op, next) :: links) (t :: ts)

end

section Spreading

variable {sign : Sign → α → α} {join : InfixOp → α → α → α}
variable {signToken : Token α → α → α} {joinTokens : Token α → α → α → α}

/-- One climb through the list has the value of the other, and leaves what the other leaves. -/
def Follows (found : Option (α × List (Token α))) (expected : α × List (Link α)) : Prop :=
  ∃ rest, found = some (expected.1, rest) ∧ SpreadsLinks expected.2 rest

theorem boundBehind_side (op : InfixOp) : boundBehind (strength op) (side op) = rightBound op := by
  rw [rightBound]
  cases side op <;> rfl

/-- Climbing through the list follows climbing through the sequence step by step. -/
theorem follows_climbed
    (hsign : ∀ (t : Token α) (s : Sign) x, t.construct = .unary s.op → t.span = s.span →
      signToken t x = sign s x)
    (hjoin : ∀ (t : Token α) op x y, t.construct = .binary op → joinTokens t x y = join op x y)
    {bound : Nat} {x : Signed α} {links : List (Link α)} {ts : List (Token α)}
    (h : SpreadsSigned x links ts) :
    Follows (climbedTokens signToken joinTokens bound ts) (climbed sign join bound x links) := by
  refine climb.induct sign join
    (fun bound x links => ∀ ts, SpreadsSigned x links ts →
      Follows (climbedTokens signToken joinTokens bound ts) (climbed sign join bound x links))
    (fun bound x links => ∀ ts, SpreadsLinks links ts →
      Follows (extendedTokens signToken joinTokens bound x ts) (extended sign join bound x links))
    ?operand ?sign ?last ?tighter ?looser bound x links ts h
  case operand =>
    intro bound links x ih ts h
    cases h with
    | operand hoperand hlinks =>
        rw [climbedTokens_operand hoperand, climbed_nil]
        exact ih _ hlinks
  case sign =>
    intro bound links s signs x y ihx _ ihy ts h
    cases h with
    | sign hconstruct hspan hrest =>
        obtain ⟨rest, hclimbed, hrest⟩ := ihx _ hrest
        rw [climbedTokens_front (hconstruct ▸ affix?_unary s.op), climbed_cons, hclimbed,
          Option.bind_some, hsign _ s _ hconstruct hspan]
        exact ihy _ hrest
  case last =>
    intro bound x ts h
    cases h
    rw [extendedTokens_nil, extended_nil]
    exact ⟨[], rfl, .nil⟩
  case tighter =>
    intro bound x op next links hlt y ihx _ ihy ts h
    cases h with
    | cons hconstruct hnext =>
        obtain ⟨rest, hclimbed, hrest⟩ := ihx _ hnext
        rw [extendedTokens_of_lt (hconstruct ▸ affix?_binary op) hlt, extended_of_lt hlt,
          boundBehind_side, hclimbed, Option.bind_some, hjoin _ op _ _ hconstruct]
        exact ihy _ hrest
  case looser =>
    intro bound x op next links hlt ts h
    cases h with
    | cons hconstruct hnext =>
        have hle := Nat.not_lt.1 hlt
        rw [extendedTokens_of_le (hconstruct ▸ affix?_binary op) hle, extended_of_le hle]
        exact ⟨_, rfl, .cons hconstruct hnext⟩

/-- Grouping a list that spreads a sequence out finds what grouping the sequence gives. -/
theorem groupedTokens_of_spreads
    (hsign : ∀ (t : Token α) (s : Sign) x, t.construct = .unary s.op → t.span = s.span →
      signToken t x = sign s x)
    (hjoin : ∀ (t : Token α) op x y, t.construct = .binary op → joinTokens t x y = join op x y)
    {s : Sequence α} {ts : List (Token α)} (h : SpreadsSigned s.first s.links ts) :
    groupedTokens signToken joinTokens ts = some (grouped sign join s) := by
  obtain ⟨rest, hfound, -⟩ := @follows_climbed _ sign join signToken joinTokens hsign hjoin 0 _ _ _ h
  have hvalue := congrArg (Option.map Prod.fst) hfound
  rwa [climbedTokens, Option.map_map] at hvalue

end Spreading

end RowFormula.Grammar
