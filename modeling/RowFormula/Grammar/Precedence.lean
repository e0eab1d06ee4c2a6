/-
# Operator precedence

A sequence of operands with operators in front and between becomes a tree by precedence
climbing over a table of levels.  An operand takes all operators behind it that bind
tighter than a bound, and each of them raises the bound for the operand on its right.
-/

import RowFormula.Grammar.Chain

namespace RowFormula.Grammar

variable {α : Type}

/-- The side to which operators of one level group. -/
inductive Side where
  | left
  | right
  deriving DecidableEq, Repr

/-- A level of the table of operators. -/
inductive Level where
  /-- Operators between operands. -/
  | between (ops : List InfixOp) (side : Side)
  /-- The operators in front of an operand. -/
  | front
  deriving DecidableEq, Repr

namespace Level

/-- The table of operators, from loose to tight. -/
def all : List Level :=
  [.between [.logical .or] .left,
    .between [.logical .and] .left,
    .between [.comparison .eq, .comparison .ne] .left,
    .between [.comparison .lt, .comparison .le, .comparison .gt, .comparison .ge] .left,
    .between [.arithmetic .add, .arithmetic .sub] .left,
    .between [.arithmetic .mul, .arithmetic .div, .arithmetic .mod] .left,
    .front,
    .between [InfixOp.power] .right]

def holds : Level → InfixOp → Bool
  | between ops _, op => ops.contains op
  | front, _ => false

end Level

/-- How tightly an operator between operands binds. -/
def strength (op : InfixOp) : Nat :=
  Level.all.findIdx (·.holds op) + 1

/-- How tightly the operators in front of an operand bind. -/
def frontStrength : Nat :=
  Level.all.findIdx (· == .front) + 1

def side (op : InfixOp) : Side :=
  match Level.all.find? (·.holds op) with
  | some (.between _ side) => side
  | _ => .left

/-- The bound for the operand on the right of an operator: an operator of the same level
belongs to that operand only if the level groups to the right. -/
def rightBound (op : InfixOp) : Nat :=
  match side op with
  | .left => strength op
  | .right => strength op - 1

/-- An operand with the operators in front of it. -/
structure Signed (α : Type) where
  signs : List Sign
  operand : α

/-- An operator with the operand on its right. -/
abbrev Link (α : Type) : Type := InfixOp × Signed α

/-- Operands with operators between them. -/
structure Sequence (α : Type) where
  first : Signed α
  links : List (Link α)

/-- Counts what climbing still has to take; every link weighs more than its signs. -/
def weight : List (Link α) → Nat
  | [] => 0
  | link :: links => link.2.signs.length + 2 + weight links

@[simp]
theorem weight_cons (link : Link α) (links : List (Link α)) :
    weight (link :: links) = link.2.signs.length + 2 + weight links := rfl

theorem weight_lt_cons (link : Link α) (links : List (Link α)) :
    weight links < weight (link :: links) := by
  rw [weight_cons]
  omega

section Climbing

variable (sign : Sign → α → α) (join : InfixOp → α → α → α)

mutual

/-- Takes an operand and all operators behind it that bind tighter than the bound.  What
stays starts with an operator that does not. -/
def climb (bound : Nat) (x : Signed α) (links : List (Link α)) :
    α × { rest : List (Link α) // weight rest ≤ weight links } :=
  match x with
  | ⟨[], x⟩ => extend bound x links
  | ⟨s :: signs, x⟩ =>
    let y := climb (frontStrength - 1) ⟨signs, x⟩ links
    let z := extend bound (sign s y.1) y.2.1
    (z.1, ⟨z.2.1, Nat.le_trans z.2.2 y.2.2⟩)
  termination_by x.signs.length + weight links + 1
  decreasing_by
    · exact Nat.lt_succ_of_le (Nat.le_add_left _ _)
    · simp
    · exact Nat.lt_succ_of_le (Nat.le_trans y.2.2 (Nat.le_add_left _ _))

/-- Goes on behind an operand that has been taken. -/
def extend (bound : Nat) (x : α) (links : List (Link α)) :
    α × { rest : List (Link α) // weight rest ≤ weight links } :=
  match links with
  | [] => (x, ⟨[], Nat.le_refl _⟩)
  | (op, next) :: links =>
    if bound < strength op then
      let y := climb (rightBound op) next links
      let z := extend bound (join op x y.1) y.2.1
      (z.1, ⟨z.2.1, Nat.le_trans z.2.2 (Nat.le_trans y.2.2 (Nat.le_of_lt (weight_lt_cons _ _)))⟩)
    else (x, ⟨(op, next) :: links, Nat.le_refl _⟩)
  termination_by weight links
  decreasing_by
    · simp only [weight_cons]
      omega
    · exact Nat.lt_of_le_of_lt y.2.2 (weight_lt_cons _ _)

end

/-- Groups a whole sequence. -/
def grouped (s : Sequence α) : α :=
  (climb sign join 0 s.first s.links).1

end Climbing

end RowFormula.Grammar
