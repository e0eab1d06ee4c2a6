/-
# Signatures

How many arguments a function takes, and which kinds it accepts at which position.
-/

import RowFormula.Kind.Set

namespace RowFormula

/-- Number of arguments a function accepts. -/
inductive Arity where
  | exact (n : Nat)
  | atLeast (n : Nat)
  /-- Between two numbers, which are both allowed. -/
  | range (least most : Nat)
  deriving DecidableEq, Repr, Inhabited

namespace Arity

def accepts : Arity → Nat → Bool
  | exact n, count => count == n
  | atLeast n, count => n ≤ count
  | range least most, count => least ≤ count && count ≤ most

/-- A number with the word for arguments. -/
def counted (n : Nat) : String :=
  Text.decimal n ++ (if n = 1 then " argument" else " arguments")

def text : Arity → String
  | exact n => "exactly " ++ counted n
  | atLeast n => "at least " ++ counted n
  | range least most => Text.decimal least ++ " to " ++ Text.decimal most ++ " arguments"

end Arity

/-- What a function expects of its arguments. -/
structure Signature where
  arity : Arity
  /-- The kinds accepted at the leading positions. -/
  params : List KindSet := []
  /-- The kinds accepted at every position after those. -/
  rest : Option KindSet := none
  deriving DecidableEq, Repr, Inhabited

namespace Signature

/-- The kinds accepted at a position, counted from zero. -/
def acceptedAt (s : Signature) (position : Nat) : KindSet :=
  (s.params[position]?.or s.rest).getD KindSet.any

/-- The signature lets arguments of these kinds through: it takes so many of them, and each
position accepts the kind that stands there. -/
def Accepts (s : Signature) (kinds : List Kind) : Prop :=
  s.arity.accepts kinds.length = true ∧
    ∀ position k, kinds[position]? = some k → (s.acceptedAt position).accepts k = true

instance (s : Signature) (kinds : List Kind) : Decidable (s.Accepts kinds) :=
  decidable_of_iff (s.arity.accepts kinds.length = true ∧
      ∀ i : Fin kinds.length, (s.acceptedAt i).accepts kinds[i] = true) <|
    and_congr_right fun _ =>
      ⟨fun h position k hk => by
        obtain ⟨hlt, rfl⟩ := List.getElem?_eq_some_iff.1 hk
        exact h ⟨position, hlt⟩,
      fun h i => h i kinds[i] (List.getElem?_eq_getElem i.isLt)⟩

/-- The arity of a function about which nothing is said but its parameters: all of
them are required. -/
def defaultArity (params : List KindSet) (rest : Option KindSet) : Arity :=
  if rest.isSome then .atLeast params.length else .exact params.length

/-- A function that takes all of its parameters. -/
def all (params : List KindSet) : Signature := ⟨.exact params.length, params, none⟩

/-- A function whose parameters may be left out from some number on. -/
def optionalAfter (least : Nat) (params : List KindSet) : Signature :=
  ⟨.range least params.length, params, none⟩

/-- A function of any number of arguments from some number on. -/
def many (least : Nat) (kinds : KindSet) : Signature := ⟨.atLeast least, [], some kinds⟩

/-- The parameters as a listing shows them. -/
def text (s : Signature) : String :=
  let rest := s.rest.toList.map fun k => k.text ++ "..."
  "(" ++ ", ".intercalate (s.params.map KindSet.text ++ rest) ++ ")"

end Signature

end RowFormula
