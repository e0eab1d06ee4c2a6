/-
# Random number generators

A generator is a key together with the count of numbers drawn so far: the number
drawn next is a function of both.  Keys are spread out from a seed of 64 bits.
-/

import RowFormula.Random.Block

namespace RowFormula.Random

/-- One step of the linear congruence that spreads a seed. -/
def seedStep (state : UInt64) : UInt64 :=
  state * 6364136223846793005 + 11634580027462260723

/-- The word that a state of the congruence shows: its high bits, turned by an
amount that the highest bits give. -/
def seedWord (state : UInt64) : UInt32 :=
  let folded := (((state >>> 18) ^^^ state) >>> 27).toUInt32
  let turn := (state >>> 59).toUInt32
  (folded >>> turn) ||| (folded <<< ((32 - turn) % 32))

/-- The first `count` words spread from a seed. -/
def seedWords : (count : Nat) → (state : UInt64) → List UInt32
  | 0, _ => []
  | count + 1, state =>
    let next := seedStep state
    seedWord next :: seedWords count next

/-- A generator of random numbers. -/
structure Generator where
  key : Key
  /-- How many numbers were drawn. -/
  drawn : Nat := 0
  deriving DecidableEq, Repr, Inhabited

namespace Generator

/-- The fresh generator of a seed. -/
def ofSeed (seed : UInt64) : Generator :=
  let words := seedWords 8 seed
  let row (i : Nat) : Row :=
    ⟨words.getD i 0, words.getD (i + 1) 0, words.getD (i + 2) 0, words.getD (i + 3) 0⟩
  { key := ⟨row 0, row 4⟩ }

/-- The word with a number in the stream of a key. -/
def word (key : Key) (n : Nat) : UInt32 :=
  (block key (UInt64.ofNat (n / 16))).getD (n % 16) 0

/-- The number from zero to below one that 64 random bits give: the upper 52 bits
become the fraction of a number between one and two. -/
def unitFloat (bits : UInt64) : Float :=
  Float.ofBits ((bits >>> 12) ||| 0x3ff0000000000000) - 1.0

/-- The number that a key gives as its `n`-th, counted from zero. -/
def number (key : Key) (n : Nat) : Float :=
  let low := (word key (2 * n)).toUInt64
  let high := (word key (2 * n + 1)).toUInt64
  unitFloat ((high <<< 32) ||| low)

/-- Draws a number. -/
def next (g : Generator) : Float × Generator :=
  (number g.key g.drawn, { g with drawn := g.drawn + 1 })

@[simp]
theorem next_fst (g : Generator) : g.next.1 = number g.key g.drawn := rfl

@[simp]
theorem next_key (g : Generator) : g.next.2.key = g.key := rfl

@[simp]
theorem next_drawn (g : Generator) : g.next.2.drawn = g.drawn + 1 := rfl

end Generator

end RowFormula.Random
