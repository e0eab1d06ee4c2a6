/-
# The random numbers of a process

A process owns one generator for draws without a seed, and one generator per seed,
so that the sequence of a seed does not depend on what else is drawn.  Only a
limited number of seeds is remembered: when a new seed arrives at the limit all of
them are forgotten, and every seed starts its sequence again.
-/

import RowFormula.Random.Generator
import RowFormula.Table

namespace RowFormula.Random

/-- The number of seeds that are remembered. -/
def maxSeeds : Nat := 4096

/-- The state of all generators.  `ambient` serves draws outside of any process. -/
structure Draws where
  main : Generator
  ambient : Generator
  /-- The generator of every seed that is remembered. -/
  seeded : Table Int Generator := {}
  deriving DecidableEq, Repr, Inhabited

/-- The generator of a seed, which is a number of 64 bits in two's complement. -/
def seedGenerator (seed : Int) : Generator :=
  Generator.ofSeed (UInt64.ofNat (seed % 18446744073709551616).toNat)

namespace Draws

/-- The generators of a process with a seed of its own. -/
def ofSeed (seed : UInt64) : Draws :=
  ⟨Generator.ofSeed seed, Generator.ofSeed seed, {}⟩

/-- Draws a number in a process. -/
def draw (d : Draws) : (seed : Option Int) → Float × Draws
  | none =>
    let (x, main) := d.main.next
    (x, { d with main })
  | some seed =>
    match d.seeded.get? seed with
    | some g =>
      let (x, g) := g.next
      (x, { d with seeded := d.seeded.insert seed g })
    | none =>
      let remembered := if maxSeeds ≤ d.seeded.size then Table.empty else d.seeded
      let (x, g) := (seedGenerator seed).next
      (x, { d with seeded := remembered.insert seed g })

/-- Draws a number outside of any process.  A seed then always gives the first
number of its sequence. -/
def drawAmbient (d : Draws) : (seed : Option Int) → Float × Draws
  | none =>
    let (x, ambient) := d.ambient.next
    (x, { d with ambient })
  | some seed => ((seedGenerator seed).next.1, d)

end Draws

end RowFormula.Random
