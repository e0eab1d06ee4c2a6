/-
# The ChaCha block function

A block of sixteen random words from a key of eight words and a block number.
The state is a square of four rows.  A column round mixes the rows as they stand,
and a diagonal round first turns the rows against each other.
-/

namespace RowFormula.Random

/-- Four words side by side. -/
structure Row where
  w0 : UInt32
  w1 : UInt32
  w2 : UInt32
  w3 : UInt32
  deriving DecidableEq, Repr, Inhabited

namespace Row

/-- Combines two rows word by word. -/
def zipWith (f : UInt32 → UInt32 → UInt32) (a b : Row) : Row :=
  ⟨f a.w0 b.w0, f a.w1 b.w1, f a.w2 b.w2, f a.w3 b.w3⟩

/-- Moves every word so many places to the left. -/
def turn : (places : Nat) → Row → Row
  | 0, r => r
  | places + 1, r => turn places ⟨r.w1, r.w2, r.w3, r.w0⟩

def toList (r : Row) : List UInt32 := [r.w0, r.w1, r.w2, r.w3]

end Row

/-- Moves the bits of a word to the left, those that fall out coming in again. -/
def rotate (bits : UInt32) (w : UInt32) : UInt32 :=
  (w <<< bits) ||| (w >>> (32 - bits))

/-- The state of the block function. -/
structure Square where
  a : Row
  b : Row
  c : Row
  d : Row
  deriving DecidableEq, Repr, Inhabited

namespace Square

/-- Adds one row to another and lets the sum change a third, whose bits move. -/
def mix (bits : UInt32) (target source changed : Row) : Row × Row :=
  let sum := target.zipWith (· + ·) source
  (sum, changed.zipWith (fun x y => rotate bits (x ^^^ y)) sum)

/-- A round on the columns. -/
def columnRound (s : Square) : Square :=
  let (a, d) := mix 16 s.a s.b s.d
  let (c, b) := mix 12 s.c d s.b
  let (a, d) := mix 8 a b d
  let (c, b) := mix 7 c d b
  ⟨a, b, c, d⟩

/-- A round on the diagonals. -/
def diagonalRound (s : Square) : Square :=
  let t := columnRound ⟨s.a, s.b.turn 1, s.c.turn 2, s.d.turn 3⟩
  ⟨t.a, t.b.turn 3, t.c.turn 2, t.d.turn 1⟩

/-- So many double rounds. -/
def rounds : (double : Nat) → Square → Square
  | 0, s => s
  | double + 1, s => rounds double s.columnRound.diagonalRound

/-- Adds two squares word by word. -/
def add (s t : Square) : Square :=
  ⟨s.a.zipWith (· + ·) t.a, s.b.zipWith (· + ·) t.b, s.c.zipWith (· + ·) t.c,
    s.d.zipWith (· + ·) t.d⟩

def toList (s : Square) : List UInt32 :=
  s.a.toList ++ s.b.toList ++ s.c.toList ++ s.d.toList

end Square

/-- The key of a generator. -/
structure Key where
  low : Row
  high : Row
  deriving DecidableEq, Repr, Inhabited

/-- The words of `expand 32-byte k`, which start every block. -/
def header : Row := ⟨0x61707865, 0x3320646e, 0x79622d32, 0x6b206574⟩

/-- The sixteen words of a block, after twelve rounds. -/
def block (key : Key) (number : UInt64) : List UInt32 :=
  let counter : Row := ⟨number.toUInt32, (number >>> 32).toUInt32, 0, 0⟩
  let start : Square := ⟨header, key.low, key.high, counter⟩
  ((start.rounds 6).add start).toList

end RowFormula.Random
