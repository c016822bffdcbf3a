/-!
# A keystream

`Keystream.word key i` is the `i`-th 32-bit word of the stream that a key determines.  The
stream comes in blocks of sixteen words.  A block is a grid of four rows: constants, the
two halves of the key, and the number of the block.  The grid is mixed in eight rounds,
alternately along its columns and along its diagonals, and added to what it was before.
-/

namespace CardDuel.Keystream

/-- Four words side by side. -/
structure Row where
  a : UInt32
  b : UInt32
  c : UInt32
  d : UInt32
deriving DecidableEq, Repr

namespace Row

/-- A word operation in each place of two rows. -/
def zip (f : UInt32 → UInt32 → UInt32) (r s : Row) : Row :=
  ⟨f r.a s.a, f r.b s.b, f r.c s.c, f r.d s.d⟩

/-- A word operation in each place of a row. -/
def map (f : UInt32 → UInt32) (r : Row) : Row :=
  ⟨f r.a, f r.b, f r.c, f r.d⟩

/-- The row moved one place to the left, its first word to the end. -/
def turn (r : Row) : Row := ⟨r.b, r.c, r.d, r.a⟩

/-- The words of a row in order. -/
def toList (r : Row) : List UInt32 := [r.a, r.b, r.c, r.d]

end Row

/-- A word with its binary digits moved `n` places up, the highest ones to the bottom. -/
def rotate (n : UInt32) (x : UInt32) : UInt32 :=
  (x <<< n) ||| (x >>> (32 - n))

/-- Four rows. -/
structure Grid where
  top : Row
  upper : Row
  lower : Row
  bottom : Row
deriving DecidableEq, Repr

namespace Grid

/-- Half of a mixing step: add `s` to `r`, then fold the sum into `t` and rotate it. -/
def stir (n : UInt32) (r s t : Row) : Row × Row :=
  let sum := r.zip (· + ·) s
  (sum, (t.zip (· ^^^ ·) sum).map (rotate n))

/-- One round along the columns. -/
def mixColumns (g : Grid) : Grid :=
  let (top, bottom) := stir 16 g.top g.upper g.bottom
  let (lower, upper) := stir 12 g.lower bottom g.upper
  let (top, bottom) := stir 8 top upper bottom
  let (lower, upper) := stir 7 lower bottom upper
  ⟨top, upper, lower, bottom⟩

/-- One round along the diagonals. -/
def mixDiagonals (g : Grid) : Grid :=
  let slanted : Grid :=
    ⟨g.top, g.upper.turn, g.lower.turn.turn, g.bottom.turn.turn.turn⟩
  let mixed := slanted.mixColumns
  ⟨mixed.top, mixed.upper.turn.turn.turn, mixed.lower.turn.turn, mixed.bottom.turn⟩

/-- Two rounds: along the columns, then along the diagonals. -/
def mix (g : Grid) : Grid := g.mixColumns.mixDiagonals

/-- The sum of two grids, place by place. -/
def add (g h : Grid) : Grid :=
  ⟨g.top.zip (· + ·) h.top, g.upper.zip (· + ·) h.upper, g.lower.zip (· + ·) h.lower,
    g.bottom.zip (· + ·) h.bottom⟩

/-- The sixteen words of a grid, row by row. -/
def toList (g : Grid) : List UInt32 :=
  g.top.toList ++ g.upper.toList ++ g.lower.toList ++ g.bottom.toList

end Grid

/-- The two halves of a key. -/
structure Key where
  upper : Row
  lower : Row
deriving DecidableEq, Repr

/-- The grid from which block `number` is made. -/
def Key.grid (key : Key) (number : Nat) : Grid where
  top := ⟨0x61707865, 0x3320646e, 0x79622d32, 0x6b206574⟩
  upper := key.upper
  lower := key.lower
  bottom := ⟨UInt32.ofNat number, UInt32.ofNat (number >>> 32), 0, 0⟩

/-- The words of block `number`. -/
def block (key : Key) (number : Nat) : List UInt32 :=
  let start := key.grid number
  (start.mix.mix.mix.mix.add start).toList

/-- The word at a place of the stream. -/
def word (key : Key) (place : Nat) : UInt32 :=
  (block key (place / 16)).getD (place % 16) 0

/-! ### Keys from seeds -/

/-- One step of the generator that spreads a seed over a key. -/
def spread (state : UInt64) : UInt64 :=
  state * 6364136223846793005 + 11634580027462260723

/-- The word that a state of the generator gives. -/
def spreadWord (state : UInt64) : UInt32 :=
  let x := (((state >>> 18) ^^^ state) >>> 27).toUInt32
  let turns := (state >>> 59).toUInt32
  (x >>> turns) ||| (x <<< ((32 - turns) % 32))

/-- A row of key words and the state of the generator after it. -/
def spreadRow (state : UInt64) : Row × UInt64 :=
  let s₁ := spread state
  let s₂ := spread s₁
  let s₃ := spread s₂
  let s₄ := spread s₃
  (⟨spreadWord s₁, spreadWord s₂, spreadWord s₃, spreadWord s₄⟩, s₄)

/-- The key of a seed. -/
def Key.ofSeed (seed : UInt64) : Key :=
  let (upper, state) := spreadRow seed
  let (lower, _) := spreadRow state
  ⟨upper, lower⟩

end CardDuel.Keystream
