import CardDuel.Random.Keystream

/-!
# Random choices and shuffles

A `Stream` is a seed together with the number of words drawn from its keystream, so equal
streams make equal choices.  `Stream.index` draws a number below a bound, each with the same
chance, and `Stream.shuffle` puts a list into a random order.  `Stream.within` opens an
independent stream for a named purpose.
-/

namespace CardDuel

/-- A position in the keystream of a seed. -/
structure Stream where
  seed : UInt64
  drawn : Nat
deriving DecidableEq, Repr

namespace Stream

/-- The stream of a seed from its beginning. -/
def ofSeed (seed : UInt64) : Stream := ⟨seed, 0⟩

/-- The next word and the stream after it. -/
def next (stream : Stream) : UInt32 × Stream :=
  (Keystream.word (Keystream.Key.ofSeed stream.seed) stream.drawn,
    { stream with drawn := stream.drawn + 1 })

/-- The largest low half of a product with `n` that keeps all numbers below `n` equally
likely. -/
def zone (n : Nat) : Nat := (n <<< (31 - n.log2)) - 1

/-- A number below `n` from at most `tries` words: the high half of the product of a word
and `n`, once the low half lies in the zone. -/
def indexWithin (n : Nat) : Nat → Stream → Nat × Stream
  | 0, stream => (0, stream)
  | tries + 1, stream =>
    let (word, stream) := stream.next
    let product := word.toNat * n
    if product % 4294967296 ≤ zone n then (product >>> 32, stream)
    else indexWithin n tries stream

/-- A number below `n`.  More than half of all words are accepted, so a hundred words
without one do not occur. -/
def index (stream : Stream) (n : Nat) : Nat × Stream :=
  indexWithin n 100 stream

/-- Exchange each place from `last` down to 1 with a random place at or below it. -/
def shuffleFrom {α : Type} (stream : Stream) (cards : Array α) : Nat → Array α × Stream
  | 0 => (cards, stream)
  | last + 1 =>
    let (place, stream) := stream.index (last + 2)
    shuffleFrom stream (cards.swapIfInBounds (last + 1) place) last

/-- A list in random order. -/
def shuffle {α : Type} (stream : Stream) (items : List α) : List α × Stream :=
  let (shuffled, stream) := shuffleFrom stream items.toArray (items.length - 1)
  (shuffled.toList, stream)

/-! ### Streams for a purpose -/

/-- One step of the hash that derives seeds: rotate, fold in a word, multiply. -/
def absorb (hash word : UInt64) : UInt64 :=
  (((hash <<< 5) ||| (hash >>> 59)) ^^^ word) * 0x517cc1b727220a95

/-- The number whose digits to the base 256, lowest first, are the given bytes. -/
def littleEndian (bytes : List UInt8) : UInt64 :=
  bytes.foldr (fun byte rest => rest * 256 + byte.toUInt64) 0

/-- One word of `size` bytes absorbed, if there are so many, and the bytes left over. -/
def absorbWord (size : Nat) (state : UInt64 × List UInt8) : UInt64 × List UInt8 :=
  let (hash, bytes) := state
  if size ≤ bytes.length then
    (absorb hash (littleEndian (bytes.take size)), bytes.drop size)
  else state

/-- Bytes absorbed in words of eight, then at most one word each of four, two and one. -/
def absorbBytes (hash : UInt64) : List UInt8 → UInt64
  | a :: b :: c :: d :: e :: f :: g :: h :: rest =>
    absorbBytes (absorb hash (littleEndian [a, b, c, d, e, f, g, h])) rest
  | rest => (absorbWord 1 (absorbWord 2 (absorbWord 4 (hash, rest)))).1

/-- The hash of a seed and a text: the seed, the bytes of the text, and a closing mark. -/
def contextSeed (seed : UInt64) (context : String) : UInt64 :=
  absorb (absorbBytes (absorb 0 seed) context.toUTF8.toList) 0xff

/-- The stream that a seed gives for a purpose; what the stream has drawn plays no part. -/
def within (stream : Stream) (context : String) : Stream :=
  ofSeed (contextSeed stream.seed context)

end Stream

end CardDuel
