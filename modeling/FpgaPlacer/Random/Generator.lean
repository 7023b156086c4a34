import FpgaPlacer.Random.ChaCha

/-!
# The random generator

A generator is a key and a position in its key stream.  Draws depend on
nothing else, so a run is reproducible for a given seed.
-/

namespace FpgaPlacer

/-- A position in the key stream of a seed. -/
structure Generator where
  key : ChaCha.Key
  position : Nat
  deriving DecidableEq

namespace Generator

/-- One step of the sequence that spreads a seed over a key. -/
def spread (state : UInt64) : UInt64 :=
  state * 6364136223846793005 + 11634580027462260723

/-- The key word drawn from a state of the spreading sequence. -/
def keyWord (state : UInt64) : UInt32 :=
  let mixed : UInt32 := (((state >>> 18) ^^^ state) >>> 27).toUInt32
  let amount : UInt32 := (state >>> 59).toUInt32
  ChaCha.rotateLeft mixed (32 - amount)

/-- The generator of a seed, at the start of its key stream. -/
def ofSeed (seed : UInt64) : Generator :=
  let s0 := spread seed
  let s1 := spread s0
  let s2 := spread s1
  let s3 := spread s2
  let s4 := spread s3
  let s5 := spread s4
  let s6 := spread s5
  let s7 := spread s6
  { key := #v[keyWord s0, keyWord s1, keyWord s2, keyWord s3,
      keyWord s4, keyWord s5, keyWord s6, keyWord s7]
    position := 0 }

/-- The next 32-bit word. -/
def next32 (generator : Generator) : UInt32 × Generator :=
  (ChaCha.word generator.key generator.position,
    { generator with position := generator.position + 1 })

/-- The next 64-bit word: two words, the low one first. -/
def next64 (generator : Generator) : UInt64 × Generator :=
  let (low, generator) := generator.next32
  let (high, generator) := generator.next32
  ((high.toUInt64 <<< 32) ||| low.toUInt64, generator)

/-- The largest low half for which a draw below `bound` is kept, so that every
result is equally likely. -/
def acceptanceZone (bound : UInt32) : UInt32 :=
  (bound <<< (31 - bound.log2)) - 1

/-- Draws words until one is kept; at most `tries` are looked at. -/
def belowWithin (bound : UInt32) : Nat → Generator → UInt32 × Generator
  | 0, generator => (0, generator)
  | tries + 1, generator =>
      let (drawn, generator) := generator.next32
      let product := drawn.toUInt64 * bound.toUInt64
      if product.toUInt32 ≤ acceptanceZone bound then
        ((product >>> 32).toUInt32, generator)
      else belowWithin bound tries generator

/-- The number of words after which a key stream repeats: sixteen for each value
of the block counter. -/
def period : Nat := 16 * UInt64.size

/-- A number below `bound`.  A whole period of words is looked at, so the
draw only gives up on a stream that holds no acceptable word at all. -/
def below (bound : UInt32) (generator : Generator) : UInt32 × Generator :=
  belowWithin bound period generator

/-- Exchanges each place, from the last down to the second, with a drawn
place at or before it. -/
def shuffleFrom {α : Type} : Nat → Array α → Generator → Array α × Generator
  | 0, items, generator => (items, generator)
  | place + 1, items, generator =>
      let (drawn, generator) := generator.below (UInt32.ofNat (place + 2))
      shuffleFrom place (items.swapIfInBounds (place + 1) drawn.toNat) generator

/-- A random rearrangement of a list. -/
def shuffle {α : Type} (items : List α) (generator : Generator) :
    List α × Generator :=
  let (shuffled, generator) :=
    shuffleFrom (items.length - 1) items.toArray generator
  (shuffled.toList, generator)

end Generator

end FpgaPlacer
