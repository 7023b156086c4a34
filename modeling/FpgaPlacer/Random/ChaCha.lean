/-!
# The ChaCha block function

A 256-bit key and a block number are turned into sixteen 32-bit words by
twelve rounds.  The words of blocks 0, 1, 2, … form the key stream.
-/

namespace FpgaPlacer.ChaCha

/-- The sixteen words that the rounds act on. -/
abbrev State := Vector UInt32 16

/-- A 256-bit key, as little-endian words. -/
abbrev Key := Vector UInt32 8

/-- Rotation of a word to the left. -/
def rotateLeft (word : UInt32) (amount : UInt32) : UInt32 :=
  (word <<< amount) ||| (word >>> (32 - amount))

/-- The quarter round on four words of the state. -/
def quarterRound (state : State) (ia ib ic id : Fin 16) : State :=
  let a := state[ia] + state[ib]
  let d := rotateLeft (state[id] ^^^ a) 16
  let c := state[ic] + d
  let b := rotateLeft (state[ib] ^^^ c) 12
  let a := a + b
  let d := rotateLeft (d ^^^ a) 8
  let c := c + d
  let b := rotateLeft (b ^^^ c) 7
  (((state.set ia a).set ib b).set ic c).set id d

/-- A round over the columns followed by one over the diagonals. -/
def doubleRound (state : State) : State :=
  let state := quarterRound state 0 4 8 12
  let state := quarterRound state 1 5 9 13
  let state := quarterRound state 2 6 10 14
  let state := quarterRound state 3 7 11 15
  let state := quarterRound state 0 5 10 15
  let state := quarterRound state 1 6 11 12
  let state := quarterRound state 2 7 8 13
  quarterRound state 3 4 9 14

/-- The state before the rounds: constants, key, block number, stream 0. -/
def initial (key : Key) (block : UInt64) : State :=
  #v[0x61707865, 0x3320646e, 0x79622d32, 0x6b206574,
    key[0], key[1], key[2], key[3], key[4], key[5], key[6], key[7],
    block.toUInt32, (block >>> 32).toUInt32, 0, 0]

/-- The given number of double rounds. -/
def rounds : Nat → State → State
  | 0, state => state
  | count + 1, state => rounds count (doubleRound state)

/-- One block of the key stream. -/
def block (key : Key) (number : UInt64) : State :=
  let start := initial key number
  start.zipWith (· + ·) (rounds 6 start)

/-- The word of the key stream at a position. -/
def word (key : Key) (position : Nat) : UInt32 :=
  (block key (UInt64.ofNat (position / 16))).get ⟨position % 16, Nat.mod_lt _ (by decide)⟩

end FpgaPlacer.ChaCha
