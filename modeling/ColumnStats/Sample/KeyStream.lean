/-!
# A stream of words from a seed

A number seeds a key of eight words; the key enciphers the block numbers 0, 1, 2, … with a block
cipher of twelve rounds, sixteen words a block. Every word is a function of its index alone.

* `expandSeed`: the key of a seed;
* `block`: the words of one block;
* `word`: the words of 64 bits, two of a block each;
* `Stream`: the words from the first one that was not drawn yet.
-/

namespace ColumnStats.KeyStream

/-! ## The key -/

/-- The next state of the seed's own generator. -/
def seedStep (state : UInt64) : UInt64 := state * 6364136223846793005 + 11634580027462260723

/-- Turns the bits of a word; those that leave at the low end come in at the high one. -/
def rotateRight (x : UInt32) (bits : UInt32) : UInt32 := (x >>> bits) ||| (x <<< ((32 - bits) % 32))

/-- The word that the seed's generator draws in a state. -/
def seedWord (state : UInt64) : UInt32 :=
  rotateRight (((state >>> 18) ^^^ state) >>> 27).toUInt32 (state >>> 59).toUInt32

/-- Eight words: those of the eight states that follow the seed. -/
def expandSeed (seed : UInt64) : Vector UInt32 8 :=
  let rec states : Nat → UInt64
    | 0 => seed
    | n + 1 => seedStep (states n)
  Vector.ofFn fun i => seedWord (states (i + 1))

/-! ## The blocks -/

/-- The words that the cipher works on. -/
abbrev State := Vector UInt32 16

/-- Turns the bits of a word the other way. -/
def rotateLeft (x : UInt32) (bits : UInt32) : UInt32 := rotateRight x (32 - bits)

/-- One step of a quarter round: adds the second word to the first, then mixes the first into the
third and turns it. -/
def mix (state : State) (a b d : Fin 16) (bits : UInt32) : State :=
  let state := state.set a (state[a] + state[b])
  state.set d (rotateLeft (state[d] ^^^ state[a]) bits)

/-- Mixes four words of the state. -/
def quarterRound (state : State) (a b c d : Fin 16) : State :=
  mix (mix (mix (mix state a b d 16) c d b 12) a b d 8) c d b 7

/-- Quarter rounds down the columns, then along the diagonals. -/
def doubleRound (state : State) : State :=
  [((0 : Fin 16), (4 : Fin 16), (8 : Fin 16), (12 : Fin 16)), (1, 5, 9, 13), (2, 6, 10, 14),
    (3, 7, 11, 15), (0, 5, 10, 15), (1, 6, 11, 12), (2, 7, 8, 13), (3, 4, 9, 14)].foldl
    (fun state (a, b, c, d) => quarterRound state a b c d) state

/-- The first words of every state. -/
def constants : Vector UInt32 4 := #v[0x61707865, 0x3320646e, 0x79622d32, 0x6b206574]

/-- Constants, key, block number with its low word first, and two zeros. -/
def initialState (key : Vector UInt32 8) (number : UInt64) : State :=
  constants ++ key ++ #v[number.toUInt32, (number >>> 32).toUInt32, 0, 0]

/-- The words of a block: the state after twelve rounds, added to the state before them. -/
def block (key : Vector UInt32 8) (number : UInt64) : State :=
  let state := initialState key number
  (Nat.repeat doubleRound 6 state).zipWith (· + ·) state

/-- The word of 64 bits at an index, its low half first in the block. -/
def word (key : Vector UInt32 8) (index : Nat) : UInt64 :=
  let words := block key (UInt64.ofNat (index / 8))
  let low : Fin 16 := ⟨2 * (index % 8), by omega⟩
  let high : Fin 16 := ⟨2 * (index % 8) + 1, by omega⟩
  words[low].toUInt64 + (words[high].toUInt64 <<< 32)

/-! ## Drawing -/

/-- The words of a key, and how many of them were drawn. -/
structure Stream where
  key : Vector UInt32 8
  drawn : Nat

/-- The stream of a seed, from its first word. -/
def ofSeed (seed : UInt64) : Stream := ⟨expandSeed seed, 0⟩

/-- The next word, and the stream after it. -/
def Stream.next (stream : Stream) : UInt64 × Stream :=
  (word stream.key stream.drawn, { stream with drawn := stream.drawn + 1 })

end ColumnStats.KeyStream
