/-
This file holds the generator of random bytes that the program comes with: the
ChaCha cipher with twelve rounds, read as one endless sequence of 32-bit words of
which each gives its low byte. Nothing but the outermost layer depends on it.

A block of the keystream has sixteen words. It is made from four constant words,
eight words of key, a 64-bit block counter and two zero words, which six double
rounds mix before the words they started from are added again. The key is derived
from a 64-bit seed by a linear congruential generator whose state is hashed into
one key word per step.
-/

import ChipEight.RandomSource

namespace ChipEight

/-- The secret of a keystream. -/
abbrev KeystreamKey := Vector UInt32 8

namespace Keystream

/-- The sixteen words of a block while it is mixed. -/
abbrev Block := Vector UInt32 16

/-- A word with its bits moved left, those that fall out coming back in on the right. -/
def rotateLeft (word : UInt32) (count : Nat) : UInt32 :=
  (word <<< UInt32.ofNat count) ||| (word >>> UInt32.ofNat (32 - count))

/-- A word with its bits moved right, those that fall out coming back in on the left. -/
def rotateRight (word : UInt32) (count : Nat) : UInt32 := rotateLeft word (32 - count)

/-! ### Blocks -/

/-- One half step of a quarter round: add the second word to the first, then mix the first
into the third and rotate it. -/
def mix (block : Block) (a b d : Fin 16) (count : Nat) : Block :=
  let summed := block.set a (block[a] + block[b])
  summed.set d (rotateLeft (summed[d] ^^^ summed[a]) count)

/-- The quarter round on four words of a block. -/
def quarterRound (block : Block) (a b c d : Fin 16) : Block :=
  let first := mix block a b d 16
  let second := mix first c d b 12
  let third := mix second a b d 8
  mix third c d b 7

/-- A round on the columns of a block followed by one on its diagonals. -/
def doubleRound (block : Block) : Block :=
  let block := quarterRound block 0 4 8 12
  let block := quarterRound block 1 5 9 13
  let block := quarterRound block 2 6 10 14
  let block := quarterRound block 3 7 11 15
  let block := quarterRound block 0 5 10 15
  let block := quarterRound block 1 6 11 12
  let block := quarterRound block 2 7 8 13
  quarterRound block 3 4 9 14

def rounds : Nat → Block → Block
  | 0, block => block
  | count + 1, block => rounds count (doubleRound block)

/-- The block before mixing. The counter takes two words, the low one first. -/
def start (key : KeystreamKey) (counter : Nat) : Block :=
  #v[0x61707865, 0x3320646e, 0x79622d32, 0x6b206574,
    key[0], key[1], key[2], key[3], key[4], key[5], key[6], key[7],
    UInt32.ofNat counter, UInt32.ofNat (counter / 4294967296), 0, 0]

/-- The block of the keystream with the given number. -/
def block (key : KeystreamKey) (counter : Nat) : Block :=
  let before := start key counter
  Vector.zipWith (· + ·) (rounds 6 before) before

def word (key : KeystreamKey) (position : Nat) : UInt32 :=
  (block key (position / 16)).get ⟨position % 16, Nat.mod_lt _ (by decide)⟩

/-! ### Keys -/

/-- One step of the generator that spreads a seed over a key. -/
def advance (state : UInt64) : UInt64 :=
  state * 6364136223846793005 + 11634580027462260723

/-- The key word that a state of the generator gives. The top five bits choose a rotation. -/
def keyWord (state : UInt64) : UInt32 :=
  rotateRight (((state >>> 18) ^^^ state) >>> 27).toUInt32 (state >>> 59).toNat

/-- The state of the generator after a number of steps. -/
def advanceBy (state : UInt64) : Nat → UInt64
  | 0 => state
  | count + 1 => advance (advanceBy state count)

/-- The key that a seed stands for. -/
def keyOfSeed (seed : UInt64) : KeystreamKey :=
  Vector.ofFn fun position => keyWord (advanceBy seed (position + 1))

/-! ### Bytes -/

/-- The generator that takes its bytes from keystreams. A key gives those for machines without
a seed. -/
def generator (key : KeystreamKey) : Generator where
  seeded seed position := (word (keyOfSeed seed) position).toUInt8
  unseeded position := (word key position).toUInt8

instance : Coe KeystreamKey Generator := ⟨generator⟩

end Keystream

end ChipEight
