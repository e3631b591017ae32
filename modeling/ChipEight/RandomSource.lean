/-
This file holds where a machine takes its random bytes from.

How random bytes are made is not decided here. A generator stands for whatever
makes them: it has an endless sequence of bytes for each seed, and one more for
machines that have no seed. A machine takes the bytes of its sequence one by one
and remembers how many it has taken.
-/

namespace ChipEight

/-- What random bytes are made by. -/
structure Generator where
  /-- The bytes that a seed gives, by how many were taken before. -/
  seeded : UInt64 → Nat → UInt8
  /-- The bytes there are without a seed. -/
  unseeded : Nat → UInt8

/-- The generator that makes nothing but zeros. -/
def Generator.zeros : Generator := ⟨fun _ _ => 0, fun _ => 0⟩

/-- A source of random bytes: the bytes it gives and how many of them have been taken. -/
structure RandomSource where
  byte : Nat → UInt8
  taken : Nat

namespace RandomSource

def start (byte : Nat → UInt8) : RandomSource := ⟨byte, 0⟩

/-- The byte that comes next. -/
def peek (source : RandomSource) : UInt8 := source.byte source.taken

def skip (source : RandomSource) : RandomSource := { source with taken := source.taken + 1 }

end RandomSource

/-- The source that a generator starts for a seed, or without one. -/
def Generator.source (generator : Generator) : Option UInt64 → RandomSource
  | some seed => RandomSource.start (generator.seeded seed)
  | none => RandomSource.start generator.unseeded

end ChipEight
