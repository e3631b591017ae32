/-
This file holds instruction words, the sixteen-bit units a program is made of.

A word is stored with its high byte first. Its first hexadecimal digit names the
instruction family and the other three hold operands, which several overlapping
fields read: two register numbers `x` and `y`, the last digit `n`, the low byte
and the low twelve bits. Each field has the type of what it selects, so a
register number is always a register.
-/

namespace ChipEight

/-- An instruction word. -/
abbrev Word := UInt16

namespace Word

/-- The word stored as the two bytes, the high byte first. -/
def ofBytes (high low : UInt8) : Word :=
  UInt16.ofNat (256 * high.toNat + low.toNat)

/-- The hexadecimal digit that counts a unit, which is one of 1, 16, 256 and 4096. -/
def digit (word : Word) (unit : Nat) : Fin 16 :=
  ⟨word.toNat / unit % 16, Nat.mod_lt _ (by decide)⟩

/-- The first digit, which names the instruction family. -/
def family (word : Word) : Fin 16 := word.digit 4096

def x (word : Word) : Fin 16 := word.digit 256

def y (word : Word) : Fin 16 := word.digit 16

def n (word : Word) : Fin 16 := word.digit 1

def lowByte (word : Word) : UInt8 := UInt8.ofNat (word.toNat % 256)

def address (word : Word) : Fin 4096 := ⟨word.toNat % 4096, Nat.mod_lt _ (by decide)⟩

/-- The two bytes of a word make up its value, so nothing is cut off. -/
theorem toNat_ofBytes (high low : UInt8) :
    (ofBytes high low).toNat = 256 * high.toNat + low.toNat := by
  have highBound := high.toNat_lt
  have lowBound := low.toNat_lt
  rw [ofBytes, UInt16.toNat_ofNat']
  exact Nat.mod_eq_of_lt (by omega)

end Word

end ChipEight
