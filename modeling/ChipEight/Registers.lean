/-
This file holds the sixteen registers and the arithmetic on them.

The last register doubles as a flag: the carrying and shifting operations leave
one bit about their operands in it. What matters when the flag register is also
an operand is the order of the two writes. Addition writes its sum first and the
carry afterwards. Every other operation decides its flag from the old operands,
writes it, and only then computes its result from the registers as they are after
that write. The functions below spell that order out write by write.
-/

namespace ChipEight

abbrev Register := Fin 16

namespace Register

/-- The register that holds carries, borrows and collisions. -/
def flag : Register := ⟨15, by decide⟩

/-- The register that a jump with an offset adds. -/
def offset : Register := ⟨0, by decide⟩

end Register

/-- The operations that combine two registers. -/
inductive Arithmetic
  | assign
  | or
  | and
  | xor
  | add
  | subtract
  | subtractFrom
  deriving DecidableEq, Repr

/-- The contents of the sixteen registers. -/
abbrev Registers := Vector UInt8 16

namespace Registers

def zero : Registers := Vector.replicate 16 0

def read (registers : Registers) (register : Register) : UInt8 := registers[register]

/-- The registers after one of them is overwritten. -/
def write (registers : Registers) (register : Register) (byte : UInt8) : Registers :=
  registers.set register byte

@[simp] theorem read_write_self (registers : Registers) (register : Register) (byte : UInt8) :
    (registers.write register byte).read register = byte := by
  simp [read, write]

/-- Overwriting a register leaves the others alone. -/
theorem read_write_other (registers : Registers) {written other : Register} (byte : UInt8)
    (different : other ≠ written) :
    (registers.write written byte).read other = registers.read other := by
  have values : (written : Nat) ≠ (other : Nat) := fun same => different (Fin.ext same.symm)
  simp [read, write, Vector.getElem_set_ne, values]

/-- The first registers up to and including the given one. -/
def upTo (registers : Registers) (last : Register) : List UInt8 :=
  registers.toList.take (last + 1)

/-- The registers after a run of bytes is written over them from the first register on.
Bytes beyond the last register are dropped. -/
def overwrite (registers : Registers) (bytes : List UInt8) : Registers :=
  Vector.ofFn fun register => bytes[register.val]?.getD (registers.read register)

/-! ### Arithmetic -/

def flagByte (condition : Bool) : UInt8 := if condition then 1 else 0

/-- The registers after the flag is set to a truth value. -/
def setFlag (registers : Registers) (condition : Bool) : Registers :=
  registers.write Register.flag (flagByte condition)

/-- The registers after the second operand is combined into the first. -/
def combine (registers : Registers) (operation : Arithmetic) (x y : Register) : Registers :=
  let left := registers.read x
  let right := registers.read y
  match operation with
  | .assign => registers.write x right
  | .or => registers.write x (left ||| right)
  | .and => registers.write x (left &&& right)
  | .xor => registers.write x (left ^^^ right)
  | .add => (registers.write x (left + right)).setFlag (255 < left.toNat + right.toNat)
  | .subtract =>
    let flagged := registers.setFlag (right < left)
    flagged.write x (flagged.read x - flagged.read y)
  | .subtractFrom =>
    let flagged := registers.setFlag (left < right)
    flagged.write x (flagged.read y - flagged.read x)

/-- The registers after one of them is halved, the bit that falls out going to the flag first. -/
def shiftRight (registers : Registers) (x : Register) : Registers :=
  let flagged := registers.write Register.flag (registers.read x &&& 1)
  flagged.write x (flagged.read x >>> 1)

/-- The registers after one of them is doubled, the bit that falls out going to the flag first. -/
def shiftLeft (registers : Registers) (x : Register) : Registers :=
  let flagged := registers.write Register.flag (registers.read x >>> 7)
  flagged.write x (flagged.read x <<< 1)

end Registers

end ChipEight
