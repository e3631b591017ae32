/-
This file holds everything that can go wrong, as causes, and the text of each.

Two of the causes are fatal: they arise while an instruction runs and stop the
machine until a new program is loaded. The others refuse a request and leave the
machine as it was, or come from outside it.
-/

import ChipEight.Numeral
import ChipEight.Word

namespace ChipEight

/-- The largest program that fits, in bytes: the memory above its first 512 bytes. -/
def maximumProgramSize : Nat := 3584

/-- What an access that left its storage was for. -/
inductive Access
  | fetch
  | memory
  | stackOverflow
  | stackUnderflow
  deriving DecidableEq, Repr

namespace Access

def text : Access → String
  | fetch => "instruction fetch"
  | memory => "memory access"
  | stackOverflow => "call stack overflow"
  | stackUnderflow => "call stack underflow"

end Access

/-- A cause of failure. -/
inductive Error
  /-- The word at `pc` is no instruction. -/
  | unknownWord (word : Word) (pc : Nat)
  /-- The instruction at `pc` reached for `address`, which its storage does not have. -/
  | outOfBounds (access : Access) (address pc : Nat)
  /-- A byte that names no key. -/
  | invalidKey (index : UInt8)
  /-- A program of `size` bytes, too large for the memory. -/
  | largeProgram (size : Nat)
  /-- Settings that cannot be read. -/
  | settings (reason : String)
  /-- A file or stream that failed, in the words of the system. -/
  | system (reason : String)
  /-- Text that could not be produced. -/
  | formatting
  deriving DecidableEq, Repr

namespace Error

/-- What the system says when text cannot be produced. -/
def formattingReason : String := "an error occurred when formatting an argument"

/-- The error in words. Addresses are written in base sixteen. -/
def message : Error → String
  | unknownWord word pc =>
    "unknown opcode " ++ Numeral.hexadecimal 4 word.toNat ++ " at " ++ Numeral.hexadecimal 4 pc
  | outOfBounds access address pc =>
    access.text ++ " out of bounds at address " ++ Numeral.hexadecimal 4 address
      ++ ", instruction " ++ Numeral.hexadecimal 4 pc
  | invalidKey index => "invalid key index " ++ Numeral.decimal 1 index.toNat ++ ", must be 0-15"
  | largeProgram size =>
    "program of " ++ Numeral.decimal 1 size ++ " bytes too large for VM memory, limit is "
      ++ Numeral.decimal 1 maximumProgramSize
  | settings reason => "configuration error: " ++ reason
  | system reason => reason
  | formatting => formattingReason

/-- Whether the error stops the machine. -/
def isFatal : Error → Bool
  | unknownWord _ _ => true
  | outOfBounds _ _ _ => true
  | _ => false

/-- The text of the error that lies beneath this one, if one does. -/
def source : Error → Option String
  | system reason => some reason
  | formatting => some formattingReason
  | _ => none

end Error

end ChipEight
