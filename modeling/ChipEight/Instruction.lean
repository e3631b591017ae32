/-
This file holds the instruction set: what the instructions are, which word stands
for which, and how each word is written in assembly.

An instruction carries its operands at their own sizes, so nothing after decoding
looks at bits again. Decoding is partial, since most words are data. Two families
do not look at their last digit and two shifts do not look at their second
register; the words that differ only there decode to one instruction. Assembly has
a table of its own, which looks at the digits of a word and not at what it decodes
to.
-/

import ChipEight.Numeral
import ChipEight.Registers
import ChipEight.Word

namespace ChipEight

/-- An instruction with its operands. -/
inductive Instruction
  /-- Switch every pixel off. -/
  | clearScreen
  /-- Continue after the most recent call. -/
  | leave
  /-- Continue at an address. -/
  | jump (target : Fin 4096)
  /-- Continue at an address, to come back later. -/
  | call (target : Fin 4096)
  /-- Skip one instruction if a register holds the byte. -/
  | skipIfByte (x : Register) (byte : UInt8)
  /-- Skip one instruction unless a register holds the byte. -/
  | skipUnlessByte (x : Register) (byte : UInt8)
  /-- Skip one instruction if two registers hold the same. -/
  | skipIfSame (x y : Register)
  /-- Skip one instruction unless two registers hold the same. -/
  | skipUnlessSame (x y : Register)
  /-- Put a byte into a register. -/
  | loadByte (x : Register) (byte : UInt8)
  /-- Add a byte to a register, leaving the flag alone. -/
  | addByte (x : Register) (byte : UInt8)
  /-- Combine the second register into the first. -/
  | combine (operation : Arithmetic) (x y : Register)
  /-- Halve a register. -/
  | shiftRight (x : Register)
  /-- Double a register. -/
  | shiftLeft (x : Register)
  /-- Put an address into the index register. -/
  | loadIndex (address : Fin 4096)
  /-- Continue at an address plus the first register. -/
  | jumpOffset (base : Fin 4096)
  /-- Put a random byte under a mask into a register. -/
  | random (x : Register) (mask : UInt8)
  /-- Draw a sprite of `height` rows at the position in two registers. -/
  | draw (x y : Register) (height : Fin 16)
  /-- Skip one instruction if the key a register names is pressed. -/
  | skipIfKey (x : Register)
  /-- Skip one instruction unless the key a register names is pressed. -/
  | skipUnlessKey (x : Register)
  /-- Read the delay timer into a register. -/
  | readDelay (x : Register)
  /-- Wait for a key and put it into a register. -/
  | awaitKey (x : Register)
  /-- Set the delay timer from a register. -/
  | setDelay (x : Register)
  /-- Set the sound timer from a register. -/
  | setSound (x : Register)
  /-- Add a register to the index register. -/
  | addIndex (x : Register)
  /-- Point the index register at the glyph of the digit in a register. -/
  | glyph (x : Register)
  /-- Store the three decimal digits of a register. -/
  | storeDecimal (x : Register)
  /-- Store the registers up to the given one. -/
  | storeRegisters (x : Register)
  /-- Read the registers up to the given one. -/
  | readRegisters (x : Register)
  deriving DecidableEq, Repr

namespace Instruction

/-! ### Decoding -/

/-- The register instruction that the last digit of a family-eight word selects. -/
def decodeArithmetic (x y : Register) (n : Fin 16) : Option Instruction :=
  match n.val with
  | 0x0 => some (combine .assign x y)
  | 0x1 => some (combine .or x y)
  | 0x2 => some (combine .and x y)
  | 0x3 => some (combine .xor x y)
  | 0x4 => some (combine .add x y)
  | 0x5 => some (combine .subtract x y)
  | 0x6 => some (shiftRight x)
  | 0x7 => some (combine .subtractFrom x y)
  | 0xE => some (shiftLeft x)
  | _ => none

/-- The keypad instruction that the low byte of a family-E word selects. -/
def decodeKeypad (x : Register) (byte : UInt8) : Option Instruction :=
  match byte.toNat with
  | 0x9E => some (skipIfKey x)
  | 0xA1 => some (skipUnlessKey x)
  | _ => none

/-- The instruction that the low byte of a family-F word selects. -/
def decodeMiscellaneous (x : Register) (byte : UInt8) : Option Instruction :=
  match byte.toNat with
  | 0x07 => some (readDelay x)
  | 0x0A => some (awaitKey x)
  | 0x15 => some (setDelay x)
  | 0x18 => some (setSound x)
  | 0x1E => some (addIndex x)
  | 0x29 => some (glyph x)
  | 0x33 => some (storeDecimal x)
  | 0x55 => some (storeRegisters x)
  | 0x65 => some (readRegisters x)
  | _ => none

/-- The instruction that a family-zero word stands for: two whole words and no other. -/
def decodeSystem (word : Word) : Option Instruction :=
  if word = 0x00E0 then some clearScreen
  else if word = 0x00EE then some leave
  else none

/-- The instruction that a word stands for, if it stands for one. -/
def decode (word : Word) : Option Instruction :=
  match word.family.val with
  | 0x0 => decodeSystem word
  | 0x1 => some (jump word.address)
  | 0x2 => some (call word.address)
  | 0x3 => some (skipIfByte word.x word.lowByte)
  | 0x4 => some (skipUnlessByte word.x word.lowByte)
  | 0x5 => some (skipIfSame word.x word.y)
  | 0x6 => some (loadByte word.x word.lowByte)
  | 0x7 => some (addByte word.x word.lowByte)
  | 0x8 => decodeArithmetic word.x word.y word.n
  | 0x9 => some (skipUnlessSame word.x word.y)
  | 0xA => some (loadIndex word.address)
  | 0xB => some (jumpOffset word.address)
  | 0xC => some (random word.x word.lowByte)
  | 0xD => some (draw word.x word.y word.n)
  | 0xE => decodeKeypad word.x word.lowByte
  | _ => decodeMiscellaneous word.x word.lowByte

/-! ### Assembly -/

def registerName (register : Register) : String := "V" ++ Numeral.hexadecimal 1 register

def byteText (byte : UInt8) : String := "0x" ++ Numeral.hexadecimal 2 byte.toNat

def addressText (address : Fin 4096) : String := "0x" ++ Numeral.hexadecimal 3 address

end Instruction

open Instruction in
/-- A word in assembly. A word that is no instruction, most likely sprite data, is written
as the word it is. -/
def Word.mnemonic (word : Word) : String :=
  let x := registerName word.x
  let y := registerName word.y
  let byte := byteText word.lowByte
  let address := addressText word.address
  let data := "DW 0x" ++ Numeral.hexadecimal 4 word.toNat
  match word.family.val, word.n.val, word.lowByte.toNat with
  | 0x0, _, _ => if word = 0x00E0 then "CLS" else if word = 0x00EE then "RET" else data
  | 0x1, _, _ => "JP " ++ address
  | 0x2, _, _ => "CALL " ++ address
  | 0x3, _, _ => "SE " ++ x ++ ", " ++ byte
  | 0x4, _, _ => "SNE " ++ x ++ ", " ++ byte
  | 0x5, _, _ => "SE " ++ x ++ ", " ++ y
  | 0x6, _, _ => "LD " ++ x ++ ", " ++ byte
  | 0x7, _, _ => "ADD " ++ x ++ ", " ++ byte
  | 0x8, 0x0, _ => "LD " ++ x ++ ", " ++ y
  | 0x8, 0x1, _ => "OR " ++ x ++ ", " ++ y
  | 0x8, 0x2, _ => "AND " ++ x ++ ", " ++ y
  | 0x8, 0x3, _ => "XOR " ++ x ++ ", " ++ y
  | 0x8, 0x4, _ => "ADD " ++ x ++ ", " ++ y
  | 0x8, 0x5, _ => "SUB " ++ x ++ ", " ++ y
  | 0x8, 0x6, _ => "SHR " ++ x
  | 0x8, 0x7, _ => "SUBN " ++ x ++ ", " ++ y
  | 0x8, 0xE, _ => "SHL " ++ x
  | 0x9, _, _ => "SNE " ++ x ++ ", " ++ y
  | 0xA, _, _ => "LD I, " ++ address
  | 0xB, _, _ => "JP V0, " ++ address
  | 0xC, _, _ => "RND " ++ x ++ ", " ++ byte
  | 0xD, _, _ => "DRW " ++ x ++ ", " ++ y ++ ", " ++ Numeral.decimal 1 word.n
  | 0xE, _, 0x9E => "SKP " ++ x
  | 0xE, _, 0xA1 => "SKNP " ++ x
  | 0xF, _, 0x07 => "LD " ++ x ++ ", DT"
  | 0xF, _, 0x0A => "LD " ++ x ++ ", K"
  | 0xF, _, 0x15 => "LD DT, " ++ x
  | 0xF, _, 0x18 => "LD ST, " ++ x
  | 0xF, _, 0x1E => "ADD I, " ++ x
  | 0xF, _, 0x29 => "LD F, " ++ x
  | 0xF, _, 0x33 => "LD B, " ++ x
  | 0xF, _, 0x55 => "LD [I], " ++ x
  | 0xF, _, 0x65 => "LD " ++ x ++ ", [I]"
  | _, _, _ => data

end ChipEight
