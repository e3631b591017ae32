/-
This file holds the machine as text: its memory, its registers, its screen and
its keys, for whoever wants to look inside.

Memory is listed from where programs start, two bytes to a line, and never
beyond its end.
-/

import ChipEight.Machine.Basic

namespace ChipEight.Machine

/-- One line of a memory dump: an address and the two bytes there. -/
def memoryLine (machine : Machine) (address : Nat) : String :=
  Numeral.hexadecimal 4 address ++ ": "
    ++ Numeral.hexadecimal 2 (machine.memory.read address).toNat
    ++ Numeral.hexadecimal 2 (machine.memory.read (address + 1)).toNat

/-- The number of lines of a memory dump of a number of bytes. -/
def memoryLineCount (count : Nat) : Nat :=
  (min count (memorySize - programStart) + 1) / 2

/-- The lines of a memory dump of a number of bytes, an odd number being rounded up. -/
def memoryLines (machine : Machine) (count : Nat) : List String :=
  (List.range (memoryLineCount count)).map fun position =>
    machine.memoryLine (programStart + 2 * position)

def memoryText (machine : Machine) (count : Nat) : String :=
  String.join ((machine.memoryLines count).map fun line => line ++ "\n")

def registerText (machine : Machine) (register : Register) : String :=
  Instruction.registerName register ++ "="
    ++ Numeral.hexadecimal 2 (machine.registers.read register).toNat

/-- What stands behind a register: eight registers make a line. -/
def registerSeparator (register : Register) : String :=
  if register.val % 8 = 7 then "\n" else " "

/-- The call stack as text, the oldest return address first. -/
def stackText (machine : Machine) : String :=
  "stack:" ++ String.join (machine.stack.live.map fun address =>
    " " ++ Numeral.hexadecimal 4 address.toNat)

def registersText (machine : Machine) : String :=
  "PC: " ++ Numeral.hexadecimal 4 machine.pc
    ++ " SP: " ++ Numeral.hexadecimal 2 machine.stack.depth
    ++ " I: " ++ Numeral.hexadecimal 4 machine.index.toNat ++ "\n"
    ++ "DT: " ++ Numeral.decimal 3 machine.delay.toNat
    ++ " ST: " ++ Numeral.decimal 3 machine.sound.toNat ++ "\n"
    ++ String.join ((List.finRange 16).map fun register =>
      machine.registerText register ++ registerSeparator register)
    ++ machine.stackText ++ "\n"

def screenText (machine : Machine) : String := machine.screen.text

def keysText (machine : Machine) : String := machine.keypad.text

end ChipEight.Machine
