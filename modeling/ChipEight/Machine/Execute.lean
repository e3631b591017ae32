/-
This file holds what each instruction does.

An instruction runs on a machine whose program counter has already moved past it.
It either fails, and then nothing it did remains, or it gives the machine
afterwards together with how the cycle ends. Every check comes before the first
change, so failing and leaving the machine alone are one thing. The address of
the instruction itself is needed only to say where an error arose.
-/

import ChipEight.Flow
import ChipEight.Machine.Basic

namespace ChipEight

/-- What an instruction that succeeds gives back. -/
structure Step where
  machine : Machine
  flow : Flow := .next
  notices : Array Notice := #[]

namespace Machine

def instructionSize : Nat := 2

/-- The machine with its program counter past one instruction. -/
def advance (machine : Machine) : Machine :=
  { machine with pc := machine.pc + instructionSize }

/-- The machine past the next instruction if a condition holds. -/
def skipIf (machine : Machine) (condition : Bool) : Machine :=
  if condition then machine.advance else machine

/-- The machine with its program counter at an address. -/
def goTo (machine : Machine) (address : Nat) : Machine := { machine with pc := address }

def withRegisters (machine : Machine) (registers : Registers) : Machine :=
  { machine with registers := registers }

def setRegister (machine : Machine) (register : Register) (byte : UInt8) : Machine :=
  machine.withRegisters (machine.registers.write register byte)

/-- Go on only if as many bytes as asked for lie in memory from the index register on. -/
def checkRange (machine : Machine) (length pc : Nat) (action : Unit → Step) :
    Except Error Step :=
  if machine.index.toNat + length ≤ memorySize then .ok (action ())
  else .error (.outOfBounds .memory (machine.index.toNat + length - 1) pc)

/-- The hundreds, tens and ones of a byte. -/
def decimalDigits (byte : UInt8) : List UInt8 := [byte / 100, byte / 10 % 10, byte % 10]

/-- Draw the sprite at the index register. The flag register is cleared before the position
is read, so a position read from it is zero. -/
def drawSprite (machine : Machine) (x y : Register) (height : Nat) : Machine :=
  let cleared := machine.registers.write Register.flag 0
  let drawing := machine.screen.draw (cleared.read x).toNat (cleared.read y).toNat
    (machine.memory.slice machine.index.toNat height)
  { machine with
    screen := drawing.screen
    registers := cleared.setFlag drawing.erased }

/-- Execute an instruction that stood at `pc`, on a machine already past it. -/
def execute (machine : Machine) (pc : Nat) : Instruction → Except Error Step
  | .clearScreen =>
    .ok { machine := { machine with screen := Framebuffer.blank }, flow := .draw }
  | .leave =>
    match machine.stack.pop? with
    | some (address, stack) =>
      .ok { machine := { machine with stack := stack, pc := address.toNat }, flow := .jump }
    | none => .error (.outOfBounds .stackUnderflow 0 pc)
  | .jump target => .ok { machine := machine.goTo target, flow := .jump }
  | .call target =>
    match machine.stack.push? (UInt16.ofNat machine.pc) with
    | some stack => .ok { machine := { machine with stack := stack, pc := target }, flow := .jump }
    | none => .error (.outOfBounds .stackOverflow machine.stack.depth pc)
  | .skipIfByte x byte => .ok { machine := machine.skipIf (machine.registers.read x = byte) }
  | .skipUnlessByte x byte => .ok { machine := machine.skipIf (machine.registers.read x ≠ byte) }
  | .skipIfSame x y =>
    .ok { machine := machine.skipIf (machine.registers.read x = machine.registers.read y) }
  | .skipUnlessSame x y =>
    .ok { machine := machine.skipIf (machine.registers.read x ≠ machine.registers.read y) }
  | .loadByte x byte => .ok { machine := machine.setRegister x byte }
  | .addByte x byte => .ok { machine := machine.setRegister x (machine.registers.read x + byte) }
  | .combine operation x y =>
    .ok { machine := machine.withRegisters (machine.registers.combine operation x y) }
  | .shiftRight x => .ok { machine := machine.withRegisters (machine.registers.shiftRight x) }
  | .shiftLeft x => .ok { machine := machine.withRegisters (machine.registers.shiftLeft x) }
  | .loadIndex address => .ok { machine := { machine with index := UInt16.ofNat address } }
  | .jumpOffset base =>
    .ok
      { machine := machine.goTo ((machine.registers.read Register.offset).toNat + base)
        flow := .jump }
  | .random x mask =>
    .ok
      { machine :=
          { machine.setRegister x (mask &&& machine.random.peek) with
            random := machine.random.skip } }
  | .draw x y height =>
    machine.checkRange height pc fun _ =>
      { machine := machine.drawSprite x y height, flow := .draw }
  | .skipIfKey x =>
    .ok { machine := machine.skipIf (machine.keypad.isPressedAt (machine.registers.read x)) }
  | .skipUnlessKey x =>
    .ok { machine := machine.skipIf (!machine.keypad.isPressedAt (machine.registers.read x)) }
  | .readDelay x => .ok { machine := machine.setRegister x machine.delay }
  | .awaitKey x =>
    .ok
      { machine := { machine with awaiting := some x }
        flow := .keyWait
        notices := #[.waitingForKey x] }
  | .setDelay x => .ok { machine := { machine with delay := machine.registers.read x } }
  | .setSound x => .ok { machine := { machine with sound := machine.registers.read x } }
  | .addIndex x =>
    .ok
      { machine :=
          { machine with index := machine.index + UInt16.ofNat (machine.registers.read x).toNat } }
  | .glyph x =>
    .ok
      { machine :=
          { machine with
            index := UInt16.ofNat ((machine.registers.read x).toNat * Font.glyphHeight) } }
  | .storeDecimal x =>
    machine.checkRange 3 pc fun _ =>
      { machine :=
          { machine with
            memory := machine.memory.overwrite machine.index.toNat
              (decimalDigits (machine.registers.read x)) } }
  | .storeRegisters x =>
    machine.checkRange (x + 1) pc fun _ =>
      { machine :=
          { machine with
            memory := machine.memory.overwrite machine.index.toNat (machine.registers.upTo x) } }
  | .readRegisters x =>
    machine.checkRange (x + 1) pc fun _ =>
      { machine := machine.withRegisters
          (machine.registers.overwrite (machine.memory.slice machine.index.toNat (x + 1))) }

end Machine

end ChipEight
