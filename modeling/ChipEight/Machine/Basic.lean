/-
This file holds the machine: everything a running program can see or change, and
the operations on it from outside that execute no instruction.

A new machine has nothing in memory, not even the font. Loading a program puts
every part of the machine back to where it starts, except the random numbers,
which go on where they were, and the settings. A program that is too large is
refused before anything changes.

Operations that can fail or report something return an `Outcome`: the result, the
machine afterwards and the notices in the order they arose.
-/

import ChipEight.CallStack
import ChipEight.Font
import ChipEight.Framebuffer
import ChipEight.Listing
import ChipEight.Memory
import ChipEight.Notice
import ChipEight.RandomSource
import ChipEight.Settings

namespace ChipEight

/-- The state of a machine. -/
structure Machine where
  settings : Settings
  /-- The address of the next instruction. -/
  pc : Nat
  /-- The index register, which points at data. -/
  index : UInt16
  registers : Registers
  delay : UInt8
  sound : UInt8
  stack : CallStack
  keypad : Keypad
  /-- The register that the next key press goes into, while the machine waits for one. -/
  awaiting : Option Register
  memory : Memory
  screen : Framebuffer
  /-- Whether the machine stopped on an error. -/
  halted : Bool
  random : RandomSource

/-- What an operation on a machine gives back. -/
structure Outcome (Result : Type) where
  result : Except Error Result
  machine : Machine
  notices : Array Notice

namespace Machine

/-- A machine with nothing loaded. -/
def blank (settings : Settings) (random : RandomSource) : Machine where
  settings := settings
  pc := programStart
  index := 0
  registers := Registers.zero
  delay := 0
  sound := 0
  stack := CallStack.empty
  keypad := Keypad.released
  awaiting := none
  memory := Memory.zero
  screen := Framebuffer.blank
  halted := false
  random := random

/-- A new machine. Its random numbers start from the seed of the settings, if there is one. -/
def create (settings : Settings) (generator : Generator) : Machine :=
  blank settings (generator.source settings.seed)

/-! ### Loading -/

/-- The machine with the font at the bottom of memory. -/
def loadFont (machine : Machine) : Machine :=
  { machine with memory := machine.memory.overwrite 0 Font.bytes }

/-- The machine with a program loaded that is known to fit. -/
def loaded (machine : Machine) (program : List UInt8) : Machine :=
  let fresh := (blank machine.settings machine.random).loadFont
  { fresh with memory := fresh.memory.overwrite programStart program }

theorem memory_loaded (machine : Machine) (program : List UInt8) :
    (machine.loaded program).memory =
      (Memory.zero.overwrite 0 Font.bytes).overwrite programStart program := rfl

/-- Load a program, unless it is too large. -/
def load (machine : Machine) (program : List UInt8) : Outcome Unit :=
  if program.length ≤ maximumProgramSize then
    ⟨.ok (), machine.loaded program, #[.loaded program.length]⟩
  else
    ⟨.error (.largeProgram program.length), machine, #[]⟩

/-! ### Keys -/

/-- Press or release a key. A press ends a wait and goes into the waiting register. -/
def setKey (machine : Machine) (key : Key) (pressed : Bool) : Machine × Array Notice :=
  let updated := { machine with keypad := machine.keypad.update key pressed }
  match pressed, machine.awaiting with
  | true, some register =>
    ({ updated with
        awaiting := none
        registers := machine.registers.write register key.toByte },
      #[.keyReceived key register])
  | _, _ => (updated, #[])

/-- A key changes nothing but the keypad, a wait for a key and a register. -/
theorem exists_setKey (machine : Machine) (key : Key) (pressed : Bool) :
    ∃ keypad awaiting registers,
      (machine.setKey key pressed).1 =
        { machine with keypad := keypad, awaiting := awaiting, registers := registers } := by
  unfold setKey
  split <;> exact ⟨_, _, _, rfl⟩

/-- A release, and a press that no wait is there for, only shows in the keypad. -/
theorem setKey_of_unanswered (machine : Machine) (key : Key) (pressed : Bool)
    (unanswered : machine.awaiting = none ∨ pressed = false) :
    machine.setKey key pressed =
      ({ machine with keypad := machine.keypad.update key pressed }, #[]) := by
  unfold setKey
  rcases unanswered with awake | released
  · rw [awake]
    cases pressed <;> rfl
  · rw [released]

/-- A press during a wait goes into the register that waits, and ends the wait. -/
theorem setKey_of_awaiting (machine : Machine) (key : Key) {register : Register}
    (waits : machine.awaiting = some register) :
    machine.setKey key true =
      ({ machine with
          keypad := machine.keypad.update key true
          awaiting := none
          registers := machine.registers.write register key.toByte },
        #[.keyReceived key register]) := by
  simp only [setKey, waits]

/-- Apply a key event, unless its byte names no key. -/
def applyKeyEvent (machine : Machine) (event : KeyEvent) : Outcome Unit :=
  match Key.ofByte? event.index with
  | some key =>
    let (updated, notices) := machine.setKey key event.isPress
    ⟨.ok (), updated, notices⟩
  | none => ⟨.error (.invalidKey event.index), machine, #[]⟩

/-! ### Timers -/

/-- Whether the buzzer sounds during the coming tick. -/
def isBuzzing (machine : Machine) : Bool := machine.sound ≠ 0

/-- A timer after one tick: one less, but never below zero. -/
def countDown (timer : UInt8) : UInt8 := if timer = 0 then 0 else timer - 1

def tick (machine : Machine) : Machine :=
  { machine with delay := countDown machine.delay, sound := countDown machine.sound }

end Machine

end ChipEight
