/-
This file holds what the library reports while it works, as values: the caller
decides whether anybody reads them.

Each notice has a level and a text. The trace of executed instructions is the
lowest level; an error is reported once, when it stops the machine.
-/

import ChipEight.Error
import ChipEight.Instruction
import ChipEight.Keypad

namespace ChipEight

/-- How much a notice matters. -/
inductive Level
  | trace
  | debug
  | info
  | warn
  | error
  deriving DecidableEq, Repr

namespace Level

def text : Level → String
  | trace => "TRACE"
  | debug => "DEBUG"
  | info => "INFO"
  | warn => "WARN"
  | error => "ERROR"

end Level

/-- Something worth reporting. -/
inductive Notice
  /-- The word at an address is about to be executed. -/
  | executing (address : Nat) (word : Word)
  /-- The machine waits for a key, which goes into a register. -/
  | waitingForKey (register : Register)
  /-- A key ended the wait. -/
  | keyReceived (key : Key) (register : Register)
  /-- The machine stopped on an error. -/
  | halted (cause : Error)
  /-- A program was loaded. -/
  | loaded (size : Nat)
  /-- Both loops start. -/
  | loopsStarting
  /-- Both loops stop. -/
  | loopsStopping
  /-- The loop that executes instructions stopped on an error. -/
  | cpuLoopStopped (address : Nat)
  /-- A key event was refused. -/
  | eventDropped (event : KeyEvent) (cause : Error)
  /-- The buzzer switched on or off. -/
  | buzzer (on : Bool)
  deriving DecidableEq, Repr

namespace Notice

/-- How much a notice matters. -/
def level : Notice → Level
  | executing _ _ => .trace
  | waitingForKey _ => .info
  | keyReceived _ _ => .info
  | halted _ => .error
  | loaded _ => .debug
  | loopsStarting => .debug
  | loopsStopping => .debug
  | cpuLoopStopped _ => .debug
  | eventDropped _ _ => .warn
  | buzzer _ => .info

def text : Notice → String
  | executing address word => Numeral.hexadecimal 4 address ++ ": " ++ word.mnemonic
  | waitingForKey register =>
    "waiting for key press into " ++ Instruction.registerName register
  | keyReceived key register =>
    "key " ++ key.name ++ " resumed execution, stored in " ++ Instruction.registerName register
  | halted cause => "interpreter halted: " ++ cause.message
  | loaded size => "loaded program of " ++ Numeral.decimal 1 size ++ " bytes"
  | loopsStarting => "starting loops"
  | loopsStopping => "stopping loops"
  | cpuLoopStopped address => "CPU loop stopped at " ++ Numeral.hexadecimal 4 address
  | eventDropped event cause => "dropped input event " ++ event.text ++ ": " ++ cause.message
  | buzzer on => if on then "buzzer on" else "buzzer off"

def line (notice : Notice) : String := notice.level.text ++ " " ++ notice.text

end Notice

end ChipEight
