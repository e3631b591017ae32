/-
This file holds the operations on a machine as values, so that a history of a
machine is a list.

Every operation that changes a machine is a command, and performing a list of
commands one after the other is all that can ever happen to one.
-/

import ChipEight.Machine.Cycle

namespace ChipEight.Machine

/-- An operation on a machine. -/
inductive Command
  | load (program : List UInt8)
  | loadFont
  | cycle
  | run (count : Nat)
  | tick
  | keyEvent (event : KeyEvent)
  | setKey (key : Key) (pressed : Bool)
  deriving DecidableEq, Repr

/-- What an operation that succeeds answers. -/
inductive Reply
  | done
  | flow (flow : Flow)
  | buzzing (on : Bool)
  deriving DecidableEq, Repr

def replying {Result : Type} (outcome : Outcome Result) (reply : Result → Reply) :
    Outcome Reply :=
  ⟨outcome.result.map reply, outcome.machine, outcome.notices⟩

def perform (machine : Machine) : Command → Outcome Reply
  | .load program => replying (machine.load program) fun _ => .done
  | .loadFont => ⟨.ok .done, machine.loadFont, #[]⟩
  | .cycle => replying machine.cycle .flow
  | .run count => replying (machine.run count) .flow
  | .tick => ⟨.ok (.buzzing machine.isBuzzing), machine.tick, #[]⟩
  | .keyEvent event => replying (machine.applyKeyEvent event) fun _ => .done
  | .setKey key pressed =>
    let (updated, notices) := machine.setKey key pressed
    ⟨.ok .done, updated, notices⟩

/-- The machine after a list of operations. -/
def after (machine : Machine) : List Command → Machine
  | [] => machine
  | command :: rest => (machine.perform command).machine.after rest

/-- A history can be cut anywhere. -/
theorem after_append (machine : Machine) (first second : List Command) :
    machine.after (first ++ second) = (machine.after first).after second := by
  induction first generalizing machine with
  | nil => rfl
  | cons command rest previous => exact previous _

end ChipEight.Machine
