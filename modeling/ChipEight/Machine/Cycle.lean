/-
This file holds the cycle of the machine: fetch, decode and execute one
instruction, and runs of cycles.

A machine that has stopped, or that waits for a key, does nothing in a cycle and
says so. An error stops the machine for good: nothing but a load starts it again.
Apart from the stop, a failing instruction leaves one trace, the program counter,
which has moved past it; a word that could not be fetched leaves not even that.
-/

import ChipEight.Machine.Execute
import ChipEight.Word.Fetch

namespace ChipEight.Machine

def fetch (machine : Machine) : Except Error Word :=
  Word.fetch machine.memory.toArray machine.pc

/-- The machine stopped by an error, which is reported. -/
def stopOn (machine : Machine) (cause : Error) (notices : Array Notice) : Outcome Flow :=
  ⟨.error cause, { machine with halted := true }, notices.push (.halted cause)⟩

/-- Execute the instruction a word stands for, on a machine whose program counter is still
at it. -/
def dispatch (machine : Machine) (word : Word) : Except Error Step :=
  match Instruction.decode word with
  | some instruction => machine.advance.execute machine.pc instruction
  | none => .error (.unknownWord word machine.pc)

/-- Fetch and execute one instruction, if the machine is able to. -/
def cycle (machine : Machine) : Outcome Flow :=
  if machine.halted then ⟨.ok .halt, machine, #[]⟩
  else if machine.awaiting.isSome then ⟨.ok .keyWait, machine, #[]⟩
  else
    match machine.fetch with
    | .error cause => machine.stopOn cause #[]
    | .ok word =>
      match machine.dispatch word with
      | .error cause => machine.advance.stopOn cause #[.executing machine.pc word]
      | .ok step => ⟨.ok step.flow, step.machine, #[.executing machine.pc word] ++ step.notices⟩

/-- A machine that has stopped does nothing in a cycle. -/
theorem cycle_of_halted (machine : Machine) (stopped : machine.halted = true) :
    machine.cycle = ⟨.ok .halt, machine, #[]⟩ := by
  rw [cycle, if_pos stopped]

/-- A machine that waits for a key does nothing in a cycle. -/
theorem cycle_of_awaiting (machine : Machine) (running : machine.halted = false)
    {register : Register} (waiting : machine.awaiting = some register) :
    machine.cycle = ⟨.ok .keyWait, machine, #[]⟩ := by
  rw [cycle, if_neg (by rw [running]; exact Bool.false_ne_true),
    if_pos (by rw [waiting]; rfl)]

/-- Cycles up to a number of them, from a machine whose last cycle ended in the given way and
with the notices so far. A cycle that is blocked or fails is the last. -/
def runFrom (last : Flow) (notices : Array Notice) : Nat → Machine → Outcome Flow
  | 0, machine => ⟨.ok last, machine, notices⟩
  | count + 1, machine =>
    let outcome := machine.cycle
    let notices := notices ++ outcome.notices
    match outcome.result with
    | .error cause => ⟨.error cause, outcome.machine, notices⟩
    | .ok flow =>
      if flow.isBlocked then ⟨.ok flow, outcome.machine, notices⟩
      else runFrom flow notices count outcome.machine

/-- Cycles up to a number of them. No cycle at all ends like an ordinary instruction. -/
def run (machine : Machine) (count : Nat) : Outcome Flow := runFrom .next #[] count machine

end ChipEight.Machine
