/-
This file says once what executing an instruction can do, so that no later proof
opens `execute` again.

Three questions come up everywhere. Whether an instruction is refused, and with
which error, depends on the instruction, the call stack and the index register
alone. How the cycle ends depends on the instruction alone. And of the parts that
steer execution -- the program counter, the call stack, the wait for a key and the
stop -- each is changed by few instructions and in one way.
-/

import ChipEight.Machine.Execute

namespace ChipEight

/-! ### How an instruction ends -/

namespace Instruction

/-- How a cycle that executes an instruction ends. -/
def flow : Instruction → Flow
  | clearScreen | draw _ _ _ => .draw
  | leave | jump _ | call _ | jumpOffset _ => .jump
  | awaitKey _ => .keyWait
  | _ => .next

/-- Waiting for a key is the one instruction that blocks. -/
theorem exists_of_isBlocked_flow {instruction : Instruction}
    (blocked : instruction.flow.isBlocked = true) :
    ∃ register, instruction = awaitKey register := by
  cases instruction with
  | awaitKey register => exact ⟨register, rfl⟩
  | _ => contradiction

/-- What an instruction that succeeds reports: the one that waits for a key says so. -/
def notices : Instruction → Array Notice
  | awaitKey x => #[.waitingForKey x]
  | _ => #[]

/-- The number of bytes that an instruction needs from the index register on, if it needs
memory. -/
def span? : Instruction → Option Nat
  | draw _ _ height => some height
  | storeDecimal _ => some 3
  | storeRegisters x | readRegisters x => some (x + 1)
  | _ => none

end Instruction

namespace Machine

/-- The error of an instruction at `pc` that a machine refuses. -/
def refusal? (machine : Machine) (pc : Nat) (instruction : Instruction) : Option Error :=
  match instruction, instruction.span? with
  | .leave, _ =>
    if machine.stack.depth = 0 then some (.outOfBounds .stackUnderflow 0 pc) else none
  | .call _, _ =>
    if machine.stack.depth < stackSize then none
    else some (.outOfBounds .stackOverflow machine.stack.depth pc)
  | _, some length =>
    if machine.index.toNat + length ≤ memorySize then none
    else some (.outOfBounds .memory (machine.index.toNat + length - 1) pc)
  | _, none => none

/-- An instruction either is refused or ends the way it always does. -/
theorem map_flow_execute (machine : Machine) (pc : Nat) (instruction : Instruction) :
    (machine.execute pc instruction).map Step.flow =
      match machine.refusal? pc instruction with
      | some cause => .error cause
      | none => .ok instruction.flow := by
  cases instruction with
  | leave =>
    cases depth : machine.stack.depth with
    | zero => simp [execute, refusal?, CallStack.pop?, depth, Except.map]
    | succ depth => simp [execute, refusal?, CallStack.pop?, Instruction.flow, depth, Except.map]
  | call target =>
    by_cases free : machine.stack.depth < stackSize <;>
      simp [execute, refusal?, CallStack.push?, Instruction.flow, free, Except.map]
  | draw x y height =>
    by_cases fits : machine.index.toNat + height.val ≤ memorySize <;>
      simp [execute, refusal?, checkRange, Instruction.span?, Instruction.flow, fits, Except.map]
  | storeDecimal x =>
    by_cases fits : machine.index.toNat + 3 ≤ memorySize <;>
      simp [execute, refusal?, checkRange, Instruction.span?, Instruction.flow, fits, Except.map]
  | storeRegisters x | readRegisters x =>
    by_cases fits : machine.index.toNat + (x.val + 1) ≤ memorySize <;>
      simp [execute, refusal?, checkRange, Instruction.span?, Instruction.flow, fits, Except.map]
  | _ => rfl

/-- An instruction that is refused fails with the error of the refusal. -/
theorem execute_eq_error_iff (machine : Machine) (pc : Nat) (instruction : Instruction)
    (cause : Error) :
    machine.execute pc instruction = .error cause ↔
      machine.refusal? pc instruction = some cause := by
  have ending := machine.map_flow_execute pc instruction
  cases refused : machine.refusal? pc instruction <;>
    cases executed : machine.execute pc instruction <;>
    simp_all [Except.map]

/-- An instruction that succeeds ends the way it always does. -/
theorem flow_of_execute {machine : Machine} {pc : Nat} {instruction : Instruction} {step : Step}
    (executed : machine.execute pc instruction = .ok step) : step.flow = instruction.flow := by
  have ending := machine.map_flow_execute pc instruction
  rw [executed] at ending
  cases refused : machine.refusal? pc instruction with
  | none =>
    rw [refused] at ending
    exact Except.ok.inj ending
  | some cause =>
    rw [refused] at ending
    cases ending

/-- A refusal is about the call stack or about memory, never about a fetch, and names the
instruction. -/
theorem refusal?_eq_some {machine : Machine} {pc : Nat} {instruction : Instruction}
    {cause : Error} (refused : machine.refusal? pc instruction = some cause) :
    ∃ access address, access ≠ .fetch ∧ cause = .outOfBounds access address pc := by
  unfold refusal? at refused
  split at refused
  case h_1 =>
    obtain ⟨-, same⟩ := Option.ite_none_right_eq_some.mp refused
    exact ⟨.stackUnderflow, _, by decide, (Option.some_inj.mp same).symm⟩
  case h_2 =>
    obtain ⟨-, same⟩ := Option.ite_none_left_eq_some.mp refused
    exact ⟨.stackOverflow, _, by decide, (Option.some_inj.mp same).symm⟩
  case h_3 =>
    obtain ⟨-, same⟩ := Option.ite_none_left_eq_some.mp refused
    exact ⟨.memory, _, by decide, (Option.some_inj.mp same).symm⟩
  case h_4 => contradiction

/-! ### What steers execution -/

/-- What an instruction that succeeds does to the parts of a machine that steer execution: the
program counter, the call stack, the wait for a key and the stop. -/
inductive Steered (machine : Machine) (instruction : Instruction) (after : Machine) : Prop
  | leave {address : UInt16} {stack : CallStack} (same : instruction = .leave)
      (popped : machine.stack.pop? = some (address, stack))
      (result : after = { machine with stack := stack, pc := address.toNat })
  | call {target : Fin 4096} {stack : CallStack} (same : instruction = .call target)
      (pushed : machine.stack.push? (UInt16.ofNat machine.pc) = some stack)
      (result : after = { machine with stack := stack, pc := target })
  | awaitKey {register : Register} (same : instruction = .awaitKey register)
      (result : after = { machine with awaiting := some register })
  | other (notLeave : instruction ≠ .leave) (notCall : ∀ target, instruction ≠ .call target)
      (stack : after.stack = machine.stack) (awaiting : after.awaiting = machine.awaiting)
      (halted : after.halted = machine.halted)
      (near : after.pc ≤ machine.pc + 2 ∨ after.pc ≤ 255 + 4095)

section Steering

variable {machine : Machine} {pc length : Nat} {instruction : Instruction} {step : Step}

theorem checkRange_eq_ok_iff {action : Unit → Step} :
    machine.checkRange length pc action = .ok step ↔
      machine.index.toNat + length ≤ memorySize ∧ action () = step := by
  unfold checkRange
  split
  case isTrue fits => simp [fits]
  case isFalse beyond => simp [beyond]

/-- A skip moves the program counter and nothing else. -/
theorem skipIf_eq (machine : Machine) (condition : Bool) :
    machine.skipIf condition = { machine with pc := machine.pc + if condition then 2 else 0 } := by
  cases condition <;> rfl

theorem steered_skipIf (condition : Bool) (notLeave : instruction ≠ .leave)
    (notCall : ∀ target, instruction ≠ .call target) :
    Steered machine instruction (machine.skipIf condition) := by
  rw [skipIf_eq]
  refine .other notLeave notCall rfl rfl rfl (.inl ?_)
  cases condition <;> simp

/-- Every instruction that succeeds steers in one of these ways. -/
theorem steered_of_execute (executed : machine.execute pc instruction = .ok step) :
    Steered machine instruction step.machine := by
  cases instruction with
  | leave =>
    simp only [execute] at executed
    split at executed
    case h_1 popped => cases executed; exact .leave rfl popped rfl
    case h_2 => contradiction
  | call target =>
    simp only [execute] at executed
    split at executed
    case h_1 pushed => cases executed; exact .call rfl pushed rfl
    case h_2 => contradiction
  | awaitKey register => cases executed; exact .awaitKey rfl rfl
  | jump target =>
    cases executed
    exact .other nofun nofun rfl rfl rfl (.inr (by simp only [goTo]; omega))
  | jumpOffset base =>
    cases executed
    have offset := (machine.registers.read Register.offset).toNat_lt
    exact .other nofun nofun rfl rfl rfl (.inr (by simp only [goTo]; omega))
  | skipIfByte | skipUnlessByte | skipIfSame | skipUnlessSame | skipIfKey | skipUnlessKey =>
    cases executed
    exact steered_skipIf _ nofun nofun
  | draw | storeDecimal | storeRegisters | readRegisters =>
    simp only [execute, checkRange_eq_ok_iff, withRegisters] at executed
    obtain ⟨-, rfl⟩ := executed
    exact .other nofun nofun rfl rfl rfl (.inl (Nat.le_add_right machine.pc 2))
  | _ =>
    cases executed
    exact .other nofun nofun rfl rfl rfl (.inl (Nat.le_add_right machine.pc 2))

theorem notices_of_execute (executed : machine.execute pc instruction = .ok step) :
    step.notices = instruction.notices := by
  cases instruction with
  | leave | call =>
    simp only [execute] at executed
    split at executed
    · cases executed
      rfl
    · contradiction
  | draw | storeDecimal | storeRegisters | readRegisters =>
    simp only [execute, checkRange_eq_ok_iff] at executed
    obtain ⟨-, rfl⟩ := executed
    rfl
  | _ =>
    cases executed
    rfl

/-- No instruction that succeeds stops the machine or starts it again. -/
theorem Steered.halted_eq {after : Machine} (steered : Steered machine instruction after) :
    after.halted = machine.halted := by
  cases steered with
  | leave _ _ result | call _ _ result => rw [result]
  | awaitKey _ result => rw [result]
  | other _ _ _ _ halted => exact halted

end Steering

end Machine

end ChipEight
