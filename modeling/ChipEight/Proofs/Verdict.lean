/-
This file says exactly what one cycle answers on a machine that is neither stopped
nor waiting, in terms of the word at the program counter, the depth of the call
stack and the index register.

The answer is read off the way the word is written. A word that cannot be fetched
or fits no pattern is an error of its own; a call on a full stack, a return on an
empty one and a run of bytes past the end of memory are the three refusals; every
other cycle succeeds, and its flow depends on the word alone.
-/

import ChipEight.Proofs.Cycle
import ChipEight.Proofs.Pattern

namespace ChipEight

/-! ### Reading the answer off a word -/

namespace Word

/-- How a cycle that succeeds with a word ends. -/
def flow (word : Word) : Flow :=
  if word.fitsAny ["00EE", "1NNN", "2NNN", "BNNN"] then .jump
  else if word.fitsAny ["00E0", "DXYN"] then .draw
  else if word.fits "FX0A" then .keyWait
  else .next

/-- The number of bytes that a word needs from the index register on, if it needs memory. -/
def span? (word : Word) : Option Nat :=
  if word.fits "DXYN" then some word.n
  else if word.fits "FX33" then some 3
  else if word.fitsAny ["FX55", "FX65"] then some (word.x + 1)
  else none

variable {word : Word} {instruction : Instruction}

theorem flow_of_decode (decoded : Instruction.decode word = some instruction) :
    word.flow = instruction.flow := by
  unfold flow
  rw [Instruction.fitsAny_eq_of_decode decoded (by decide),
    Instruction.fitsAny_eq_of_decode decoded (by decide),
    Instruction.fits_eq_of_decode decoded (by decide)]
  cases instruction with
  | combine operation x y => cases operation <;> rfl
  | _ => rfl

theorem span?_of_decode (decoded : Instruction.decode word = some instruction) :
    word.span? = instruction.span? := by
  have carried := Instruction.carries_of_decode decoded
  unfold span?
  rw [Instruction.fits_eq_of_decode decoded (by decide),
    Instruction.fits_eq_of_decode decoded (by decide),
    Instruction.fitsAny_eq_of_decode decoded (by decide)]
  cases instruction with
  | combine operation x y => cases operation <;> rfl
  | draw x y height => rw [← carried.2.2]; rfl
  | storeRegisters x | readRegisters x => rw [← carried]; rfl
  | _ => rfl

end Word

/-! ### The refusals of an instruction -/

namespace Machine

section Refusals

variable (machine : Machine) (pc : Nat) (instruction : Instruction)

theorem refusal?_eq_stackOverflow_iff (bounded : machine.stack.depth ≤ stackSize) :
    machine.refusal? pc instruction = some (.outOfBounds .stackOverflow 16 pc) ↔
      (∃ target, instruction = .call target) ∧ machine.stack.depth = 16 := by
  cases instruction with
  | call target =>
    rcases Nat.lt_or_eq_of_le bounded with free | full
    · have room : machine.stack.depth ≠ 16 := Nat.ne_of_lt free
      simp [refusal?, free, room]
    · simp [refusal?, full, stackSize]
  | _ => simp [refusal?, Instruction.span?]

theorem refusal?_eq_stackUnderflow_iff :
    machine.refusal? pc instruction = some (.outOfBounds .stackUnderflow 0 pc) ↔
      instruction = .leave ∧ machine.stack.depth = 0 := by
  cases instruction <;> simp [refusal?, Instruction.span?]

theorem refusal?_eq_memory_iff (address : Nat) :
    machine.refusal? pc instruction = some (.outOfBounds .memory address pc) ↔
      ∃ length, instruction.span? = some length ∧ memorySize < machine.index.toNat + length ∧
        address = machine.index.toNat + length - 1 := by
  cases instruction <;> simp [refusal?, Instruction.span?] <;> omega

/-- A machine refuses an instruction in no other case than these three. -/
theorem refusal?_eq_none_iff (bounded : machine.stack.depth ≤ stackSize) :
    machine.refusal? pc instruction = none ↔
      ¬ ((∃ target, instruction = .call target) ∧ machine.stack.depth = 16) ∧
      ¬ (instruction = .leave ∧ machine.stack.depth = 0) ∧
      ¬ ∃ length, instruction.span? = some length ∧
        memorySize < machine.index.toNat + length := by
  cases instruction with
  | call target =>
    rcases Nat.lt_or_eq_of_le bounded with free | full
    · have room : machine.stack.depth ≠ 16 := Nat.ne_of_lt free
      simp [refusal?, Instruction.span?, free, room]
    · simp [refusal?, full, stackSize]
  | _ => simp [refusal?, Instruction.span?]

end Refusals

end Machine

/-! ### The answer of a cycle -/

namespace Machine

/-- A machine that is able to executes the word at its program counter in a cycle. -/
theorem cycle_result_of_ready (machine : Machine) (running : machine.halted = false)
    (awake : machine.awaiting = none) :
    machine.cycle.result =
      machine.fetch.bind fun word => (machine.dispatch word).map Step.flow := by
  unfold cycle
  rw [running, awake]
  cases machine.fetch with
  | error cause => rfl
  | ok word =>
    cases executed : machine.dispatch word <;> simp [executed, stopOn, Except.bind, Except.map]

/-- The answer to a word that is no instruction. -/
theorem dispatch_of_not_isInstruction (machine : Machine) {word : Word}
    (data : word.isInstruction = false) :
    machine.dispatch word = .error (.unknownWord word machine.pc) := by
  unfold dispatch
  cases decoded : Instruction.decode word with
  | none => rfl
  | some instruction =>
    rw [Instruction.isInstruction_iff.mpr ⟨instruction, decoded⟩] at data
    contradiction

/-- The answer to a word that decodes: its instruction is refused or ends as it always does. -/
theorem map_flow_dispatch (machine : Machine) {word : Word} {instruction : Instruction}
    (decoded : Instruction.decode word = some instruction) :
    (machine.dispatch word).map Step.flow =
      match machine.refusal? machine.pc instruction with
      | some cause => .error cause
      | none => .ok instruction.flow := by
  unfold dispatch
  rw [decoded]
  exact machine.advance.map_flow_execute machine.pc instruction

/-- A cycle whose word decodes fails exactly with the refusal of the instruction. -/
theorem map_flow_dispatch_eq_error_iff (machine : Machine) {word : Word}
    {instruction : Instruction} (decoded : Instruction.decode word = some instruction)
    (cause : Error) :
    (machine.dispatch word).map Step.flow = .error cause ↔
      machine.refusal? machine.pc instruction = some cause := by
  rw [map_flow_dispatch machine decoded]
  cases machine.refusal? machine.pc instruction <;> simp

/-- One cycle of a machine that is neither stopped nor waiting. The word at the program
counter, how it is written, the depth of the call stack and the index register decide
everything about its answer. -/
theorem cycle_result_iff (machine : Machine) (running : machine.halted = false)
    (awake : machine.awaiting = none) (bounded : machine.stack.depth ≤ stackSize) :
    (machine.cycle.result = .error (.outOfBounds .fetch machine.pc machine.pc) ↔
      0xFFE < machine.pc) ∧
    (machine.pc ≤ 0xFFE →
      (machine.cycle.result = .error (.unknownWord machine.word machine.pc) ↔
        machine.word.isInstruction = false) ∧
      (machine.word.isInstruction = true →
        (machine.cycle.result = .error (.outOfBounds .stackOverflow 16 machine.pc) ↔
          machine.word.fits "2NNN" = true ∧ machine.stack.depth = 16) ∧
        (machine.cycle.result = .error (.outOfBounds .stackUnderflow 0 machine.pc) ↔
          machine.word.fits "00EE" = true ∧ machine.stack.depth = 0) ∧
        (∀ address, machine.cycle.result = .error (.outOfBounds .memory address machine.pc) ↔
          ∃ length, machine.word.span? = some length ∧ 4096 < machine.index.toNat + length ∧
            address = machine.index.toNat + length - 1) ∧
        (¬ (machine.word.fits "2NNN" = true ∧ machine.stack.depth = 16) →
          ¬ (machine.word.fits "00EE" = true ∧ machine.stack.depth = 0) →
          (¬ ∃ length, machine.word.span? = some length ∧
            4096 < machine.index.toNat + length) →
          machine.cycle.result = .ok machine.word.flow))) := by
  have answer := machine.cycle_result_of_ready running awake
  rw [fetch_eq] at answer
  by_cases inside : machine.pc ≤ 0xFFE
  case neg =>
    rw [if_neg inside] at answer
    exact ⟨iff_of_true answer (by omega), fun within => absurd within inside⟩
  case pos =>
    rw [if_pos inside] at answer
    replace answer : machine.cycle.result = (machine.dispatch machine.word).map Step.flow := answer
    rw [answer]
    cases written : machine.word.isInstruction with
    | false =>
      rw [machine.dispatch_of_not_isInstruction written]
      refine ⟨iff_of_false ?_ (by omega), fun _ => ⟨iff_of_true rfl rfl, fun impossible => ?_⟩⟩
      · simp [Except.map]
      · contradiction
    | true =>
      obtain ⟨instruction, decoded⟩ := Instruction.isInstruction_iff.mp written
      have elsewhere {cause : Error}
          (failed : (machine.dispatch machine.word).map Step.flow = .error cause) :
          ∃ access address, access ≠ .fetch ∧ cause = .outOfBounds access address machine.pc :=
        refusal?_eq_some ((machine.map_flow_dispatch_eq_error_iff decoded cause).mp failed)
      refine ⟨iff_of_false ?_ (by omega), fun _ => ⟨iff_of_false ?_ (by decide), fun _ => ?_⟩⟩
      · intro failed
        obtain ⟨access, address, notFetch, same⟩ := elsewhere failed
        cases same
        exact notFetch rfl
      · intro failed
        obtain ⟨access, address, _, same⟩ := elsewhere failed
        cases same
      · rw [Instruction.fits_eq_of_decode decoded (by decide),
          Instruction.fits_eq_of_decode decoded (by decide), Word.span?_of_decode decoded,
          Word.flow_of_decode decoded, decide_eq_true_iff, decide_eq_true_iff,
          Instruction.pattern_eq_call_iff, Instruction.pattern_eq_leave_iff]
        refine ⟨?_, ?_, fun address => ?_, fun room open_ inMemory => ?_⟩
        · rw [machine.map_flow_dispatch_eq_error_iff decoded]
          exact machine.refusal?_eq_stackOverflow_iff _ _ bounded
        · rw [machine.map_flow_dispatch_eq_error_iff decoded]
          exact machine.refusal?_eq_stackUnderflow_iff _ _
        · rw [machine.map_flow_dispatch_eq_error_iff decoded]
          exact machine.refusal?_eq_memory_iff _ _ address
        · rw [machine.map_flow_dispatch decoded,
            (machine.refusal?_eq_none_iff machine.pc instruction bounded).mpr
              ⟨room, open_, inMemory⟩]

/-- A machine with a call in the last word of memory and no slot left on the stack. -/
def lastCall : Machine :=
  { blank {} (RandomSource.start fun _ => 0) with
    pc := 0xFFE
    memory := Memory.zero.overwrite 0xFFE [0x22, 0x00]
    stack := ⟨Vector.replicate stackSize 0x202, stackSize⟩ }

theorem word_lastCall : lastCall.word = 0x2200 :=
  word_of_written [0x22, 0x00] 0 rfl rfl (by decide) (by decide)

theorem cycle_result_iff_lastCall :
    lastCall.halted = false ∧ lastCall.awaiting = none ∧ lastCall.stack.depth ≤ stackSize ∧
      lastCall.cycle.result = .error (.outOfBounds .stackOverflow 16 0xFFE) := by
  have written : lastCall.word.isInstruction = true := by rw [word_lastCall]; decide
  have call : lastCall.word.fits "2NNN" = true := by rw [word_lastCall]; decide
  have answer := cycle_result_iff lastCall rfl rfl (Nat.le_refl _)
  exact ⟨rfl, rfl, Nat.le_refl _, ((answer.2 (Nat.le_refl _)).2 written).1.mpr ⟨call, rfl⟩⟩

end Machine

end ChipEight
