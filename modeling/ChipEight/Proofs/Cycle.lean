/-
This file says once what a cycle can do, and that a run is nothing but cycles.

A cycle ends in one of five ways: the machine has stopped, it waits for a key, its
word cannot be fetched, its word is refused, or an instruction is executed. After
an error, and after a wait has begun, the machine is idle, and cycles of an idle
machine change nothing. So although a run stops early at either, it leaves the
machine that the full number of cycles would leave.
-/

import ChipEight.Machine.Cycle
import ChipEight.Proofs.Execution

namespace ChipEight.Machine

/-! ### Fetching and dispatching -/

/-- The word at the program counter, its high byte first. -/
def word (machine : Machine) : Word :=
  Word.ofBytes (machine.memory.read machine.pc) (machine.memory.read (machine.pc + 1))

/-- Where bytes were written that fit, the word is two of them. -/
theorem word_of_written {machine : Machine} {memory : Memory} {start : Nat}
    (bytes : List UInt8) (offset : Nat) (written : machine.memory = memory.overwrite start bytes)
    (place : machine.pc = start + offset) (inside : offset + 1 < bytes.length)
    (fits : start + bytes.length ≤ memorySize) :
    machine.word = Word.ofBytes bytes[offset] bytes[offset + 1] := by
  rw [word, written, place, Nat.add_assoc,
    Memory.read_overwrite_self memory start offset bytes (by omega) fits,
    Memory.read_overwrite_self memory start (offset + 1) bytes inside fits]

/-- A fetch reads the word at the program counter unless a part of it lies beyond memory. -/
theorem fetch_eq (machine : Machine) :
    machine.fetch =
      if machine.pc ≤ 0xFFE then .ok machine.word
      else .error (.outOfBounds .fetch machine.pc machine.pc) := by
  unfold fetch Word.fetch
  by_cases inside : machine.pc ≤ 0xFFE
  · have first : machine.pc < memorySize := by unfold memorySize; omega
    have second : machine.pc + 1 < memorySize := by unfold memorySize; omega
    simp [inside, first, second, word, Memory.read]
  · have second : ¬ machine.pc + 1 < memorySize := by unfold memorySize; omega
    simp [inside, second]

/-- A dispatch succeeds by executing the instruction that the word decodes to. -/
theorem dispatch_eq_ok {machine : Machine} {word : Word} {step : Step}
    (succeeded : machine.dispatch word = .ok step) :
    ∃ instruction, Instruction.decode word = some instruction ∧
      machine.advance.execute machine.pc instruction = .ok step := by
  unfold dispatch at succeeded
  split at succeeded
  case h_1 instruction decoded => exact ⟨instruction, decoded, succeeded⟩
  case h_2 => contradiction

/-- A dispatch fails because the word is no instruction, or with a refusal. -/
theorem dispatch_eq_error {machine : Machine} {word : Word} {cause : Error}
    (failed : machine.dispatch word = .error cause) :
    cause = .unknownWord word machine.pc ∨
      ∃ access address, access ≠ .fetch ∧ cause = .outOfBounds access address machine.pc := by
  unfold dispatch at failed
  split at failed
  case h_1 instruction _ =>
    have refused := (execute_eq_error_iff _ _ _ _).mp failed
    exact .inr (refusal?_eq_some refused)
  case h_2 =>
    cases failed
    exact .inl rfl

/-! ### The five ways a cycle ends -/

/-- How a cycle of a machine came to its outcome. -/
inductive Cycled (machine : Machine) (outcome : Outcome Flow) : Prop
  | stopped (halted : machine.halted = true) (same : outcome = ⟨.ok .halt, machine, #[]⟩)
  | waiting {register : Register} (running : machine.halted = false)
      (waits : machine.awaiting = some register) (same : outcome = ⟨.ok .keyWait, machine, #[]⟩)
  | unfetched (running : machine.halted = false) (awake : machine.awaiting = none)
      (beyond : 0xFFE < machine.pc)
      (same : outcome = machine.stopOn (.outOfBounds .fetch machine.pc machine.pc) #[])
  | refused {cause : Error} (running : machine.halted = false) (awake : machine.awaiting = none)
      (inside : machine.pc ≤ 0xFFE) (failed : machine.dispatch machine.word = .error cause)
      (same : outcome = machine.advance.stopOn cause #[.executing machine.pc machine.word])
  | executed {instruction : Instruction} {step : Step} (running : machine.halted = false)
      (awake : machine.awaiting = none) (inside : machine.pc ≤ 0xFFE)
      (decoded : Instruction.decode machine.word = some instruction)
      (succeeded : machine.advance.execute machine.pc instruction = .ok step)
      (same : outcome =
        ⟨.ok step.flow, step.machine, #[.executing machine.pc machine.word] ++ step.notices⟩)

theorem cycled (machine : Machine) : Cycled machine machine.cycle := by
  cases halted : machine.halted with
  | true => exact .stopped halted (machine.cycle_of_halted halted)
  | false =>
    cases awaiting : machine.awaiting with
    | some register => exact .waiting halted awaiting (machine.cycle_of_awaiting halted awaiting)
    | none =>
      have runs : ¬ machine.halted = true := by rw [halted]; exact Bool.false_ne_true
      have wakes : ¬ machine.awaiting.isSome = true := by rw [awaiting]; exact Bool.false_ne_true
      by_cases inside : machine.pc ≤ 0xFFE
      case neg =>
        refine .unfetched halted awaiting (by omega) ?_
        rw [cycle, if_neg runs, if_neg wakes, fetch_eq, if_neg inside]
      case pos =>
        cases dispatched : machine.dispatch machine.word with
        | error cause =>
          refine .refused halted awaiting inside dispatched ?_
          rw [cycle, if_neg runs, if_neg wakes, fetch_eq, if_pos inside]
          simp only [dispatched]
        | ok step =>
          obtain ⟨instruction, decoded, succeeded⟩ := dispatch_eq_ok dispatched
          refine .executed halted awaiting inside decoded succeeded ?_
          rw [cycle, if_neg runs, if_neg wakes, fetch_eq, if_pos inside]
          simp only [dispatched]

/-- A machine whose next cycle dispatches the word at its program counter: it has neither stopped
nor waits for a key, and the word lies in memory. -/
structure CanFetch (machine : Machine) : Prop where
  running : machine.halted = false
  awake : machine.awaiting = none
  inside : machine.pc ≤ 0xFFE

/-- A machine that is able to executes the instruction at its program counter in a cycle. -/
theorem cycle_of_executed {machine : Machine} {instruction : Instruction} {step : Step}
    (running : machine.halted = false) (awake : machine.awaiting = none)
    (inside : machine.pc ≤ 0xFFE) (decoded : Instruction.decode machine.word = some instruction)
    (succeeded : machine.advance.execute machine.pc instruction = .ok step) :
    machine.cycle =
      ⟨.ok step.flow, step.machine, #[.executing machine.pc machine.word] ++ step.notices⟩ := by
  have dispatched : machine.dispatch machine.word = .ok step := by
    rw [dispatch, decoded]
    exact succeeded
  rw [cycle, if_neg (by rw [running]; exact Bool.false_ne_true),
    if_neg (by rw [awake]; exact Bool.false_ne_true), fetch_eq, if_pos inside]
  simp only [dispatched]

/-! ### Idle machines -/

/-- Whether a machine does nothing in a cycle: it has stopped or waits for a key. -/
def IsIdle (machine : Machine) : Prop := machine.halted = true ∨ machine.awaiting.isSome = true

/-- An idle machine is as it was after a cycle, which succeeds and is blocked. -/
theorem cycle_of_isIdle {machine : Machine} (idle : machine.IsIdle) :
    machine.cycle.machine = machine ∧
      ∃ flow, machine.cycle.result = .ok flow ∧ flow.isBlocked = true := by
  cases machine.cycled with
  | stopped _ same => rw [same]; exact ⟨rfl, .halt, rfl, rfl⟩
  | waiting _ _ same => rw [same]; exact ⟨rfl, .keyWait, rfl, rfl⟩
  | unfetched running awake | refused running awake | executed running awake =>
    rw [IsIdle, running, awake] at idle
    simp at idle

/-- An error stops the machine. -/
theorem halted_of_cycle_eq_error {machine : Machine} {cause : Error}
    (failed : machine.cycle.result = .error cause) : machine.cycle.machine.halted = true := by
  cases machine.cycled with
  | stopped _ same | waiting _ _ same | executed _ _ _ _ _ same =>
    rw [same] at failed
    cases failed
  | unfetched _ _ _ same | refused _ _ _ _ same => rw [same]; rfl

/-- A cycle that is blocked leaves an idle machine. -/
theorem isIdle_of_isBlocked {machine : Machine} {flow : Flow}
    (ended : machine.cycle.result = .ok flow) (blocked : flow.isBlocked = true) :
    machine.cycle.machine.IsIdle := by
  cases machine.cycled with
  | stopped halted same => rw [same]; exact .inl halted
  | waiting _ waits same => rw [same]; exact .inr (by rw [waits]; rfl)
  | unfetched _ _ _ same | refused _ _ _ _ same =>
    rw [same] at ended
    cases ended
  | executed _ _ _ _ succeeded same =>
    rw [same] at ended ⊢
    obtain rfl := Except.ok.inj ended
    rw [flow_of_execute succeeded] at blocked
    obtain ⟨register, rfl⟩ := Instruction.exists_of_isBlocked_flow blocked
    cases succeeded
    exact .inr rfl

/-! ### Runs are cycles -/

/-- The machine after a number of cycles. -/
def cycles : Nat → Machine → Machine
  | 0, machine => machine
  | count + 1, machine => cycles count machine.cycle.machine

theorem cycles_of_isIdle {machine : Machine} (idle : machine.IsIdle) (count : Nat) :
    machine.cycles count = machine := by
  induction count with
  | zero => rfl
  | succ count previous => rw [cycles, (cycle_of_isIdle idle).1, previous]

section Runs

variable {machine : Machine} {last flow : Flow} {notices : Array Notice} {count : Nat}
  {cause : Error}

theorem runFrom_of_error (failed : machine.cycle.result = .error cause) :
    runFrom last notices (count + 1) machine =
      ⟨.error cause, machine.cycle.machine, notices ++ machine.cycle.notices⟩ := by
  simp only [runFrom, failed]

theorem runFrom_of_isBlocked (ended : machine.cycle.result = .ok flow)
    (blocked : flow.isBlocked = true) :
    runFrom last notices (count + 1) machine =
      ⟨.ok flow, machine.cycle.machine, notices ++ machine.cycle.notices⟩ := by
  simp only [runFrom, ended, blocked, if_true]

theorem runFrom_of_not_isBlocked (ended : machine.cycle.result = .ok flow)
    (free : flow.isBlocked = false) :
    runFrom last notices (count + 1) machine =
      runFrom flow (notices ++ machine.cycle.notices) count machine.cycle.machine := by
  simp only [runFrom, ended, free, Bool.false_eq_true, if_false]

/-- A run leaves the machine that the full number of cycles leaves: where it stops early the
machine is idle. -/
theorem machine_runFrom :
    (runFrom last notices count machine).machine = machine.cycles count := by
  induction count generalizing last notices machine with
  | zero => rfl
  | succ count previous =>
    rw [cycles]
    cases ended : machine.cycle.result with
    | error cause =>
      have idle : machine.cycle.machine.IsIdle := .inl (halted_of_cycle_eq_error ended)
      rw [runFrom_of_error ended, cycles_of_isIdle idle]
    | ok flow =>
      cases blocked : flow.isBlocked with
      | true =>
        rw [runFrom_of_isBlocked ended blocked,
          cycles_of_isIdle (isIdle_of_isBlocked ended blocked)]
      | false => rw [runFrom_of_not_isBlocked ended blocked, previous]

/-- A run that fails does so in one of its cycles, with the error and the machine of that
cycle, and no cycle before it fails. -/
theorem runFrom_eq_error (failed : (runFrom last notices count machine).result = .error cause) :
    ∃ before, before < count ∧ (machine.cycles before).cycle.result = .error cause ∧
      (runFrom last notices count machine).machine = (machine.cycles before).cycle.machine ∧
      ∀ earlier, earlier < before → ∃ flow, (machine.cycles earlier).cycle.result = .ok flow := by
  induction count generalizing last notices machine with
  | zero => cases failed
  | succ count previous =>
    cases ended : machine.cycle.result with
    | error first =>
      rw [runFrom_of_error ended] at failed ⊢
      cases failed
      exact ⟨0, Nat.succ_pos count, ended, rfl, nofun⟩
    | ok flow =>
      cases blocked : flow.isBlocked with
      | true =>
        rw [runFrom_of_isBlocked ended blocked] at failed
        cases failed
      | false =>
        rw [runFrom_of_not_isBlocked ended blocked] at failed ⊢
        obtain ⟨before, within, fails, same, succeeded⟩ := previous failed
        refine ⟨before + 1, by omega, fails, same, fun earlier less => ?_⟩
        cases earlier with
        | zero => exact ⟨flow, ended⟩
        | succ earlier => exact succeeded earlier (by omega)

end Runs

end ChipEight.Machine
