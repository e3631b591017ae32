/-
This file proves that a run can be cut anywhere.

A run stops early at a cycle that is blocked or fails. What hides the stop is that a block lasts:
a cycle that is blocked leaves a machine that every further cycle finds blocked in the same way
and leaves alone. So a run that has not failed can be gone on with from the machine it left, and
comes to what one run of all the cycles comes to. An error is said only once, the cycles after it
say that the machine has stopped, and so a run that has failed is over.
-/

import ChipEight.Proofs.Stop

namespace ChipEight.Machine

section Cutting

variable {machine : Machine} {flow : Flow}

/-- A cycle that is blocked is blocked again, in the same way, and nothing has changed. -/
theorem cycle_again_of_isBlocked (ended : machine.cycle.result = .ok flow)
    (blocked : flow.isBlocked = true) :
    machine.cycle.machine.cycle = ⟨.ok flow, machine.cycle.machine, #[]⟩ := by
  cases machine.cycled with
  | stopped halted same =>
    rw [same] at ended ⊢
    cases ended
    exact machine.cycle_of_halted halted
  | waiting running waits same =>
    rw [same] at ended ⊢
    cases ended
    exact machine.cycle_of_awaiting running waits
  | unfetched _ _ _ same | refused _ _ _ _ same =>
    rw [same] at ended
    cases ended
  | executed running _ _ _ succeeded same =>
    rw [same] at ended ⊢
    obtain rfl := Except.ok.inj ended
    rw [flow_of_execute succeeded] at blocked ⊢
    obtain ⟨register, rfl⟩ := Instruction.exists_of_isBlocked_flow blocked
    cases succeeded
    exact cycle_of_awaiting _ running rfl

/-- A run that is gone on with for more cycles, unless it has failed. -/
def resume (outcome : Outcome Flow) (count : Nat) : Outcome Flow :=
  match outcome.result with
  | .error _ => outcome
  | .ok flow => runFrom flow outcome.notices count outcome.machine

/-- A run of two numbers of cycles is a run of the first, gone on with for the second. -/
theorem runFrom_add (last : Flow) (notices : Array Notice) (first second : Nat)
    (machine : Machine) :
    runFrom last notices (first + second) machine =
      resume (runFrom last notices first machine) second := by
  induction first generalizing last notices machine with
  | zero => rw [Nat.zero_add]; rfl
  | succ first previous =>
    rw [Nat.add_right_comm]
    cases ended : machine.cycle.result with
    | error cause =>
      rw [runFrom_of_error ended, runFrom_of_error ended]
      rfl
    | ok flow =>
      cases blocked : flow.isBlocked with
      | true =>
        have again := cycle_again_of_isBlocked ended blocked
        rw [runFrom_of_isBlocked ended blocked, runFrom_of_isBlocked ended blocked, resume]
        simp only [runFrom_of_cycle_eq again blocked, ite_self]
      | false =>
        rw [runFrom_of_not_isBlocked ended blocked, runFrom_of_not_isBlocked ended blocked,
          previous]

/-- What comes before a run shows in the notices, and in the answer if the run has no cycle. -/
theorem runFrom_eq_run (last : Flow) (notices : Array Notice) (count : Nat) (machine : Machine) :
    runFrom last notices count machine =
      ⟨if count = 0 then .ok last else (machine.run count).result,
        (machine.run count).machine, notices ++ (machine.run count).notices⟩ := by
  induction count generalizing last notices machine with
  | zero => rw [if_pos rfl, run, runFrom, runFrom, Array.append_empty]
  | succ count previous =>
    rw [if_neg (Nat.succ_ne_zero count), run]
    cases ended : machine.cycle.result with
    | error cause => simp only [runFrom_of_error ended, Array.empty_append]
    | ok flow =>
      cases blocked : flow.isBlocked with
      | true => simp only [runFrom_of_isBlocked ended blocked, Array.empty_append]
      | false =>
        simp only [runFrom_of_not_isBlocked ended blocked, Array.empty_append]
        rw [previous flow (notices ++ _), previous flow machine.cycle.notices]
        simp only [Array.append_assoc]

end Cutting

/-! ### Cutting a run -/

/-- A run leaves the machine that as many cycles leave which never stop early. A run that
succeeds can be gone on with: with more cycles it comes to what those come to on the machine it
left, and with none to what it came to itself. A run that fails is over: with more cycles it comes
to the same. -/
theorem run_can_be_cut (machine : Machine) (first second : Nat) :
    (machine.run first).machine = machine.cycles first ∧
    (∀ flow, (machine.run first).result = .ok flow →
      let rest := (machine.run first).machine.run second
      (machine.run (first + second)).result =
        (if second = 0 then .ok flow else rest.result) ∧
      (machine.run (first + second)).machine = rest.machine ∧
      (machine.run (first + second)).notices = (machine.run first).notices ++ rest.notices) ∧
    (∀ cause, (machine.run first).result = .error cause →
      machine.run (first + second) = machine.run first) := by
  have joined : machine.run (first + second) = resume (machine.run first) second :=
    runFrom_add .next #[] first second machine
  refine ⟨machine_runFrom, fun flow succeeded => ?_, fun cause failed => ?_⟩
  · have onward : machine.run (first + second) =
        runFrom flow (machine.run first).notices second (machine.run first).machine := by
      rw [joined, resume, succeeded]
    rw [onward, runFrom_eq_run]
    exact ⟨rfl, rfl, rfl⟩
  · rw [joined, resume, failed]

/-- A machine that loads a register and then meets a word that is no instruction. -/
def faltering : Machine :=
  { unloaded with memory := Memory.zero.overwrite 0x200 [0x60, 0x01] }

theorem cycle_faltering :
    faltering.cycle =
      ⟨.ok .next, faltering.advance.setRegister 0 1, #[.executing 0x200 0x6001]⟩ := by
  have written : faltering.word = 0x6001 :=
    word_of_written [0x60, 0x01] 0 rfl rfl (by decide) (by decide)
  have decoded : Instruction.decode faltering.word = some (.loadByte 0 1) := by
    rw [written]
    rfl
  rw [cycle_of_executed rfl rfl (by decide) decoded rfl, written]
  rfl

/-- A run can be cut before the cycle that fails, and is over after it. -/
theorem run_can_be_cut_faltering :
    (faltering.run 1).result = .ok .next ∧
      (faltering.run (1 + 1)).result = ((faltering.run 1).machine.run 1).result ∧
      (unloaded.run 1).result = .error (.unknownWord 0 0x200) ∧
      unloaded.run (1 + 3) = unloaded.run 1 := by
  have succeeds : (faltering.run 1).result = .ok .next := by
    have ended : faltering.cycle.result = .ok .next := by rw [cycle_faltering]
    rw [run, runFrom_of_not_isBlocked ended rfl]
    rfl
  have fails : (unloaded.run 1).result = .error (.unknownWord 0 0x200) := by
    rw [run, runFrom_of_error cycle_unloaded]
  exact ⟨succeeds, ((run_can_be_cut faltering 1 1).2.1 _ succeeds).1, fails,
    (run_can_be_cut unloaded 1 3).2.2 _ fails⟩

end ChipEight.Machine
