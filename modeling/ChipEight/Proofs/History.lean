/-
This file writes histories out. A run is nothing but cycles, so a history leads to
the same machine when every run in it is replaced by as many cycles, and whatever
each single operation preserves is preserved by the whole history.
-/

import ChipEight.Machine.Command
import ChipEight.Proofs.Cycle

namespace ChipEight.Machine

/-- An operation as single steps: a run is as many cycles, anything else is itself. -/
def Command.unrolled : Command → List Command
  | .run count => List.replicate count .cycle
  | command => [command]

/-- A history with its runs written out. -/
def unroll (commands : List Command) : List Command := commands.flatMap Command.unrolled

theorem after_replicate_cycle (machine : Machine) (count : Nat) :
    machine.after (List.replicate count .cycle) = machine.cycles count := by
  induction count generalizing machine with
  | zero => rfl
  | succ count previous => exact previous _

theorem after_unrolled (machine : Machine) (command : Command) :
    machine.after command.unrolled = (machine.perform command).machine := by
  cases command with
  | run count => exact (machine.after_replicate_cycle count).trans machine_runFrom.symm
  | _ => rfl

/-- A history and its written-out form lead to the same machine. -/
theorem after_unroll (machine : Machine) (commands : List Command) :
    machine.after (unroll commands) = machine.after commands := by
  induction commands generalizing machine with
  | nil => rfl
  | cons command rest previous =>
    show machine.after (command.unrolled ++ unroll rest) = _
    rw [after_append, after_unrolled, previous]
    rfl

/-- What stands in a written-out history is no run, and it is a cycle or stood there before. -/
theorem mem_unroll {commands : List Command} {command : Command}
    (member : command ∈ unroll commands) :
    (∀ count, command ≠ .run count) ∧ (command = .cycle ∨ command ∈ commands) := by
  obtain ⟨origin, originMember, unrolled⟩ := List.mem_flatMap.mp member
  cases origin with
  | run count =>
    obtain rfl := List.eq_of_mem_replicate unrolled
    exact ⟨nofun, .inl rfl⟩
  | _ =>
    obtain rfl := List.mem_singleton.mp unrolled
    exact ⟨nofun, .inr originMember⟩

/-- What every step of a written-out history preserves, the history preserves. -/
theorem after_preserves {Holds : Machine → Prop} {commands : List Command} {machine : Machine}
    (step : ∀ machine, ∀ command ∈ unroll commands,
      Holds machine → Holds (machine.perform command).machine)
    (start : Holds machine) : Holds (machine.after commands) := by
  rw [← after_unroll]
  generalize unroll commands = steps at step ⊢
  induction steps generalizing machine with
  | nil => exact start
  | cons command rest previous =>
    have next := step machine command List.mem_cons_self start
    exact previous next fun machine later member =>
      step machine later (List.mem_cons_of_mem _ member)

end ChipEight.Machine
