/-
This file says once how a fact about single operations on a scheduler becomes a fact about
whole histories.

Such a fact is about a piece of work and a list of entries that is kept of it. It composes if
it holds of no work at all, and of two pieces one after the other once it holds of each. A run
hands its error over and does nothing else beyond its polls, so a fact that does not look at
the kept error holds of a run as it holds of the polls. Whoever has such a fact owes a proof
for each single operation and no induction.
-/

import ChipEight.Proofs.Polling
import ChipEight.Proofs.Unrolling

namespace ChipEight

/-- The last of two lists of entries, one after the other, where the entry before them stands in
for a missing one. -/
theorem getLastD_append {Entry : Type} (first second : List Entry) (before : Entry) :
    (first ++ second).getLastD before = second.getLastD (first.getLastD before) := by
  simp [List.getLastD_eq_getLast?, List.getLast?_append]

namespace Scheduler

variable {Entry : Type} {Holds : Scheduler → Turn → List Entry → Prop}

/-- A fact about the work that starts from a scheduler and a list that is kept of it composes. -/
structure Composes (Holds : Scheduler → Turn → List Entry → Prop) : Prop where
  idle : ∀ scheduler, Holds scheduler (Turn.idle scheduler) []
  andThen : ∀ {scheduler turn more first second}, Holds scheduler turn first →
    Holds turn.scheduler (more turn.scheduler) second →
    Holds scheduler (turn.andThen more) (first ++ second)

/-- A fact composes and does not look at the error that the scheduler keeps in the end. -/
structure ComposesButError (Holds : Scheduler → Turn → List Entry → Prop) : Prop
    extends Composes Holds where
  sameButError : ∀ {scheduler turn turn' entries}, Holds scheduler turn entries →
    turn'.SameButError turn → Holds scheduler turn' entries

/-- A fact holds of every operation but a run, with the entries that are kept of it. -/
def HoldsSingly (Holds : Scheduler → Turn → List Entry → Prop)
    (entriesOf : Operation → List Entry) : Prop :=
  ∀ scheduler command, scheduler.Coherent →
    (∀ deadline now readings, command ≠ .run deadline now readings) →
    Holds scheduler (scheduler.perform command).turn (entriesOf ⟨scheduler, command⟩)

section

variable {entriesOf : Operation → List Entry} {scheduler : Scheduler}

/-- A fact that composes holds of operations one after the other if it holds of each. -/
theorem Composes.trace (composes : Composes Holds) (coherent : scheduler.Coherent)
    {commands : List Command}
    (each : ∀ scheduler, ∀ command ∈ commands, scheduler.Coherent →
      Holds scheduler (scheduler.perform command).turn (entriesOf ⟨scheduler, command⟩)) :
    Holds scheduler (scheduler.after commands)
      ((scheduler.trace commands).flatMap entriesOf) := by
  induction commands generalizing scheduler with
  | nil => exact composes.idle scheduler
  | cons command rest previous =>
    have here := each scheduler command List.mem_cons_self coherent
    have later := previous (coherent.perform command) fun scheduler command member =>
      each scheduler command (List.mem_cons_of_mem _ member)
    exact composes.andThen here later

/-- A fact that composes holds of every operation written out. -/
theorem Composes.unrolled (composes : Composes Holds) (singly : HoldsSingly Holds entriesOf)
    (coherent : scheduler.Coherent) (command : Command) :
    Holds scheduler (scheduler.after (scheduler.unrolled command))
      ((scheduler.trace (scheduler.unrolled command)).flatMap entriesOf) :=
  composes.trace coherent fun before single member coherent =>
    singly before single coherent (ne_run_of_mem_unrolled member)

/-- A fact that composes, whatever the error, holds of every operation, runs written out. -/
theorem ComposesButError.perform (composes : ComposesButError Holds)
    (singly : HoldsSingly Holds entriesOf) (coherent : scheduler.Coherent) (command : Command) :
    Holds scheduler (scheduler.perform command).turn
      ((scheduler.trace (scheduler.unrolled command)).flatMap entriesOf) :=
  composes.sameButError (composes.unrolled singly coherent command)
    (scheduler.perform_eq_after_unrolled command)

/-- A fact that composes, whatever the error, holds of every history. -/
theorem ComposesButError.after (composes : ComposesButError Holds)
    (singly : HoldsSingly Holds entriesOf) (coherent : scheduler.Coherent)
    (commands : List Command) :
    Holds scheduler (scheduler.after commands)
      ((scheduler.operations commands).flatMap entriesOf) := by
  induction commands generalizing scheduler with
  | nil => exact composes.idle scheduler
  | cons command rest previous =>
    have here := composes.perform singly coherent command
    rw [operations, List.flatMap_append]
    exact composes.andThen here (previous (coherent.perform command))

end

end Scheduler

end ChipEight
