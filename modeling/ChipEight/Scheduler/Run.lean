/-
This file holds runs: both loops started, polled again and again, and stopped.

A run ends when no loop is active any more, because somebody asked for it or
because its deadline has passed. If the machine failed on the way, the run hands
the error over when it ends and keeps no copy. The clock is a list of readings,
one for each poll; a run that needs more readings than there are is left
unfinished.
-/

import ChipEight.Scheduler.Basic

namespace ChipEight

/-- A run of both loops: the work done, and how the run ended if it did. -/
structure Run where
  turn : Turn
  ended : Option (Except Error Unit)

namespace Scheduler

/-- Whether a deadline has passed at an instant. No deadline never passes. -/
def hasPassed (deadline : Option Nat) (now : Nat) : Bool :=
  match deadline with
  | some last => decide (last ≤ now)
  | none => false

/-- One poll of a run: the loops are stopped first if the deadline has passed. -/
def pollUntil (deadline : Option Nat) (now : Nat) (scheduler : Scheduler) : Turn :=
  (if hasPassed deadline now then scheduler.stop else Turn.idle scheduler).andThen
    fun ready => ready.poll now

/-- The end of a run: the error that was kept, if there is one, is handed over. -/
def handOver (scheduler : Scheduler) : Scheduler × Except Error Unit :=
  ({ scheduler with error := none },
    match scheduler.error with
    | some cause => .error cause
    | none => .ok ())

/-- Poll at each reading of the clock until no loop is active. -/
def pollThrough (deadline : Option Nat) : List Nat → Turn → Run
  | [], turn => ⟨turn, none⟩
  | now :: readings, turn =>
    let polled := turn.andThen (pollUntil deadline now)
    match polled.scheduler.deadline? with
    | some _ => pollThrough deadline readings polled
    | none =>
      let (settled, result) := polled.scheduler.handOver
      ⟨{ polled with scheduler := settled }, some result⟩

/-- Start both loops at an instant and run them until they are stopped or the deadline
passes. -/
def runUntil (scheduler : Scheduler) (deadline : Option Nat) (now : Nat)
    (readings : List Nat) : Run :=
  pollThrough deadline readings (scheduler.activate now)

end Scheduler

end ChipEight
