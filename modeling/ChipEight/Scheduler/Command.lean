/-
This file holds the operations on a scheduler as values, so that a history of a
scheduler is a list.
-/

import ChipEight.Scheduler.Run

namespace ChipEight.Scheduler

/-- An operation on a scheduler. -/
inductive Command
  | load (program : List UInt8)
  | activate (now : Nat)
  | poll (now : Nat)
  | feed (items : List InputItem)
  /-- Say whether running out of input is a request to stop. -/
  | stopWhenEmpty (stops : Bool)
  | keyEvent (event : KeyEvent)
  | stop
  | requestStop
  | run (deadline : Option Nat) (now : Nat) (readings : List Nat)
  deriving DecidableEq, Repr

/-- What an operation that succeeds answers. -/
inductive Reply
  | done
  | deadline (next : Option Nat)
  | unfinished
  deriving DecidableEq, Repr

/-- An operation that has been performed. -/
structure Performed where
  result : Except Error Reply
  turn : Turn

def succeeding (turn : Turn) : Performed := ⟨.ok .done, turn⟩

def perform (scheduler : Scheduler) : Command → Performed
  | .load program =>
    let (result, turn) := scheduler.load program
    ⟨result.map fun _ => .done, turn⟩
  | .activate now => succeeding (scheduler.activate now)
  | .poll now =>
    let turn := scheduler.poll now
    ⟨.ok (.deadline turn.scheduler.deadline?), turn⟩
  | .feed items => succeeding (Turn.idle (scheduler.feed items))
  | .stopWhenEmpty stops =>
    succeeding (Turn.idle { scheduler with
      input := { scheduler.input with stopsWhenEmpty := stops } })
  | .keyEvent event =>
    let outcome := scheduler.machine.applyKeyEvent event
    ⟨outcome.result.map fun _ => .done,
      ⟨{ scheduler with machine := outcome.machine }, reporting outcome.notices⟩⟩
  | .stop => succeeding scheduler.stop
  | .requestStop => succeeding (Turn.idle scheduler.requestStop)
  | .run deadline now readings =>
    let run := scheduler.runUntil deadline now readings
    match run.ended with
    | some result => ⟨result.map fun _ => .done, run.turn⟩
    | none => ⟨.ok .unfinished, run.turn⟩

/-- The work of a list of operations, one after the other. -/
def after (scheduler : Scheduler) : List Command → Turn
  | [] => Turn.idle scheduler
  | command :: rest => (scheduler.perform command).turn.andThen fun next => next.after rest

end ChipEight.Scheduler
