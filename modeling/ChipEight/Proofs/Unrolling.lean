/-
This file writes the runs of a scheduler out.

A run starts both loops and polls until no loop is active, stopping the loops first once
its deadline has passed. How many polls that takes depends on what they find, so the
polls of a run are read off the scheduler that it starts from. A run and its polls one
by one come to the same, except that a run which ends hands the error over.
-/

import ChipEight.Scheduler.Command

namespace ChipEight

namespace Turn

variable (turn : Turn) (first second : Scheduler → Turn)

theorem andThen_assoc :
    (turn.andThen first).andThen second =
      turn.andThen fun scheduler => (first scheduler).andThen second := by
  simp [andThen, Array.append_assoc]

theorem idle_andThen (scheduler : Scheduler) :
    (idle scheduler).andThen first = first scheduler := by
  simp [andThen, idle]

theorem andThen_idle : turn.andThen idle = turn := by
  simp [andThen, idle]

/-- Two turns that agree in everything but the error that the scheduler keeps. -/
structure SameButError (first second : Turn) : Prop where
  machine : first.scheduler.machine = second.scheduler.machine
  input : first.scheduler.input = second.scheduler.input
  cpu : first.scheduler.cpu = second.scheduler.cpu
  timers : first.scheduler.timers = second.scheduler.timers
  stopRequested : first.scheduler.stopRequested = second.scheduler.stopRequested
  activity : first.activity = second.activity

theorem SameButError.refl : turn.SameButError turn := ⟨rfl, rfl, rfl, rfl, rfl, rfl⟩

end Turn

namespace Scheduler

theorem after_singleton (scheduler : Scheduler) (command : Command) :
    scheduler.after [command] = (scheduler.perform command).turn := Turn.andThen_idle _

/-- A history can be cut anywhere. -/
theorem after_append (scheduler : Scheduler) (first second : List Command) :
    scheduler.after (first ++ second) =
      (scheduler.after first).andThen fun later => later.after second := by
  induction first generalizing scheduler with
  | nil => exact (Turn.idle_andThen (fun later => later.after second) scheduler).symm
  | cons command rest previous =>
    simp only [List.cons_append, after, previous, Turn.andThen_assoc]

/-! ### The polls of a run -/

/-- One poll of a run as single operations. -/
def pollSteps (deadline : Option Nat) (now : Nat) : List Command :=
  if hasPassed deadline now then [.stop, .poll now] else [.poll now]

theorem after_pollSteps (scheduler : Scheduler) (deadline : Option Nat) (now : Nat) :
    scheduler.after (pollSteps deadline now) = pollUntil deadline now scheduler := by
  unfold pollSteps pollUntil
  cases hasPassed deadline now with
  | false =>
    simp only [Bool.false_eq_true, if_false, Turn.idle_andThen]
    exact Turn.andThen_idle _
  | true =>
    simp only [if_true, after]
    exact congrArg _ (funext fun _ => Turn.andThen_idle _)

/-- The polls of a run from a scheduler whose loops are started, as single operations. -/
def runSteps (deadline : Option Nat) : List Nat → Scheduler → List Command
  | [], _ => []
  | now :: readings, scheduler =>
    let polled := (pollUntil deadline now scheduler).scheduler
    match polled.deadline? with
    | some _ => pollSteps deadline now ++ runSteps deadline readings polled
    | none => pollSteps deadline now

/-- An operation as single operations: a run is its start and its polls, anything else is
itself. -/
def unrolled (scheduler : Scheduler) : Command → List Command
  | .run deadline now readings =>
    .activate now :: runSteps deadline readings (scheduler.activate now).scheduler
  | command => [command]

/-- Polling through the readings of a clock is polling one by one. Once no loop is active the run
ends and hands the error over. -/
theorem pollThrough_eq (deadline : Option Nat) (readings : List Nat) (turn : Turn) :
    let last := turn.andThen fun started => started.after (runSteps deadline readings started)
    let run := pollThrough deadline readings turn
    run = ⟨last, none⟩ ∨
      last.scheduler.deadline? = none ∧
        run = ⟨{ last with scheduler := last.scheduler.handOver.1 },
          some last.scheduler.handOver.2⟩ := by
  induction readings generalizing turn with
  | nil =>
    intro last run
    have same : last = turn := turn.andThen_idle
    rw [same]
    exact .inl rfl
  | cons now readings previous =>
    intro last run
    have polled := turn.scheduler.after_pollSteps deadline now
    cases next : (pollUntil deadline now turn.scheduler).scheduler.deadline? with
    | some instant =>
      have same : last = (turn.andThen (pollUntil deadline now)).andThen fun polled =>
          polled.after (runSteps deadline readings polled) := by
        rw [Turn.andThen_assoc]
        simp only [last, Turn.andThen, runSteps, next, after_append, polled]
      have goesOn :
          run = pollThrough deadline readings (turn.andThen (pollUntil deadline now)) := by
        simp only [run, pollThrough, Turn.andThen, next]
      rw [same, goesOn]
      exact previous _
    | none =>
      have same : last = turn.andThen (pollUntil deadline now) := by
        simp only [last, Turn.andThen, runSteps, next, polled]
      rw [same]
      refine .inr ⟨next, ?_⟩
      simp only [run, pollThrough, Turn.andThen, next]

/-- A run comes to its start and its polls one by one, and if it ends it hands the error over. -/
theorem runUntil_eq (scheduler : Scheduler) (deadline : Option Nat) (now : Nat)
    (readings : List Nat) :
    let last := scheduler.after (scheduler.unrolled (.run deadline now readings))
    let run := scheduler.runUntil deadline now readings
    run = ⟨last, none⟩ ∨
      last.scheduler.deadline? = none ∧
        run = ⟨{ last with scheduler := last.scheduler.handOver.1 },
          some last.scheduler.handOver.2⟩ :=
  pollThrough_eq deadline readings (scheduler.activate now)

/-- An operation and its single operations one after the other come to the same, except for the
error that a run hands over. -/
theorem perform_eq_after_unrolled (scheduler : Scheduler) (command : Command) :
    Turn.SameButError (scheduler.perform command).turn
      (scheduler.after (scheduler.unrolled command)) := by
  cases command with
  | run deadline now readings =>
    rcases scheduler.runUntil_eq deadline now readings with ran | ⟨-, ran⟩ <;>
      simp only [perform, ran] <;> exact ⟨rfl, rfl, rfl, rfl, rfl, rfl⟩
  | _ =>
    rw [← after_singleton]
    exact .refl _

/-- The polls of a run consist of stops and polls. -/
theorem eq_stop_or_poll_of_mem_runSteps {deadline : Option Nat} {readings : List Nat}
    {scheduler : Scheduler} {step : Command}
    (member : step ∈ runSteps deadline readings scheduler) :
    step = .stop ∨ ∃ now, step = .poll now := by
  induction readings generalizing scheduler with
  | nil => contradiction
  | cons now readings previous =>
    have polls (here : step ∈ pollSteps deadline now) : step = .stop ∨ ∃ now, step = .poll now := by
      unfold pollSteps at here
      split at here
      · rcases List.mem_cons.mp here with rfl | last
        · exact .inl rfl
        · exact .inr ⟨now, List.mem_singleton.mp last⟩
      · exact .inr ⟨now, List.mem_singleton.mp here⟩
    rw [runSteps] at member
    split at member
    · rcases List.mem_append.mp member with here | later
      · exact polls here
      · exact previous later
    · exact polls member

/-- What stands in an operation that is written out is no run. -/
theorem ne_run_of_mem_unrolled {scheduler : Scheduler} {command single : Command}
    (member : single ∈ scheduler.unrolled command) (deadline : Option Nat) (now : Nat)
    (readings : List Nat) : single ≠ .run deadline now readings := by
  cases command with
  | run =>
    rcases List.mem_cons.mp member with rfl | later
    · nofun
    · rcases eq_stop_or_poll_of_mem_runSteps later with rfl | ⟨_, rfl⟩ <;> nofun
  | _ =>
    obtain rfl := List.mem_singleton.mp member
    nofun

/-! ### Histories written out -/

/-- A single operation and the scheduler that it is performed on. -/
structure Operation where
  before : Scheduler
  command : Command

/-- Operations one after the other, each with the scheduler that it is performed on. -/
def trace (scheduler : Scheduler) : List Command → List Operation
  | [] => []
  | command :: rest =>
    ⟨scheduler, command⟩ :: (scheduler.perform command).turn.scheduler.trace rest

theorem command_mem_of_mem_trace {scheduler : Scheduler} {commands : List Command}
    {operation : Operation} (member : operation ∈ scheduler.trace commands) :
    operation.command ∈ commands := by
  induction commands generalizing scheduler with
  | nil => contradiction
  | cons command rest previous =>
    rcases List.mem_cons.mp member with rfl | later
    · exact List.mem_cons_self
    · exact List.mem_cons_of_mem _ (previous later)

/-- The single operations that a history is made of. -/
def operations (scheduler : Scheduler) : List Command → List Operation
  | [] => []
  | command :: rest =>
    scheduler.trace (scheduler.unrolled command) ++
      (scheduler.perform command).turn.scheduler.operations rest

end Scheduler

end ChipEight
