/-
This file proves that a request to stop is neither lost nor undone.

There are two ways to stop a scheduler: its loops are made inactive at once, or a request is
raised that the next poll obeys before it does anything else. Either way the scheduler is winding
down, and it stays so under everything but a new start. A poll of such a scheduler finds no loop
due, so it takes its input and answers that there is nothing to wait for. A request that the input
raises comes too late for the poll that takes this input, which goes on as if it had not been
raised. A run whose deadline has passed stops what it has just started, and so comes down to one
such poll.
-/

import ChipEight.Proofs.Polling
import ChipEight.Proofs.Unrolling

namespace ChipEight

namespace Input

/-- The input with no request to stop in it. -/
def withoutStops (input : Input) : Input := ⟨input.items.filter (· ≠ .stopRequest), false⟩

/-- Requests to stop hide no key event and no pause. -/
theorem events_withoutStops (input : Input) : input.withoutStops.events = input.events := by
  obtain ⟨items, stops⟩ := input
  unfold withoutStops events offered
  induction items with
  | nil => rfl
  | cons item rest previous =>
    cases item with
    | stopRequest => simpa [InputItem.event?, List.filterMap_cons] using previous
    | pause => rfl
    | event keyed => simpa [InputItem.event?] using previous

theorem asksToStop_withoutStops (input : Input) : input.withoutStops.asksToStop = false := by
  refine decide_eq_false ?_
  rintro (requested | ⟨stops, -⟩)
  · have kept : .stopRequest ∈ input.withoutStops.items := List.takeWhile_subset _ requested
    simp [withoutStops] at kept
  · contradiction

end Input

namespace Scheduler

/-- Whether an operation starts the loops. -/
def Command.starts : Command → Bool
  | .activate _ | .run .. => true
  | _ => false

/-- Whether a scheduler is stopped by an operation, or asked to stop. The input of a poll may ask
for it too, and a run that ends has stopped its loops. -/
def isStoppedBy (scheduler : Scheduler) : Command → Bool
  | .stop | .requestStop => true
  | .poll _ => scheduler.input.asksToStop
  | .run deadline now readings =>
    let run := scheduler.runUntil deadline now readings
    run.ended.isSome || run.turn.scheduler.stopRequested
  | _ => false

/-- A scheduler is winding down if its loops have been stopped or are about to be. -/
def WindingDown (scheduler : Scheduler) : Prop :=
  scheduler.stopRequested = true ∨ scheduler.isRunning = false

namespace WindingDown

variable {scheduler : Scheduler}

/-- A poll brings no active loop to its loops. -/
theorem ready (down : scheduler.WindingDown) :
    scheduler.ready.cpu = scheduler.cpu.setActive false ∧
      scheduler.ready.timers = scheduler.timers.setActive false := by
  rcases down with asked | stopped
  · simp [Scheduler.ready, asked]
  · obtain ⟨cpu, timers⟩ := Bool.or_eq_false_iff.mp stopped
    simp [Scheduler.ready, cpu, timers]

/-- A poll takes the input and does nothing else. -/
theorem poll (down : scheduler.WindingDown) (now : Nat) :
    scheduler.poll now =
      ⟨{ scheduler with
          machine := scheduler.machine.after scheduler.inputCommands
          input := scheduler.input.rest
          cpu := scheduler.cpu.setActive false
          timers := scheduler.timers.setActive false
          stopRequested := scheduler.stopRequested || scheduler.input.asksToStop },
        scheduler.stopActivity ++ scheduler.machine.exhibits scheduler.inputCommands⟩ := by
  obtain ⟨cpu, timers⟩ := down.ready
  rw [poll_of_not_due (by rw [cpu]; rfl) (by rw [timers]; rfl), ← cpu, ← timers]
  rfl

/-- Nothing but a start undoes a stop. -/
theorem perform (down : scheduler.WindingDown) {command : Command}
    (starts : command.starts = false) :
    (scheduler.perform command).turn.scheduler.WindingDown := by
  cases command with
  | activate | run => contradiction
  | poll now =>
    show (scheduler.poll now).scheduler.WindingDown
    rw [down.poll]
    exact .inr rfl
  | load program =>
    show (scheduler.load program).2.scheduler.WindingDown
    obtain ⟨_, loaded⟩ := scheduler.exists_load program
    rw [loaded]
    exact down
  | stop => exact .inr rfl
  | requestStop => exact .inl rfl
  | feed | stopWhenEmpty | keyEvent => exact down

theorem after (down : scheduler.WindingDown) {commands : List Command}
    (starts : ∀ command ∈ commands, command.starts = false) :
    (scheduler.after commands).scheduler.WindingDown := by
  induction commands generalizing scheduler with
  | nil => exact down
  | cons command rest previous =>
    have next := down.perform (starts command List.mem_cons_self)
    exact previous next fun other member => starts other (List.mem_cons_of_mem _ member)

/-- There is nothing to wait for once a poll is done. -/
theorem perform_poll (down : scheduler.WindingDown) (now : Nat) :
    scheduler.perform (.poll now) = ⟨.ok (.deadline none), scheduler.poll now⟩ := by
  have inactive : (scheduler.poll now).scheduler.deadline? = none := by
    rw [down.poll]
    rfl
  rw [Scheduler.perform, inactive]

end WindingDown

/-- Whoever is asked to stop winds down. -/
theorem windingDown_of_isStoppedBy {scheduler : Scheduler} (coherent : scheduler.Coherent)
    {command : Command} (stopped : scheduler.isStoppedBy command = true) :
    (scheduler.perform command).turn.scheduler.WindingDown := by
  cases command with
  | stop => exact .inr rfl
  | requestStop => exact .inl rfl
  | poll now =>
    refine .inl ?_
    show (scheduler.poll now).scheduler.stopRequested = true
    rw [poll_eq coherent]
    exact (congrArg (scheduler.stopRequested || ·) stopped).trans (Bool.or_true _)
  | run deadline now readings =>
    rcases scheduler.runUntil_eq deadline now readings with ran | ⟨inactive, ran⟩
    · simp only [isStoppedBy, ran] at stopped
      simp only [perform, ran]
      exact .inl stopped
    · simp only [perform, ran]
      exact .inr ((deadline?_eq_none_iff _).mp inactive)
  | _ => contradiction

/-- A request to stop that the input raises changes nothing about the poll that takes the input,
except that it is raised. -/
theorem poll_withoutStops {scheduler : Scheduler} (coherent : scheduler.Coherent) (now : Nat) :
    let calm := scheduler.withInput scheduler.input.withoutStops
    scheduler.poll now =
      ⟨{ (calm.poll now).scheduler with
          input := scheduler.input.rest
          stopRequested := scheduler.stopRequested || scheduler.input.asksToStop },
        (calm.poll now).activity⟩ := by
  intro calm
  have still : calm.Coherent := ⟨coherent.running, coherent.stopped⟩
  have events : calm.inputCommands = scheduler.inputCommands :=
    congrArg (List.map Machine.Command.keyEvent) scheduler.input.events_withoutStops
  have same : calm.ready = { scheduler.ready with
      input := calm.input.rest
      stopRequested := calm.stopRequested || calm.input.asksToStop } := by
    unfold Scheduler.ready
    rw [events]
    rfl
  rw [poll_eq coherent, poll_eq still, same, events]
  rfl

/-- A run whose deadline has passed starts both loops, stops them, and polls once. -/
theorem perform_run_of_passed (scheduler : Scheduler) {deadline first : Nat}
    (passed : deadline ≤ first) (start : Nat) (readings : List Nat) :
    scheduler.perform (.run (some deadline) start (first :: readings)) =
      ⟨match scheduler.error with
        | some cause => .error cause
        | none => .ok .done,
        ⟨{ scheduler with
            machine := scheduler.machine.after scheduler.inputCommands
            input := scheduler.input.rest
            cpu := scheduler.cpu.start false start
            timers := scheduler.timers.start false start
            stopRequested := scheduler.input.asksToStop
            error := none },
          #[.notice .loopsStarting, .notice .loopsStopping] ++
            scheduler.machine.exhibits scheduler.inputCommands⟩⟩ := by
  have hasPassed : hasPassed (some deadline) first = true := decide_eq_true passed
  have down : (scheduler.activate start).scheduler.stop.scheduler.WindingDown := .inr rfl
  have polled : (scheduler.activate start).andThen (pollUntil (some deadline) first) =
      ⟨{ scheduler with
          machine := scheduler.machine.after scheduler.inputCommands
          input := scheduler.input.rest
          cpu := scheduler.cpu.start false start
          timers := scheduler.timers.start false start
          stopRequested := scheduler.input.asksToStop },
        #[.notice .loopsStarting, .notice .loopsStopping] ++
          scheduler.machine.exhibits scheduler.inputCommands⟩ := by
    simp only [Turn.andThen, pollUntil, hasPassed, if_true, down.poll]
    simp [activate, stop, stopActivity, inputCommands, Loop.start, Loop.setActive, isRunning]
  simp only [perform, runUntil, pollThrough, polled, handOver]
  cases scheduler.error <;> rfl

/-- A stop is neither lost nor undone. Once a scheduler that can be reached is asked to stop, no
loop runs in any poll until the next start: whatever else happens, a poll applies the input that
is there, changes the machine in no other way, leaves both loops inactive and answers that there
is nothing to wait for. A request that the input raises does not change what the poll does that
takes this input. A run whose deadline has passed only applies the input, whatever the scheduler
was doing: it leaves both loops inactive and no request but that of the input, and fails with the
error that was kept if there was one. -/
theorem stop_lasts_until_start (scheduler : Scheduler) (reachable : scheduler.Reachable) :
    (∀ stopping, scheduler.isStoppedBy stopping = true →
      ∀ commands, (∀ command ∈ commands, command.starts = false) → ∀ now,
        let later := ((scheduler.perform stopping).turn.scheduler.after commands).scheduler
        later.ready.loopCommands now = [] ∧
        later.perform (.poll now) =
          ⟨.ok (.deadline none),
            ⟨{ later with
                machine := later.machine.after later.inputCommands
                input := later.input.rest
                cpu := later.cpu.setActive false
                timers := later.timers.setActive false
                stopRequested := later.stopRequested || later.input.asksToStop },
              later.stopActivity ++ later.machine.exhibits later.inputCommands⟩⟩) ∧
    (∀ now,
      let calm := scheduler.withInput scheduler.input.withoutStops
      calm.input.asksToStop = false ∧
      scheduler.poll now =
        ⟨{ (calm.poll now).scheduler with
            input := scheduler.input.rest
            stopRequested := scheduler.stopRequested || scheduler.input.asksToStop },
          (calm.poll now).activity⟩) ∧
    ∀ deadline start first readings, deadline ≤ first →
      scheduler.perform (.run (some deadline) start (first :: readings)) =
        ⟨match scheduler.error with
          | some cause => .error cause
          | none => .ok .done,
          ⟨{ scheduler with
              machine := scheduler.machine.after scheduler.inputCommands
              input := scheduler.input.rest
              cpu := scheduler.cpu.start false start
              timers := scheduler.timers.start false start
              stopRequested := scheduler.input.asksToStop
              error := none },
            #[.notice .loopsStarting, .notice .loopsStopping] ++
              scheduler.machine.exhibits scheduler.inputCommands⟩⟩ := by
  have coherent := reachable.coherent
  refine ⟨fun stopping stopped commands starts now => ?_, fun now => ?_,
    fun deadline start first readings passed =>
      scheduler.perform_run_of_passed passed start readings⟩
  · intro later
    have down : later.WindingDown := (windingDown_of_isStoppedBy coherent stopped).after starts
    obtain ⟨batch, tick⟩ := down.ready
    refine ⟨(loopCommands_eq_nil_iff _ now).mpr ⟨by rw [batch]; rfl, by rw [tick]; rfl⟩, ?_⟩
    rw [down.perform_poll, down.poll]
  · exact ⟨scheduler.input.asksToStop_withoutStops, poll_withoutStops coherent now⟩

/-- A scheduler that was asked to stop while its loops were due executes nothing after a load. -/
theorem stop_lasts_until_start_startedUnloaded :
    startedUnloaded.isStoppedBy .requestStop = true ∧
      (((startedUnloaded.perform .requestStop).turn.scheduler.after
        [.load [0x12, 0x00]]).scheduler.perform (.poll 5)).result = .ok (.deadline none) ∧
      (startedUnloaded.perform (.run (some 4) 5 [6])).result = .ok .done := by
  obtain ⟨stopping, -, running⟩ :=
    stop_lasts_until_start startedUnloaded reachable_startedUnloaded
  have loads : ∀ command ∈ [Command.load [0x12, 0x00]], command.starts = false := by
    intro command member
    rw [List.mem_singleton.mp member]
    rfl
  refine ⟨rfl, ?_, ?_⟩
  · rw [(stopping .requestStop rfl _ loads 5).2]
  · rw [running 4 5 6 [] (by decide)]
    rfl

end Scheduler

end ChipEight
