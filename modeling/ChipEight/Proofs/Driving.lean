/-
This file reads the history of a scheduler as a history of its machine.

A scheduler reaches its machine through operations of the machine alone, so its history
comes down to a list of those. What they dispatch is read off the notices, which the
machine and the scheduler give in the same order: the word that a cycle is about to
execute, or the error of a fetch that fails. The content here is that a history of a
scheduler and the operations it comes down to lead to the same machine and dispatch the
same.
-/

import ChipEight.Proofs.Composition

namespace ChipEight

/-! ### What is dispatched -/

/-- What a cycle that is able to do something comes upon: the word it is about to execute, or
the error with which the fetch of one fails. -/
abbrev Attempt := Except Error Word

def Notice.attempt? : Notice → Option Attempt
  | executing _ word => some (.ok word)
  | halted cause => if cause.isFetch then some (.error cause) else none
  | _ => none

def Activity.attempt? : Activity → Option Attempt
  | notice reported => reported.attempt?
  | _ => none

/-- The attempts that notices report, in order. -/
def attemptsIn (notices : Array Notice) : List Attempt := notices.toList.filterMap Notice.attempt?

/-- The attempts that what a scheduler does reports, in order. -/
def attemptsOf (activity : Array Activity) : List Attempt :=
  activity.toList.filterMap Activity.attempt?

theorem attemptsIn_append (first second : Array Notice) :
    attemptsIn (first ++ second) = attemptsIn first ++ attemptsIn second := by
  simp [attemptsIn]

theorem attemptsOf_append (first second : Array Activity) :
    attemptsOf (first ++ second) = attemptsOf first ++ attemptsOf second := by
  simp [attemptsOf]

theorem attemptsOf_reporting (notices : Array Notice) :
    attemptsOf (Scheduler.reporting notices) = attemptsIn notices := by
  rw [attemptsOf, Scheduler.reporting, Array.toList_map, List.filterMap_map]
  rfl

namespace Machine

/-- The attempts of a history, the first first. -/
def attempts (machine : Machine) : List Command → List Attempt
  | [] => []
  | command :: rest =>
    attemptsIn (machine.perform command).notices ++ (machine.perform command).machine.attempts rest

theorem attempts_append (machine : Machine) (first second : List Command) :
    machine.attempts (first ++ second) =
      machine.attempts first ++ (machine.after first).attempts second := by
  induction first generalizing machine with
  | nil => rfl
  | cons command rest previous =>
    rw [List.cons_append, attempts, previous, ← List.append_assoc]
    rfl

/-- An instruction that succeeds reports no attempt of its own. -/
theorem attemptsIn_of_execute {machine : Machine} {pc : Nat} {instruction : Instruction}
    {step : Step} (executed : machine.execute pc instruction = .ok step) :
    attemptsIn step.notices = [] := by
  rw [notices_of_execute executed]
  cases instruction <;> rfl

/-- A cycle attempts what it fetches, unless the machine is idle. -/
theorem attemptsIn_cycle (machine : Machine) :
    attemptsIn machine.cycle.notices =
      if machine.halted || machine.awaiting.isSome then [] else [machine.fetch] := by
  cases machine.cycled with
  | stopped halted same => simp [same, halted, attemptsIn]
  | waiting _ waits same => simp [same, waits, attemptsIn]
  | unfetched running awake beyond same =>
    simp [same, running, awake, fetch_eq, Nat.not_le.mpr beyond, stopOn, attemptsIn,
      Notice.attempt?, Error.isFetch]
  | @refused cause running awake inside failed same =>
    have notFetch : cause.isFetch = false := by
      rcases dispatch_eq_error failed with rfl | ⟨access, _, notFetch, rfl⟩
      · rfl
      · cases access with
        | fetch => contradiction
        | memory | stackOverflow | stackUnderflow => rfl
    simp [same, running, awake, fetch_eq, inside, stopOn, attemptsIn, Notice.attempt?, notFetch]
  | executed running awake inside decoded succeeded same =>
    rw [same, attemptsIn_append, attemptsIn_of_execute succeeded]
    simp [running, awake, fetch_eq, inside, attemptsIn, Notice.attempt?]

/-! ### Runs -/

/-- Cycles of an idle machine attempt nothing. -/
theorem attempts_replicate_of_isIdle {machine : Machine} (idle : machine.IsIdle) (count : Nat) :
    machine.attempts (List.replicate count .cycle) = [] := by
  have none : attemptsIn machine.cycle.notices = [] := by
    rw [attemptsIn_cycle, if_pos (by rwa [Bool.or_eq_true])]
  induction count with
  | zero => rfl
  | succ count previous =>
    show attemptsIn machine.cycle.notices ++ machine.cycle.machine.attempts _ = []
    rw [none, (cycle_of_isIdle idle).1]
    exact previous

/-- A run attempts what its cycles attempt. -/
theorem attemptsIn_runFrom (machine : Machine) (count : Nat) (last : Flow)
    (notices : Array Notice) :
    attemptsIn (runFrom last notices count machine).notices =
      attemptsIn notices ++ machine.attempts (List.replicate count .cycle) := by
  induction count generalizing machine last notices with
  | zero => exact (List.append_nil _).symm
  | succ count previous =>
    show _ = attemptsIn notices ++ (attemptsIn machine.cycle.notices ++
      machine.cycle.machine.attempts (List.replicate count .cycle))
    cases ended : machine.cycle.result with
    | error cause =>
      have idle : machine.cycle.machine.IsIdle := .inl (halted_of_cycle_eq_error ended)
      rw [runFrom_of_error ended, attemptsIn_append, attempts_replicate_of_isIdle idle,
        List.append_nil]
    | ok flow =>
      cases blocked : flow.isBlocked with
      | true =>
        have idle := isIdle_of_isBlocked ended blocked
        rw [runFrom_of_isBlocked ended blocked, attemptsIn_append,
          attempts_replicate_of_isIdle idle, List.append_nil]
      | false =>
        rw [runFrom_of_not_isBlocked ended blocked, previous, attemptsIn_append,
          List.append_assoc]

theorem attempts_unrolled (machine : Machine) (command : Command) :
    machine.attempts command.unrolled = attemptsIn (machine.perform command).notices := by
  cases command with
  | run count => exact (attemptsIn_runFrom machine count .next #[]).symm
  | _ => exact List.append_nil _

/-- A history and its written-out form attempt the same. -/
theorem attempts_unroll (machine : Machine) (commands : List Command) :
    machine.attempts (unroll commands) = machine.attempts commands := by
  induction commands generalizing machine with
  | nil => rfl
  | cons command rest previous =>
    show machine.attempts (command.unrolled ++ unroll rest) = _
    rw [attempts_append, attempts_unrolled, after_unrolled, previous]
    rfl

/-! ### What a scheduler shows of it -/

/-- A scheduler that executes cycles up to a number of them reports what they attempt. -/
theorem attemptsOf_shown (machine : Machine) (count : Nat) :
    attemptsOf (machine.shown count) = machine.attempts (List.replicate count .cycle) := by
  induction count generalizing machine with
  | zero => rfl
  | succ count previous =>
    show _ = attemptsIn machine.cycle.notices ++
      machine.cycle.machine.attempts (List.replicate count .cycle)
    rw [shown, attemptsOf_append, attemptsOf_reporting]
    cases ended : machine.cycle.result with
    | error cause =>
      have idle : machine.cycle.machine.IsIdle := .inl (halted_of_cycle_eq_error ended)
      rw [attempts_replicate_of_isIdle idle]
      rfl
    | ok flow =>
      have screen : attemptsOf
          (if flow.isDirty then #[.flush machine.cycle.machine.screen] else #[]) = [] := by
        split <;> rfl
      rw [attemptsOf_append, screen, List.nil_append]
      cases blocked : flow.isBlocked with
      | true => rw [attempts_replicate_of_isIdle (isIdle_of_isBlocked ended blocked)]; rfl
      | false => rw [if_neg Bool.false_ne_true, previous]

/-- Whether an operation is one of those that a poll performs. -/
def Command.isPolled : Command → Bool
  | .run _ | .tick | .keyEvent _ => true
  | _ => false

/-- What a scheduler shows of the operations in a poll reports what they attempt. -/
theorem attemptsOf_exhibits (machine : Machine) {commands : List Command}
    (polled : ∀ command ∈ commands, command.isPolled = true) :
    attemptsOf (machine.exhibits commands) = machine.attempts commands := by
  induction commands generalizing machine with
  | nil => rfl
  | cons command rest previous =>
    have here : attemptsOf (machine.exhibit command) =
        attemptsIn (machine.perform command).notices := by
      cases command with
      | run count =>
        exact (machine.attemptsOf_shown count).trans (machine.attempts_unrolled (.run count))
      | tick => cases buzzing : machine.isBuzzing <;> simp [exhibit, buzzing] <;> rfl
      | keyEvent event =>
        simp only [exhibit, attemptsOf_reporting, attemptsIn_append]
        split <;> exact List.append_nil _
      | _ => exact absurd (polled _ List.mem_cons_self) Bool.false_ne_true
    rw [exhibits, attemptsOf_append, here,
      previous _ fun command member => polled command (List.mem_cons_of_mem _ member)]
    rfl

theorem reloads_of_isPolled {command : Command} (polled : command.isPolled = true) :
    command.reloads = false := by
  cases command with
  | load => contradiction
  | _ => rfl

end Machine

/-! ### What a scheduler comes down to -/

/-- A piece of work leads to the machine that some operations lead to, and reports what those
attempt. -/
structure Turn.ComesDownTo (turn : Turn) (start : Machine) (commands : List Machine.Command) :
    Prop where
  machine : turn.scheduler.machine = start.after commands
  attempts : attemptsOf turn.activity = start.attempts commands

theorem Turn.ComesDownTo.andThen {turn : Turn} {start : Machine}
    {first second : List Machine.Command} {more : Scheduler → Turn}
    (here : turn.ComesDownTo start first)
    (later : (more turn.scheduler).ComesDownTo turn.scheduler.machine second) :
    (turn.andThen more).ComesDownTo start (first ++ second) := by
  refine ⟨?_, ?_⟩
  · rw [Machine.after_append, ← here.machine]
    exact later.machine
  · rw [Machine.attempts_append, ← here.machine, ← here.attempts, ← later.attempts]
    exact attemptsOf_append _ _

namespace Scheduler

theorem load_of_reloads (scheduler : Scheduler) {program : List UInt8}
    (succeeds : (Machine.Command.load program).reloads = true) :
    scheduler.load program =
      (.ok (), ⟨{ scheduler with machine := scheduler.machine.loaded program, error := none },
        #[.notice (.loaded program.length)]⟩) := by
  simp [load, Machine.load_of_reloads succeeds, reporting]

/-- A load that fails changes nothing. -/
theorem load_of_not_reloads (scheduler : Scheduler) {program : List UInt8}
    (fails : (Machine.Command.load program).reloads = false) :
    scheduler.load program = (.error (.largeProgram program.length), Turn.idle scheduler) := by
  simp [load, Machine.load_of_not_reloads fails, reporting, Turn.idle]

/-- Whether an operation loads a program. -/
def Command.isLoad : Command → Bool
  | .load _ => true
  | _ => false

/-- What a single operation does to the machine. -/
def Operation.machineCommands : Operation → List Machine.Command
  | ⟨_, .load program⟩ => [.load program]
  | ⟨before, .poll now⟩ => before.inputCommands ++ before.ready.loopCommands now
  | ⟨_, .keyEvent event⟩ => [.keyEvent event]
  | _ => []

/-- What a history does to the machine. -/
def machineCommands (scheduler : Scheduler) (commands : List Command) : List Machine.Command :=
  (scheduler.operations commands).flatMap Operation.machineCommands

theorem machineCommands_cons (scheduler : Scheduler) (command : Command) (rest : List Command) :
    scheduler.machineCommands (command :: rest) =
      scheduler.machineCommands [command] ++
        (scheduler.perform command).turn.scheduler.machineCommands rest := by
  simp [machineCommands, operations]

theorem machineCommands_singleton (scheduler : Scheduler) (command : Command) :
    scheduler.machineCommands [command] =
      (scheduler.trace (scheduler.unrolled command)).flatMap Operation.machineCommands := by
  simp [machineCommands, operations]

/-- The loops of a poll perform runs and ticks. -/
theorem run_or_tick_of_mem_loopCommands {scheduler : Scheduler} {now : Nat}
    {command : Machine.Command} (member : command ∈ scheduler.loopCommands now) :
    (∃ count, command = .run count) ∨ command = .tick := by
  have tick (member : command ∈ scheduler.tickCommands now) : command = .tick := by
    unfold tickCommands at member
    split at member
    · exact List.mem_singleton.mp member
    · contradiction
  rcases List.mem_append.mp member with front | behind
  · rcases List.mem_append.mp front with ahead | batch
    · unfold aheadOfBatch at ahead
      split at ahead
      · exact .inr (tick ahead)
      · contradiction
    · unfold batchCommands at batch
      split at batch
      · exact .inl ⟨_, List.mem_singleton.mp batch⟩
      · contradiction
  · unfold behindBatch at behind
    split at behind
    · contradiction
    · exact .inr (tick behind)

theorem isPolled_of_mem_loopCommands {scheduler : Scheduler} {now : Nat}
    {command : Machine.Command} (member : command ∈ scheduler.loopCommands now) :
    command.isPolled = true := by
  rcases run_or_tick_of_mem_loopCommands member with ⟨count, rfl⟩ | rfl <;> rfl

/-- A poll performs key events, runs and ticks. -/
theorem isPolled_of_mem_poll {scheduler : Scheduler} {now : Nat} {command : Machine.Command}
    (member : command ∈ Operation.machineCommands ⟨scheduler, .poll now⟩) :
    command.isPolled = true := by
  rcases List.mem_append.mp member with event | loop
  · obtain ⟨_, _, rfl⟩ := List.mem_map.mp event
    rfl
  · exact isPolled_of_mem_loopCommands loop

section Histories

variable {scheduler : Scheduler} {command : Command}

theorem poll_comesDownTo (coherent : scheduler.Coherent) (now : Nat) :
    (scheduler.poll now).ComesDownTo scheduler.machine
      (Operation.machineCommands ⟨scheduler, .poll now⟩) := by
  have stopping : attemptsOf scheduler.stopActivity = [] := by
    unfold stopActivity
    split <;> rfl
  have shown := scheduler.machine.attemptsOf_exhibits
    fun _ => @isPolled_of_mem_poll scheduler now _
  rw [Operation.machineCommands, Machine.exhibits_append] at shown
  refine ⟨?_, ?_⟩
  · rw [poll_eq coherent]
    exact (Machine.after_append _ _ _).symm
  · rw [poll_eq coherent, Array.append_assoc, attemptsOf_append, stopping]
    exact shown

/-- What an operation other than a run comes down to. -/
theorem perform_comesDownTo (coherent : scheduler.Coherent)
    (single : ∀ deadline now readings, command ≠ .run deadline now readings) :
    (scheduler.perform command).turn.ComesDownTo scheduler.machine
      (Operation.machineCommands ⟨scheduler, command⟩) := by
  cases command with
  | poll now => exact poll_comesDownTo coherent now
  | load program =>
    refine ⟨?_, (attemptsOf_reporting _).trans (List.append_nil _).symm⟩
    show (scheduler.load program).2.scheduler.machine = _
    obtain ⟨_, loaded⟩ := scheduler.exists_load program
    rw [loaded]
    rfl
  | keyEvent event => exact ⟨rfl, (attemptsOf_reporting _).trans (List.append_nil _).symm⟩
  | run deadline now readings => exact absurd rfl (single deadline now readings)
  | stop =>
    refine ⟨rfl, ?_⟩
    show attemptsOf (if scheduler.isRunning then _ else _) = []
    split <;> rfl
  | activate | feed | stopWhenEmpty | requestStop => exact ⟨rfl, rfl⟩

/-- What work comes down to composes. -/
theorem composes_comesDownTo :
    ComposesButError fun scheduler turn commands =>
      turn.ComesDownTo scheduler.machine commands where
  idle _ := ⟨rfl, rfl⟩
  andThen here later := here.andThen later
  sameButError holds same :=
    ⟨same.machine.trans holds.machine, by rw [same.activity]; exact holds.attempts⟩

/-- What a history comes down to. -/
theorem after_comesDownTo (coherent : scheduler.Coherent) (commands : List Command) :
    (scheduler.after commands).ComesDownTo scheduler.machine
      (scheduler.machineCommands commands) :=
  composes_comesDownTo.after (fun _ _ => perform_comesDownTo) coherent commands

end Histories

/-- A history without a load is made of operations without a load. -/
theorem isLoad_of_mem_operations {scheduler : Scheduler} {commands : List Command}
    (loadless : ∀ command ∈ commands, command.isLoad = false) {operation : Operation}
    (member : operation ∈ scheduler.operations commands) : operation.command.isLoad = false := by
  induction commands generalizing scheduler with
  | nil => contradiction
  | cons command rest previous =>
    rcases List.mem_append.mp member with here | later
    · have single := command_mem_of_mem_trace here
      have free := loadless command List.mem_cons_self
      cases command with
      | run =>
        rcases List.mem_cons.mp single with same | polls
        · rw [same]
          rfl
        · rcases eq_stop_or_poll_of_mem_runSteps polls with same | ⟨_, same⟩ <;> rw [same] <;> rfl
      | _ => rwa [List.mem_singleton.mp single]
    · exact previous (fun command member => loadless command (List.mem_cons_of_mem _ member)) later

/-- Without a load, a history comes down to key events, runs and ticks. -/
theorem isPolled_of_mem_machineCommands {scheduler : Scheduler} {commands : List Command}
    (loadless : ∀ command ∈ commands, command.isLoad = false) {step : Machine.Command}
    (member : step ∈ scheduler.machineCommands commands) : step.isPolled = true := by
  obtain ⟨operation, performed, stepMember⟩ := List.mem_flatMap.mp member
  have free := isLoad_of_mem_operations loadless performed
  obtain ⟨before, command⟩ := operation
  cases command with
  | load => contradiction
  | poll => exact isPolled_of_mem_poll stepMember
  | keyEvent =>
    rw [List.mem_singleton.mp stepMember]
    rfl
  | _ => contradiction

/-- No load that succeeds is in what an operation other than a load comes down to. -/
theorem reloads_of_mem_machineCommands {scheduler : Scheduler} {command : Command}
    (loadless : command.isLoad = false) {step : Machine.Command}
    (member : step ∈ scheduler.machineCommands [command]) : step.reloads = false := by
  have polled := isPolled_of_mem_machineCommands
    (fun only here => by rwa [List.mem_singleton.mp here]) member
  exact Machine.reloads_of_isPolled polled

end Scheduler

end ChipEight
