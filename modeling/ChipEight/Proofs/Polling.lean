/-
This file says exactly what a poll does.

A poll reaches the machine through the operations of the machine and in no other way:
the key events that the input offers, then the run of a batch and a tick, in an order
that the deadlines decide. So a poll is a list of such operations, worked out from the
scheduler before it, and the rest -- the loops, the error that is kept, what is shown,
sounded and reported -- follows from performing that list. The instruction loop looks at
the machine on its own after every cycle; the content here is that it stops where a run
of the machine stops and keeps the error of that run.
-/

import ChipEight.Proofs.Invariant
import ChipEight.Proofs.Stop
import ChipEight.Scheduler.Command

namespace ChipEight

/-! ### What the input offers -/

/-- The key event that an item of the input is, if it is one. -/
def InputItem.event? : InputItem → Option KeyEvent
  | .event keyed => some keyed
  | .pause | .stopRequest => none

namespace Input

/-- The items that are there to be taken: those before the first pause. -/
def offered (input : Input) : List InputItem := input.items.takeWhile (· ≠ .pause)

/-- The key events that are there to be taken, in order. -/
def events (input : Input) : List KeyEvent := input.offered.filterMap InputItem.event?

/-- The input once what it offers is taken, and the pause behind it. -/
def rest (input : Input) : Input :=
  { input with items := (input.items.dropWhile (· ≠ .pause)).tail }

/-- Whether taking what is offered raises a request to stop. -/
def asksToStop (input : Input) : Bool :=
  .stopRequest ∈ input.offered ∨ (input.stopsWhenEmpty = true ∧ .pause ∉ input.items)

end Input

/-! ### What operations on the machine show -/

namespace Machine

/-- What goes out with cycles up to a number of them: their notices, and the screen after each
that wrote it. -/
def shown : Nat → Machine → Array Activity
  | 0, _ => #[]
  | count + 1, machine =>
    let outcome := machine.cycle
    Scheduler.reporting outcome.notices ++
      match outcome.result with
      | .error _ => #[.notice (.cpuLoopStopped outcome.machine.pc)]
      | .ok flow =>
        (if flow.isDirty then #[.flush outcome.machine.screen] else #[]) ++
          if flow.isBlocked then #[] else shown count outcome.machine

/-- What goes out when a scheduler performs an operation on its machine. -/
def exhibit (machine : Machine) : Command → Array Activity
  | .run count => machine.shown count
  | .tick => #[if machine.isBuzzing then .startTone else .stopTone]
  | .keyEvent event =>
    let outcome := machine.applyKeyEvent event
    let refusal :=
      match outcome.result with
      | .ok _ => #[]
      | .error cause => #[Notice.eventDropped event cause]
    Scheduler.reporting (outcome.notices ++ refusal)
  | _ => #[]

/-- What goes out when a scheduler performs operations on its machine, one after the other. -/
def exhibits (machine : Machine) : List Command → Array Activity
  | [] => #[]
  | command :: rest => machine.exhibit command ++ (machine.perform command).machine.exhibits rest

theorem exhibits_append (machine : Machine) (first second : List Command) :
    machine.exhibits (first ++ second) =
      machine.exhibits first ++ (machine.after first).exhibits second := by
  induction first generalizing machine with
  | nil => simp [exhibits, after]
  | cons command rest previous =>
    rw [List.cons_append, exhibits, previous, ← Array.append_assoc]
    rfl

end Machine

/-- The error of an operation that fails. -/
def Outcome.error? {Result : Type} (outcome : Outcome Result) : Option Error :=
  match outcome.result with
  | .ok _ => none
  | .error cause => some cause

namespace Scheduler

/-! ### Taking the input -/

/-- An event from the input is performed on the machine. -/
theorem applyEvent_eq (scheduler : Scheduler) (event : KeyEvent) :
    scheduler.applyEvent event =
      ⟨{ scheduler with machine := (scheduler.machine.perform (.keyEvent event)).machine },
        scheduler.machine.exhibit (.keyEvent event)⟩ := rfl

theorem takeItems_eq (scheduler : Scheduler) (activity : Array Activity) (items : List InputItem) :
    scheduler.takeItems activity items =
      let input : Input := ⟨items, scheduler.input.stopsWhenEmpty⟩
      ⟨{ scheduler with
          machine := scheduler.machine.after (input.events.map .keyEvent)
          input := input.rest
          stopRequested := scheduler.stopRequested || input.asksToStop },
        activity ++ scheduler.machine.exhibits (input.events.map .keyEvent)⟩ := by
  induction items generalizing scheduler activity with
  | nil =>
    cases stops : scheduler.input.stopsWhenEmpty <;>
      simp [takeItems, withItems, requestStop, Input.events, Input.offered, Input.rest,
        Input.asksToStop, Machine.after, Machine.exhibits, stops]
  | cons item rest previous =>
    cases item with
    | pause =>
      simp [takeItems, withItems, Input.events, Input.offered, Input.rest, Input.asksToStop,
        Machine.after, Machine.exhibits]
    | stopRequest =>
      rw [takeItems, previous]
      simp [requestStop, Input.events, Input.offered, Input.rest, Input.asksToStop,
        InputItem.event?, List.filterMap_cons]
    | event event =>
      rw [takeItems, previous, applyEvent_eq]
      simp [Input.events, Input.offered, Input.rest, Input.asksToStop, InputItem.event?,
        Machine.after, Machine.exhibits, Array.append_assoc]

/-! ### The bodies of the loops -/

/-- A loop that is active stays as it is when it is made active. -/
theorem setActive_of_active {loop : Loop} (active : loop.active = true) :
    loop.setActive true = loop := by
  cases loop
  cases active
  rfl

/-- Cycles up to a number of them, as the instruction loop executes them, end where a run of the
machine ends: the loop goes on exactly if the run succeeds, and keeps the error with which the
run fails. The machine must not have stopped before. -/
theorem batch_eq {scheduler : Scheduler} (active : scheduler.cpu.active = true)
    (running : scheduler.machine.halted = false) (activity : Array Activity) (count : Nat)
    (last : Flow) (notices : Array Notice) :
    let outcome := Machine.runFrom last notices count scheduler.machine
    batch activity count scheduler =
      ⟨{ scheduler with
          machine := outcome.machine
          cpu := scheduler.cpu.setActive outcome.result.isOk
          error := outcome.error? <|> scheduler.error },
        activity ++ scheduler.machine.shown count⟩ := by
  induction count generalizing scheduler activity last notices with
  | zero =>
    simp [batch, Machine.runFrom, Machine.shown, Outcome.error?, Except.isOk, Except.toBool,
      setActive_of_active active]
  | succ count previous =>
    cases ended : scheduler.machine.cycle.result with
    | error cause =>
      rw [Machine.runFrom_of_error ended]
      simp [batch, Machine.shown, ended, Outcome.error?, Except.isOk, Except.toBool]
    | ok flow =>
      have runs := (Machine.halted_of_cycle_eq_ok ended).trans running
      cases blocked : flow.isBlocked with
      | true =>
        rw [Machine.runFrom_of_isBlocked ended blocked]
        cases dirty : flow.isDirty <;>
          simp [batch, Machine.shown, ended, blocked, dirty, runs, Outcome.error?, Except.isOk,
            Except.toBool, setActive_of_active active]
      | false =>
        have later := @previous { scheduler with machine := scheduler.machine.cycle.machine }
          active runs
        rw [Machine.runFrom_of_not_isBlocked ended blocked]
        simp only [batch, Machine.shown, ended, blocked, Bool.false_eq_true, if_false]
        rw [later _ flow (notices ++ scheduler.machine.cycle.notices)]
        cases dirty : flow.isDirty <;> simp

/-- The instruction loop, when it is due, runs the machine. -/
theorem pollCpu_of_isDue {scheduler : Scheduler} {now : Nat}
    (due : scheduler.cpu.isDue now = true) (running : scheduler.machine.halted = false) :
    let count := scheduler.machine.settings.cyclesPerTick.toNat
    let outcome := scheduler.machine.run count
    pollCpu now scheduler =
      ⟨{ scheduler with
          machine := outcome.machine
          cpu := (scheduler.cpu.setActive outcome.result.isOk).rest now
          error := outcome.error? <|> scheduler.error },
        scheduler.machine.shown count⟩ := by
  intro count outcome
  have active : scheduler.cpu.active = true := (Bool.and_eq_true_iff.mp due).1
  rw [pollCpu, if_pos due, batch_eq active running _ _ .next #[]]
  simp [Turn.andThen, Turn.idle, outcome, count, Machine.run]

/-! ### The loops of a poll -/

/-- The instruction loop goes on only while the machine has not stopped, and an error is kept
only once it has. -/
structure Coherent (scheduler : Scheduler) : Prop where
  running : scheduler.cpu.active = true → scheduler.machine.halted = false
  stopped : ∀ cause, scheduler.error = some cause → scheduler.machine.halted = true

/-- While the instruction loop goes on there is no error to keep. -/
theorem Coherent.error_eq_none {scheduler : Scheduler} (coherent : scheduler.Coherent)
    (active : scheduler.cpu.active = true) : scheduler.error = none := by
  cases kept : scheduler.error with
  | none => rfl
  | some cause =>
    have running := coherent.running active
    rw [coherent.stopped cause kept] at running
    cases running

/-- The batch of a poll at an instant, if there is one, as operations on the machine. -/
def batchCommands (scheduler : Scheduler) (now : Nat) : List Machine.Command :=
  if scheduler.cpu.isDue now then [.run scheduler.machine.settings.cyclesPerTick.toNat] else []

/-- The tick of a poll at an instant, if there is one, as operations on the machine. -/
def tickCommands (scheduler : Scheduler) (now : Nat) : List Machine.Command :=
  if scheduler.timers.isDue now then [.tick] else []

/-- What comes before the batch in the loops of a poll: the tick, if its loop has been due for
longer. -/
def aheadOfBatch (scheduler : Scheduler) (now : Nat) : List Machine.Command :=
  if scheduler.timers.next < scheduler.cpu.next then scheduler.tickCommands now else []

/-- What comes behind the batch in the loops of a poll. -/
def behindBatch (scheduler : Scheduler) (now : Nat) : List Machine.Command :=
  if scheduler.timers.next < scheduler.cpu.next then [] else scheduler.tickCommands now

/-- The loops of a poll at an instant, as operations on the machine. -/
def loopCommands (scheduler : Scheduler) (now : Nat) : List Machine.Command :=
  scheduler.aheadOfBatch now ++ scheduler.batchCommands now ++ scheduler.behindBatch now

/-- What the run answers that the batch of a poll stands for. -/
def batchOutcome (scheduler : Scheduler) (now : Nat) : Outcome Flow :=
  (scheduler.machine.after (scheduler.aheadOfBatch now)).run
    scheduler.machine.settings.cyclesPerTick.toNat

theorem pollTimers_eq (scheduler : Scheduler) (now : Nat) :
    pollTimers now scheduler =
      ⟨{ scheduler with
          machine := scheduler.machine.after (scheduler.tickCommands now)
          timers :=
            if scheduler.timers.isDue now then scheduler.timers.rest now else scheduler.timers },
        scheduler.machine.exhibits (scheduler.tickCommands now)⟩ := by
  unfold pollTimers tickCommands
  cases scheduler.timers.isDue now <;> rfl

theorem pollCpu_eq {scheduler : Scheduler} (coherent : scheduler.Coherent) (now : Nat) :
    let outcome := scheduler.machine.run scheduler.machine.settings.cyclesPerTick.toNat
    pollCpu now scheduler =
      ⟨{ scheduler with
          machine := scheduler.machine.after (scheduler.batchCommands now)
          cpu :=
            if scheduler.cpu.isDue now then (scheduler.cpu.setActive outcome.result.isOk).rest now
            else scheduler.cpu
          error := if scheduler.cpu.isDue now then outcome.error? else scheduler.error },
        scheduler.machine.exhibits (scheduler.batchCommands now)⟩ := by
  intro outcome
  cases due : scheduler.cpu.isDue now with
  | false => simp [pollCpu, batchCommands, due, Turn.idle, Machine.after, Machine.exhibits]
  | true =>
    have active := (Bool.and_eq_true_iff.mp due).1
    have clear := coherent.error_eq_none active
    rw [pollCpu_of_isDue due (coherent.running active)]
    simp [batchCommands, due, clear, Machine.after, Machine.exhibits, Machine.perform,
      Machine.replying, Machine.exhibit, outcome]

/-- A tick changes nothing that the instruction loop looks at. -/
theorem after_tickCommands (scheduler : Scheduler) (now : Nat) :
    ∃ delay sound, scheduler.machine.after (scheduler.tickCommands now) =
      { scheduler.machine with delay := delay, sound := sound } := by
  unfold tickCommands
  split <;> exact ⟨_, _, rfl⟩

theorem runLoops_eq {scheduler : Scheduler} (coherent : scheduler.Coherent) (now : Nat) :
    let outcome := scheduler.batchOutcome now
    runLoops now scheduler =
      ⟨{ scheduler with
          machine := scheduler.machine.after (scheduler.loopCommands now)
          cpu :=
            if scheduler.cpu.isDue now then (scheduler.cpu.setActive outcome.result.isOk).rest now
            else scheduler.cpu
          timers :=
            if scheduler.timers.isDue now then scheduler.timers.rest now else scheduler.timers
          error := if scheduler.cpu.isDue now then outcome.error? else scheduler.error },
        scheduler.machine.exhibits (scheduler.loopCommands now)⟩ := by
  intro outcome
  by_cases first : scheduler.timers.next < scheduler.cpu.next
  · have ahead : scheduler.aheadOfBatch now = scheduler.tickCommands now := if_pos first
    have behind : scheduler.behindBatch now = [] := if_pos first
    obtain ⟨delay, sound, ticked⟩ := scheduler.after_tickCommands now
    have batch : (scheduler.machine.after (scheduler.tickCommands now)).settings =
        scheduler.machine.settings := by rw [ticked]
    -- The batch finds the machine as the tick leaves it.
    have still : Coherent { scheduler with
        machine := scheduler.machine.after (scheduler.tickCommands now)
        timers :=
          if scheduler.timers.isDue now then scheduler.timers.rest now else scheduler.timers } := by
      rw [ticked]
      exact ⟨coherent.running, coherent.stopped⟩
    rw [runLoops, if_pos first, pollTimers_eq, Turn.andThen, pollCpu_eq still, loopCommands, ahead,
      behind, List.append_nil, Machine.after_append, Machine.exhibits_append]
    simp only [outcome, batchOutcome, ahead, batchCommands, batch]
  · have ahead : scheduler.aheadOfBatch now = [] := if_neg first
    have behind : scheduler.behindBatch now = scheduler.tickCommands now := if_neg first
    rw [runLoops, if_neg first, pollCpu_eq coherent, Turn.andThen, pollTimers_eq, loopCommands,
      ahead, behind, List.nil_append, Machine.after_append, Machine.exhibits_append]
    simp only [outcome, batchOutcome, ahead]
    rfl

/-! ### Before the loops -/

/-- The operations on the machine that taking the input stands for. -/
def inputCommands (scheduler : Scheduler) : List Machine.Command :=
  scheduler.input.events.map .keyEvent

/-- The scheduler as a poll brings it to the loops: a request to stop is obeyed and the input is
taken. A request that the input raises is left for the next poll. -/
def ready (scheduler : Scheduler) : Scheduler where
  machine := scheduler.machine.after scheduler.inputCommands
  input := scheduler.input.rest
  cpu := scheduler.cpu.setActive (!scheduler.stopRequested && scheduler.cpu.active)
  timers := scheduler.timers.setActive (!scheduler.stopRequested && scheduler.timers.active)
  stopRequested := scheduler.stopRequested || scheduler.input.asksToStop
  error := scheduler.error

/-- What goes out when a poll obeys a request to stop. -/
def stopActivity (scheduler : Scheduler) : Array Activity :=
  if scheduler.stopRequested && scheduler.isRunning then #[.notice .loopsStopping] else #[]

theorem obeyStop_andThen_takeInput (scheduler : Scheduler) :
    scheduler.obeyStop.andThen takeInput =
      ⟨scheduler.ready,
        scheduler.stopActivity ++ scheduler.machine.exhibits scheduler.inputCommands⟩ := by
  unfold obeyStop Turn.andThen takeInput stopActivity
  cases asked : scheduler.stopRequested with
  | false => simp [takeItems_eq, ready, inputCommands, Turn.idle, Loop.setActive, asked]
  | true =>
    cases running : scheduler.isRunning <;>
      simp [takeItems_eq, ready, inputCommands, stop, asked, running]

/-- Key events change nothing but the keypad, a wait for a key and registers. -/
theorem after_keyEvents (machine : Machine) (events : List KeyEvent) :
    ∃ keypad awaiting registers, machine.after (events.map .keyEvent) =
      { machine with keypad := keypad, awaiting := awaiting, registers := registers } := by
  induction events generalizing machine with
  | nil => exact ⟨machine.keypad, machine.awaiting, machine.registers, rfl⟩
  | cons event rest previous =>
    have first : ∃ keypad awaiting registers, (machine.applyKeyEvent event).machine =
        { machine with keypad := keypad, awaiting := awaiting, registers := registers } := by
      unfold Machine.applyKeyEvent
      split
      case h_1 key _ => exact machine.exists_setKey key event.isPress
      case h_2 => exact ⟨machine.keypad, machine.awaiting, machine.registers, rfl⟩
    obtain ⟨_, _, _, changed⟩ := first
    obtain ⟨keypad, awaiting, registers, later⟩ := previous (machine.applyKeyEvent event).machine
    refine ⟨keypad, awaiting, registers, ?_⟩
    rw [List.map_cons, Machine.after, Machine.perform, Machine.replying, later, changed]

theorem Coherent.ready {scheduler : Scheduler} (coherent : scheduler.Coherent) :
    scheduler.ready.Coherent := by
  obtain ⟨_, _, _, keyed⟩ := after_keyEvents scheduler.machine scheduler.input.events
  have halted : scheduler.ready.machine.halted = scheduler.machine.halted := by
    rw [Scheduler.ready, inputCommands, keyed]
  refine ⟨fun active => ?_, fun cause kept => ?_⟩
  · rw [halted]
    exact coherent.running (Bool.and_eq_true_iff.mp active).2
  · rw [halted]
    exact coherent.stopped cause kept

/-- What a poll does, worked out from the scheduler before it. -/
theorem poll_eq {scheduler : Scheduler} (coherent : scheduler.Coherent) (now : Nat) :
    let ready := scheduler.ready
    let outcome := ready.batchOutcome now
    scheduler.poll now =
      ⟨{ ready with
          machine := ready.machine.after (ready.loopCommands now)
          cpu :=
            if ready.cpu.isDue now then (ready.cpu.setActive outcome.result.isOk).rest now
            else ready.cpu
          timers := if ready.timers.isDue now then ready.timers.rest now else ready.timers
          error := if ready.cpu.isDue now then outcome.error? else ready.error },
        scheduler.stopActivity ++ scheduler.machine.exhibits scheduler.inputCommands ++
          ready.machine.exhibits (ready.loopCommands now)⟩ := by
  rw [poll, obeyStop_andThen_takeInput, Turn.andThen, runLoops_eq coherent.ready]

/-- A poll performs nothing in its loops exactly if none of them is due. -/
theorem loopCommands_eq_nil_iff (scheduler : Scheduler) (now : Nat) :
    scheduler.loopCommands now = [] ↔
      scheduler.cpu.isDue now = false ∧ scheduler.timers.isDue now = false := by
  unfold loopCommands aheadOfBatch behindBatch batchCommands tickCommands
  by_cases first : scheduler.timers.next < scheduler.cpu.next <;>
    cases scheduler.cpu.isDue now <;> cases scheduler.timers.isDue now <;> simp [first]

/-- A poll that finds no loop due leaves the scheduler as it would have brought it to the loops. -/
theorem poll_of_not_due {scheduler : Scheduler} {now : Nat}
    (batch : scheduler.ready.cpu.isDue now = false)
    (tick : scheduler.ready.timers.isDue now = false) :
    scheduler.poll now =
      ⟨scheduler.ready,
        scheduler.stopActivity ++ scheduler.machine.exhibits scheduler.inputCommands⟩ := by
  have idle (scheduler : Scheduler) (batch : scheduler.cpu.isDue now = false)
      (tick : scheduler.timers.isDue now = false) :
      runLoops now scheduler = Turn.idle scheduler := by
    simp [runLoops, pollCpu, pollTimers, batch, tick, Turn.andThen, Turn.idle]
  rw [poll, obeyStop_andThen_takeInput, Turn.andThen, idle _ batch tick]
  simp [Turn.idle]

/-! ### Schedulers that can be reached -/

/-- The ticks of a poll leave the stop and the settings alone. -/
theorem halted_after_ticks (scheduler : Scheduler) (machine : Machine) (now : Nat) :
    (machine.after (scheduler.aheadOfBatch now)).halted = machine.halted ∧
      (machine.after (scheduler.behindBatch now)).halted = machine.halted := by
  unfold aheadOfBatch behindBatch tickCommands
  constructor <;> (repeat' split) <;> rfl

theorem Coherent.poll {scheduler : Scheduler} (coherent : scheduler.Coherent) (now : Nat) :
    (scheduler.poll now).scheduler.Coherent := by
  rw [poll_eq coherent]
  have kept := coherent.ready
  generalize scheduler.ready = ready at kept
  have ahead := (ready.halted_after_ticks ready.machine now).1
  have ended : (ready.machine.after (ready.loopCommands now)).halted =
      ((ready.machine.after (ready.aheadOfBatch now)).after (ready.batchCommands now)).halted := by
    rw [loopCommands, Machine.after_append, Machine.after_append]
    exact (ready.halted_after_ticks _ now).2
  cases due : ready.cpu.isDue now with
  | false =>
    rw [batchCommands, due] at ended
    replace ended := ended.trans ahead
    refine ⟨fun active => ?_, fun cause failed => ?_⟩
    · exact ended.trans (kept.running active)
    · exact ended.trans (kept.stopped cause failed)
  | true =>
    have running := ahead.trans (kept.running (Bool.and_eq_true_iff.mp due).1)
    rw [batchCommands, due] at ended
    replace ended : (ready.machine.after (ready.loopCommands now)).halted =
      (ready.batchOutcome now).machine.halted := ended
    cases answer : (ready.batchOutcome now).result with
    | ok flow =>
      have free := (Machine.halted_of_runFrom_eq_ok answer).trans running
      refine ⟨fun _ => ended.trans free, fun cause failed => ?_⟩
      simp [Outcome.error?, answer] at failed
    | error cause =>
      have stopped := (Machine.halted_of_run_eq_error answer).2
      refine ⟨fun active => ?_, fun _ _ => ended.trans stopped⟩
      simp [Loop.rest, Loop.setActive, Except.isOk, Except.toBool] at active

theorem Coherent.stop {scheduler : Scheduler} (coherent : scheduler.Coherent) :
    scheduler.stop.scheduler.Coherent :=
  ⟨nofun, coherent.stopped⟩

theorem Coherent.activate {scheduler : Scheduler} (coherent : scheduler.Coherent) (now : Nat) :
    (scheduler.activate now).scheduler.Coherent :=
  ⟨fun active => (Bool.not_eq_true' _).mp active, coherent.stopped⟩

/-- A load reaches the machine and the error that is kept, and nothing else of a scheduler. -/
theorem exists_load (scheduler : Scheduler) (program : List UInt8) :
    ∃ error, (scheduler.load program).2.scheduler =
      { scheduler with machine := (scheduler.machine.load program).machine, error := error } := by
  unfold load
  dsimp only
  split <;> exact ⟨_, rfl⟩

theorem Coherent.load {scheduler : Scheduler} (coherent : scheduler.Coherent)
    (program : List UInt8) : (scheduler.load program).2.scheduler.Coherent := by
  unfold Scheduler.load Machine.load
  split
  case isTrue => exact ⟨fun _ => rfl, nofun⟩
  case isFalse => exact ⟨coherent.running, coherent.stopped⟩

theorem Coherent.pollUntil {scheduler : Scheduler} (coherent : scheduler.Coherent)
    (deadline : Option Nat) (now : Nat) :
    (pollUntil deadline now scheduler).scheduler.Coherent := by
  unfold Scheduler.pollUntil
  split
  case isTrue => exact coherent.stop.poll now
  case isFalse => exact coherent.poll now

theorem Coherent.pollThrough {turn : Turn} (coherent : turn.scheduler.Coherent)
    (deadline : Option Nat) (readings : List Nat) :
    (pollThrough deadline readings turn).turn.scheduler.Coherent := by
  induction readings generalizing turn with
  | nil => exact coherent
  | cons now readings previous =>
    have polled := coherent.pollUntil deadline now
    unfold Scheduler.pollThrough
    dsimp only
    split
    case h_1 => exact previous polled
    case h_2 => exact ⟨polled.running, nofun⟩

theorem Coherent.perform {scheduler : Scheduler} (coherent : scheduler.Coherent)
    (command : Command) : (scheduler.perform command).turn.scheduler.Coherent := by
  cases command with
  | load program => exact coherent.load program
  | activate now => exact coherent.activate now
  | poll now => exact coherent.poll now
  | feed items => exact ⟨coherent.running, coherent.stopped⟩
  | stopWhenEmpty stops => exact ⟨coherent.running, coherent.stopped⟩
  | keyEvent event =>
    obtain ⟨_, _, _, keyed⟩ := after_keyEvents scheduler.machine [event]
    replace keyed := congrArg Machine.halted keyed
    exact ⟨fun active => keyed.trans (coherent.running active),
      fun cause kept => keyed.trans (coherent.stopped cause kept)⟩
  | stop => exact coherent.stop
  | requestStop => exact ⟨coherent.running, coherent.stopped⟩
  | run deadline now readings =>
    have ran := (coherent.activate now).pollThrough deadline readings
    unfold Scheduler.perform runUntil
    dsimp only
    split <;> exact ran

theorem Coherent.after {scheduler : Scheduler} (coherent : scheduler.Coherent)
    (commands : List Command) : (scheduler.after commands).scheduler.Coherent := by
  induction commands generalizing scheduler with
  | nil => exact coherent
  | cons command rest previous => exact previous (coherent.perform command)

theorem coherent_create (machine : Machine) (now : Nat) : (create machine now).Coherent :=
  ⟨nofun, nofun⟩

/-- A scheduler that some history leads to from a new one over a machine with any history. -/
def Reachable (scheduler : Scheduler) : Prop :=
  ∃ machine now commands, machine.Reachable ∧
    scheduler = ((create machine now).after commands).scheduler

theorem Reachable.coherent {scheduler : Scheduler} (reachable : scheduler.Reachable) :
    scheduler.Coherent := by
  obtain ⟨machine, now, commands, -, rfl⟩ := reachable
  exact (coherent_create machine now).after commands

/-! ### What a poll does -/

/-- The instants that the active loops are due next. -/
def nextInstants (scheduler : Scheduler) : List Nat :=
  ([scheduler.cpu, scheduler.timers].filter Loop.active).map Loop.next

/-- The deadline of a scheduler is the earliest at which one of its active loops is due. -/
theorem deadline?_eq_min? (scheduler : Scheduler) :
    scheduler.deadline? = scheduler.nextInstants.min? := by
  unfold deadline? Loop.deadline? nextInstants
  cases cpu : scheduler.cpu.active <;> cases timers : scheduler.timers.active <;>
    simp [earlier?, cpu, timers]

/-- There is a deadline exactly while a loop is active. -/
theorem deadline?_eq_none_iff (scheduler : Scheduler) :
    scheduler.deadline? = none ↔ scheduler.isRunning = false := by
  unfold deadline? Loop.deadline? isRunning
  cases scheduler.cpu.active <;> cases scheduler.timers.active <;> simp [earlier?]

/-- The scheduler with other input. -/
def withInput (scheduler : Scheduler) (input : Input) : Scheduler :=
  { scheduler with input := input }

/-- A poll of any scheduler that can be reached, with whatever input, obeys a request to stop,
takes the input event by event, and then runs the loops that are due, each once at most. What
it does to the machine are operations of the machine: a batch is a run, which also decides
whether the instruction loop goes on and which error is kept. A loop that ran is due again one
interval later, and the answer is the earliest instant that an active loop is due. -/
theorem poll_performs_machine_operations (scheduler : Scheduler)
    (reachable : scheduler.Reachable) (input : Input) (now : Nat) :
    let start := scheduler.withInput input
    let ready := start.ready
    let outcome := ready.batchOutcome now
    let polled := start.poll now
    polled =
      ⟨{ ready with
          machine := ready.machine.after (ready.loopCommands now)
          cpu :=
            if ready.cpu.isDue now then (ready.cpu.setActive outcome.result.isOk).rest now
            else ready.cpu
          timers := if ready.timers.isDue now then ready.timers.rest now else ready.timers
          error := if ready.cpu.isDue now then outcome.error? else ready.error },
        start.stopActivity ++ start.machine.exhibits start.inputCommands ++
          ready.machine.exhibits (ready.loopCommands now)⟩ ∧
    (start.perform (.poll now)).result = .ok (.deadline polled.scheduler.nextInstants.min?) ∧
    ∀ (machine : Machine) (event : KeyEvent) (cause : Error),
      (machine.applyKeyEvent event).result = .error cause →
      (machine.applyKeyEvent event).machine = machine := by
  intro start ready outcome polled
  have coherent : start.Coherent := ⟨reachable.coherent.running, reachable.coherent.stopped⟩
  refine ⟨poll_eq coherent now, ?_, fun machine event cause refused => ?_⟩
  · rw [← deadline?_eq_min?]
    rfl
  · unfold Machine.applyKeyEvent at refused ⊢
    split
    case h_1 key named => rw [named] at refused; cases refused
    case h_2 => rfl

/-- A scheduler over a machine without a program, with both loops started and a key event
waiting that names no key. -/
def startedUnloaded : Scheduler :=
  ((create Machine.unloaded 0).activate 0).scheduler.withInput ⟨[.event (.down 16), .pause], false⟩

theorem reachable_startedUnloaded : startedUnloaded.Reachable :=
  ⟨Machine.unloaded, 0, [.activate 0, .feed [.event (.down 16), .pause]],
    ⟨{}, Generator.zeros, [], rfl⟩, rfl⟩

/-- The batch of a poll fails in its first cycle, after an event that names no key. -/
theorem poll_performs_machine_operations_startedUnloaded :
    startedUnloaded.Reachable ∧
      (startedUnloaded.poll 3).scheduler.error = some (.unknownWord 0 0x200) ∧
      (startedUnloaded.poll 3).scheduler.cpu = ⟨false, 3, 0⟩ ∧
      (startedUnloaded.poll 3).scheduler.timers = ⟨true, 16666669, 16666666⟩ := by
  have polled : startedUnloaded.poll 3 = _ := (poll_performs_machine_operations startedUnloaded
    reachable_startedUnloaded startedUnloaded.input 3).1
  have same : startedUnloaded.withInput startedUnloaded.input = startedUnloaded := rfl
  have batch : startedUnloaded.ready.cpu.isDue 3 = true := rfl
  have tick : startedUnloaded.ready.timers.isDue 3 = true := rfl
  have failed : (startedUnloaded.ready.batchOutcome 3).result =
      .error (.unknownWord 0 0x200) := by
    have whole : startedUnloaded.ready.batchOutcome 3 =
        Machine.runFrom .next #[] (Machine.unloaded.settings.cyclesPerTick.toNat)
          Machine.unloaded := rfl
    have count : Machine.unloaded.settings.cyclesPerTick.toNat = 9 + 1 := rfl
    rw [whole, count, Machine.runFrom_of_error Machine.cycle_unloaded]
  rw [polled, same, if_pos batch, if_pos batch, if_pos tick]
  simp only
  refine ⟨reachable_startedUnloaded, ?_, ?_, ?_⟩
  · rw [Outcome.error?, failed]
  · rw [failed]
    rfl
  · rfl

end Scheduler

end ChipEight
