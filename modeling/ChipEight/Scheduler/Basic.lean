/-
This file holds the scheduler: a machine, the input waiting for it, and the two
loops that run it.

One loop executes a batch of instructions and rests; the other counts the timers
down. They share one thread and take turns, and whoever owns the scheduler tells
it what time it is. So a scheduler is a pure function of the instants it is
polled at and of its input.

What the scheduler does to the world besides is a list of activities: screens to
show, the tone to start or to stop, and notices. They form one list because their
order matters.
-/

import ChipEight.Machine.Cycle
import ChipEight.Scheduler.Loop

namespace ChipEight

/-- What the input holds: key events, points where nothing more is there for now, and
requests to stop the loops. -/
inductive InputItem
  | event (event : KeyEvent)
  | pause
  | stopRequest
  deriving DecidableEq, Repr

/-- The input that waits for a machine. -/
structure Input where
  items : List InputItem
  /-- Whether finding no item left is itself a request to stop. -/
  stopsWhenEmpty : Bool
  deriving DecidableEq, Repr

/-- Something the scheduler does besides running the machine. -/
inductive Activity
  | notice (notice : Notice)
  /-- Show a screen. -/
  | flush (screen : Framebuffer)
  | startTone
  | stopTone
  deriving DecidableEq

/-- A machine with its input and the two loops that run it. -/
structure Scheduler where
  machine : Machine
  input : Input
  cpu : Loop
  timers : Loop
  /-- Whether somebody asked for the loops to stop. -/
  stopRequested : Bool
  /-- The error that stopped the machine, until a run hands it over. -/
  error : Option Error

/-- A scheduler after some work, and what it did. -/
structure Turn where
  scheduler : Scheduler
  activity : Array Activity

namespace Turn

def idle (scheduler : Scheduler) : Turn := ⟨scheduler, #[]⟩

def andThen (turn : Turn) (more : Scheduler → Turn) : Turn :=
  let later := more turn.scheduler
  ⟨later.scheduler, turn.activity ++ later.activity⟩

end Turn

namespace Scheduler

/-- A scheduler over a machine, with both loops idle and due at an instant. -/
def create (machine : Machine) (now : Nat) : Scheduler where
  machine := machine
  input := ⟨[], false⟩
  cpu := Loop.idle machine.settings.cpuInterval now
  timers := Loop.idle machine.settings.timerInterval now
  stopRequested := false
  error := none

def isRunning (scheduler : Scheduler) : Bool := scheduler.cpu.active || scheduler.timers.active

def reporting (notices : Array Notice) : Array Activity := notices.map Activity.notice

/-- The scheduler with more input behind the input it has. -/
def feed (scheduler : Scheduler) (items : List InputItem) : Scheduler :=
  { scheduler with input := { scheduler.input with items := scheduler.input.items ++ items } }

/-- The scheduler with a request to stop, which the next poll finds. -/
def requestStop (scheduler : Scheduler) : Scheduler := { scheduler with stopRequested := true }

/-! ### Starting and stopping -/

/-- Load a program. The loops stay as they are, and an error kept from before is forgotten
only if the program is loaded. -/
def load (scheduler : Scheduler) (program : List UInt8) : Except Error Unit × Turn :=
  let outcome := scheduler.machine.load program
  let loaded := { scheduler with machine := outcome.machine }
  let settled :=
    match outcome.result with
    | .ok _ => { loaded with error := none }
    | .error _ => loaded
  (outcome.result, ⟨settled, reporting outcome.notices⟩)

/-- Activate both loops and make them due, except the instruction loop of a machine that has
stopped. -/
def activate (scheduler : Scheduler) (now : Nat) : Turn where
  scheduler :=
    { scheduler with
      stopRequested := false
      cpu := scheduler.cpu.start (!scheduler.machine.halted) now
      timers := scheduler.timers.start true now }
  activity := #[.notice .loopsStarting]

def stop (scheduler : Scheduler) : Turn where
  scheduler :=
    { scheduler with
      cpu := scheduler.cpu.setActive false
      timers := scheduler.timers.setActive false }
  activity := if scheduler.isRunning then #[.notice .loopsStopping] else #[]

/-- Stop both loops and silence the tone, for good. -/
def destroy (scheduler : Scheduler) : Turn :=
  scheduler.stop.andThen fun stopped => ⟨stopped, #[.stopTone]⟩

/-! ### Input -/

/-- Apply a key event that came from the input. A refused one is reported and dropped. -/
def applyEvent (scheduler : Scheduler) (event : KeyEvent) : Turn :=
  let outcome := scheduler.machine.applyKeyEvent event
  let refusal :=
    match outcome.result with
    | .ok _ => #[]
    | .error cause => #[Notice.eventDropped event cause]
  ⟨{ scheduler with machine := outcome.machine }, reporting (outcome.notices ++ refusal)⟩

/-- The scheduler with the given items as its input. -/
def withItems (scheduler : Scheduler) (items : List InputItem) : Scheduler :=
  { scheduler with input := { scheduler.input with items := items } }

/-- Take items up to the first pause, which is taken too. -/
def takeItems (scheduler : Scheduler) (activity : Array Activity) : List InputItem → Turn
  | [] =>
    let emptied := scheduler.withItems []
    ⟨if emptied.input.stopsWhenEmpty then emptied.requestStop else emptied, activity⟩
  | .pause :: rest => ⟨scheduler.withItems rest, activity⟩
  | .stopRequest :: rest => scheduler.requestStop.takeItems activity rest
  | .event event :: rest =>
    let turn := scheduler.applyEvent event
    turn.scheduler.takeItems (activity ++ turn.activity) rest

/-- Take the input that is there. -/
def takeInput (scheduler : Scheduler) : Turn := scheduler.takeItems #[] scheduler.input.items

/-! ### The bodies of the loops -/

/-- Execute a batch of instructions, showing the screen after each that wrote it. The batch
ends early when the machine is blocked or fails. A machine that waits for a key keeps its
loop; one that fails loses it, and the error is kept. -/
def batch (activity : Array Activity) : Nat → Scheduler → Turn
  | 0, scheduler => ⟨scheduler, activity⟩
  | count + 1, scheduler =>
    let outcome := scheduler.machine.cycle
    let scheduler := { scheduler with machine := outcome.machine }
    let activity := activity ++ reporting outcome.notices
    match outcome.result with
    | .error cause =>
      ⟨{ scheduler with cpu := scheduler.cpu.setActive false, error := some cause },
        activity.push (.notice (.cpuLoopStopped scheduler.machine.pc))⟩
    | .ok flow =>
      let activity :=
        if flow.isDirty then activity.push (.flush scheduler.machine.screen) else activity
      if flow.isBlocked then
        ⟨{ scheduler with cpu := scheduler.cpu.setActive (!scheduler.machine.halted) }, activity⟩
      else batch activity count scheduler

/-- Run the instruction loop at an instant, if it is due. -/
def pollCpu (now : Nat) (scheduler : Scheduler) : Turn :=
  if scheduler.cpu.isDue now then
    (batch #[] scheduler.machine.settings.cyclesPerTick.toNat scheduler).andThen fun ran =>
      Turn.idle { ran with cpu := ran.cpu.rest now }
  else Turn.idle scheduler

/-- Run the timer loop at an instant, if it is due. The tone sounds through every tick that
finds the sound timer running. -/
def pollTimers (now : Nat) (scheduler : Scheduler) : Turn :=
  if scheduler.timers.isDue now then
    ⟨{ scheduler with
        machine := scheduler.machine.tick
        timers := scheduler.timers.rest now },
      #[if scheduler.machine.isBuzzing then .startTone else .stopTone]⟩
  else Turn.idle scheduler

/-! ### Polling -/

def obeyStop (scheduler : Scheduler) : Turn :=
  if scheduler.stopRequested then scheduler.stop else Turn.idle scheduler

/-- Run the loops that are due, the one that has been due longer first and the instruction
loop first when there is no difference. -/
def runLoops (now : Nat) (scheduler : Scheduler) : Turn :=
  if scheduler.timers.next < scheduler.cpu.next then
    (scheduler.pollTimers now).andThen (pollCpu now)
  else
    (scheduler.pollCpu now).andThen (pollTimers now)

/-- Do everything that is due at an instant: obey a request to stop, take the input, then run
the loops. -/
def poll (scheduler : Scheduler) (now : Nat) : Turn :=
  (scheduler.obeyStop.andThen takeInput).andThen (runLoops now)

/-- The earlier of two instants, where either may be missing. -/
def earlier? : Option Nat → Option Nat → Option Nat
  | some first, some second => some (min first second)
  | some first, none => some first
  | none, second => second

/-- The instant the next loop is due, if one is active. -/
def deadline? (scheduler : Scheduler) : Option Nat :=
  earlier? scheduler.cpu.deadline? scheduler.timers.deadline?

end Scheduler

end ChipEight
