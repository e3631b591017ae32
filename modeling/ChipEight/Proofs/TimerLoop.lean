/-
This file proves that the timer loop follows the clock and nothing else.

What concerns the timers in the history of a scheduler is written down as a list: the
instants at which the loops are started and polled, the requests to stop, and the number
of ticks in each poll. A tick makes itself known by the tone, which it starts or stops.
When the next tick is due is read off this list alone, without a look at any scheduler:
at once when the loops are started, and one interval after the last tick otherwise. The
content here is that every poll ticks once if a tick is due and not at all if none is,
so that nothing the instruction loop does, and no error and no key, can show in the
ticks.
-/

import ChipEight.Proofs.Composition

namespace ChipEight

/-! ### Ticks in what a scheduler does -/

/-- Whether an activity is the mark of a tick. -/
def Activity.isTone : Activity → Bool
  | startTone | stopTone => true
  | notice _ | flush _ => false

/-- Whether an activity starts the tone or stops it, if it does one of them. -/
def Activity.tone? : Activity → Option Bool
  | startTone => some true
  | stopTone => some false
  | notice _ | flush _ => none

/-- The tones among what a scheduler does, in order: `true` where it starts and `false` where it
stops. -/
def tonesOf (activity : Array Activity) : List Bool := activity.toList.filterMap Activity.tone?

theorem tonesOf_append (first second : Array Activity) :
    tonesOf (first ++ second) = tonesOf first ++ tonesOf second := by
  simp [tonesOf]

theorem tonesOf_reporting (notices : Array Notice) :
    tonesOf (Scheduler.reporting notices) = [] := by
  rw [tonesOf, Scheduler.reporting, Array.toList_map, List.filterMap_map,
    List.filterMap_eq_nil_iff]
  intro notice _
  rfl

theorem countP_isTone (activity : Array Activity) :
    activity.countP Activity.isTone = (tonesOf activity).length := by
  have same : Activity.isTone = fun activity => activity.tone?.isSome :=
    funext fun activity => by cases activity <;> rfl
  rw [← Array.countP_toList, tonesOf, List.length_filterMap_eq_countP, same]

namespace Machine

/-- The machines that the ticks of a history find, the first first. -/
def beforeTicks (machine : Machine) : List Command → List Machine
  | [] => []
  | command :: rest =>
    (if command = .tick then [machine] else []) ++
      (machine.perform command).machine.beforeTicks rest

theorem length_beforeTicks (machine : Machine) (commands : List Command) :
    (machine.beforeTicks commands).length = commands.count .tick := by
  induction commands generalizing machine with
  | nil => rfl
  | cons command rest previous =>
    rw [beforeTicks, List.length_append, previous, List.count_cons, Nat.add_comm]
    by_cases tick : command = .tick <;> simp [tick]

/-- Cycles that a scheduler executes show nothing of a kind that is neither a screen nor among the
notices of cycles. -/
theorem filterMap_shown_eq_nil {Value : Type} {pick? : Activity → Option Value}
    (screens : ∀ screen, pick? (.flush screen) = none)
    (stops : ∀ address, pick? (.notice (.cpuLoopStopped address)) = none)
    (notices : ∀ machine : Machine,
      (Scheduler.reporting machine.cycle.notices).toList.filterMap pick? = [])
    (machine : Machine) (count : Nat) : (machine.shown count).toList.filterMap pick? = [] := by
  induction count generalizing machine with
  | zero => rfl
  | succ count previous =>
    rw [shown, Array.toList_append, List.filterMap_append, notices, List.nil_append]
    split
    case h_1 => exact List.filterMap_cons_none (stops _)
    case h_2 flow _ =>
      have screen :
          (if flow.isDirty then #[.flush machine.cycle.machine.screen] else #[] :
            Array Activity).toList.filterMap pick? = [] := by
        split
        · exact List.filterMap_cons_none (screens _)
        · rfl
      rw [Array.toList_append, List.filterMap_append, screen, List.nil_append]
      split
      · rfl
      · exact previous _

theorem tonesOf_shown (machine : Machine) (count : Nat) : tonesOf (machine.shown count) = [] :=
  filterMap_shown_eq_nil (fun _ => rfl) (fun _ => rfl) (fun _ => tonesOf_reporting _) machine count

/-- The tones of operations that a scheduler performs on its machine are those of the ticks. A tick
starts the tone if it finds the sound timer running, and stops it otherwise. -/
theorem tonesOf_exhibits (machine : Machine) (commands : List Command) :
    tonesOf (machine.exhibits commands) =
      (machine.beforeTicks commands).map fun before => decide (before.sound ≠ 0) := by
  induction commands generalizing machine with
  | nil => rfl
  | cons command rest previous =>
    have here : tonesOf (machine.exhibit command) =
        (if command = .tick then [machine] else []).map
          fun before => decide (before.sound ≠ 0) := by
      cases command with
      | run count => exact machine.tonesOf_shown count
      | tick => cases sounds : machine.isBuzzing <;> simp_all [exhibit, isBuzzing] <;> rfl
      | keyEvent event => exact tonesOf_reporting _
      | _ => rfl
    rw [exhibits, tonesOf_append, here, previous, beforeTicks, List.map_append]

/-- The tone marks the ticks among the operations that a scheduler performs on its machine. -/
theorem countP_isTone_exhibits (machine : Machine) (commands : List Command) :
    (machine.exhibits commands).countP Activity.isTone = commands.count .tick := by
  rw [countP_isTone, tonesOf_exhibits, List.length_map, length_beforeTicks]

end Machine

namespace Scheduler

/-- Whatever the order of the loops, they tick once if the timer loop is due. -/
theorem count_tick_loopCommands (scheduler : Scheduler) (now : Nat) :
    (scheduler.loopCommands now).count .tick = if scheduler.timers.isDue now then 1 else 0 := by
  have batch : (scheduler.batchCommands now).count .tick = 0 := by
    unfold batchCommands
    split <;> rfl
  have tick : (scheduler.tickCommands now).count .tick =
      if scheduler.timers.isDue now then 1 else 0 := by
    unfold tickCommands
    split <;> rfl
  rw [loopCommands, List.count_append, List.count_append, batch, ← tick]
  unfold aheadOfBatch behindBatch
  split <;> simp

/-- The number of ticks in a poll. -/
def ticksIn (scheduler : Scheduler) (now : Nat) : Nat :=
  (scheduler.poll now).activity.countP Activity.isTone

/-- A poll ticks once if the timer loop is due after a request to stop is obeyed, and otherwise
not at all. -/
theorem ticksIn_eq {scheduler : Scheduler} (coherent : scheduler.Coherent) (now : Nat) :
    scheduler.ticksIn now = if scheduler.ready.timers.isDue now then 1 else 0 := by
  have stopping : scheduler.stopActivity.countP Activity.isTone = 0 := by
    unfold stopActivity
    split <;> rfl
  have input : scheduler.inputCommands.count .tick = 0 := by
    simp [inputCommands, List.count_eq_zero]
  rw [ticksIn, poll_eq coherent, Array.countP_append, Array.countP_append, stopping,
    Machine.countP_isTone_exhibits, Machine.countP_isTone_exhibits, input,
    count_tick_loopCommands]
  simp only [Nat.zero_add]

end Scheduler

/-! ### The timers in a history -/

/-- What concerns the timers in a history. -/
inductive TimerEntry
  | activated (now : Nat)
  /-- The loops were stopped, or asked to stop. -/
  | stopped
  | polled (now ticks : Nat)
  deriving DecidableEq, Repr

namespace TimerEntry

/-- The entry without the number of ticks. -/
def withoutTicks : TimerEntry → TimerEntry
  | polled now _ => polled now 0
  | entry => entry

/-- The instant of the tick, if there was one. -/
def tick? : TimerEntry → Option Nat
  | polled now (_ + 1) => some now
  | _ => none

/-- When the next tick is due after an entry, given when it was due before. -/
def dueNext (interval : Nat) (due : Option Nat) : TimerEntry → Option Nat
  | activated now => some now
  | stopped => none
  | polled _ 0 => due
  | polled now (_ + 1) => some (now + interval)

/-- Whether a poll ticks once if a tick is due, and otherwise not at all. -/
def OnTime (due : Option Nat) : TimerEntry → Prop
  | polled now ticks => ticks = if due.any (· ≤ now) then 1 else 0
  | _ => True

theorem OnTime.unique {due : Option Nat} {first second : TimerEntry} (onTime : first.OnTime due)
    (onTime' : second.OnTime due) (same : first.withoutTicks = second.withoutTicks) :
    first = second := by
  cases first <;> cases second <;> simp_all [withoutTicks, OnTime]

end TimerEntry

/-- When the next tick is due after a list of entries. -/
def dueAfter (interval : Nat) (due : Option Nat) (entries : List TimerEntry) : Option Nat :=
  entries.foldl (TimerEntry.dueNext interval) due

/-- Whether every poll in a list of entries is on time. -/
def OnTime (interval : Nat) (due : Option Nat) : List TimerEntry → Prop
  | [] => True
  | entry :: rest => entry.OnTime due ∧ OnTime interval (entry.dueNext interval due) rest

section Entries

variable {interval : Nat} {due : Option Nat}

theorem onTime_append {first second : List TimerEntry} :
    OnTime interval due (first ++ second) ↔
      OnTime interval due first ∧ OnTime interval (dueAfter interval due first) second := by
  induction first generalizing due with
  | nil => simp [OnTime, dueAfter]
  | cons entry rest previous => rw [List.cons_append, OnTime, previous, OnTime, and_assoc]; rfl

theorem dueAfter_append {first second : List TimerEntry} :
    dueAfter interval due (first ++ second) =
      dueAfter interval (dueAfter interval due first) second :=
  List.foldl_append

/-- Where every poll is on time, the entries without the ticks determine the ticks. -/
theorem OnTime.unique {first second : List TimerEntry} (onTime : OnTime interval due first)
    (onTime' : OnTime interval due second)
    (same : first.map TimerEntry.withoutTicks = second.map TimerEntry.withoutTicks) :
    first = second := by
  induction first generalizing due second with
  | nil => exact (List.map_eq_nil_iff.mp same.symm).symm
  | cons entry rest previous =>
    cases second with
    | nil => contradiction
    | cons entry' rest' =>
      obtain ⟨here, later⟩ := List.cons.inj same
      obtain rfl := onTime.1.unique onTime'.1 here
      rw [previous onTime.2 onTime'.2 later]

/-- Between two starts, ticks are one interval apart at least, and the first of them is not
before it is due. -/
theorem OnTime.spaced {entries : List TimerEntry} (onTime : OnTime interval due entries)
    (unbroken : ∀ now, .activated now ∉ entries) :
    (∀ instant ∈ entries.filterMap TimerEntry.tick?, due.any (· ≤ instant)) ∧
      (entries.filterMap TimerEntry.tick?).Pairwise fun earlier later =>
        earlier + interval ≤ later := by
  induction entries generalizing due with
  | nil => exact ⟨nofun, .nil⟩
  | cons entry rest previous =>
    obtain ⟨later, apart⟩ :=
      previous onTime.2 fun now member => unbroken now (List.mem_cons_of_mem _ member)
    cases entry with
    | activated now => exact absurd List.mem_cons_self (unbroken now)
    | stopped =>
      have none (instant : Nat) : instant ∉ rest.filterMap TimerEntry.tick? :=
        fun member => Bool.false_ne_true (later instant member)
      exact ⟨fun instant member => absurd member (none instant), apart⟩
    | polled now ticks =>
      have ticked := onTime.1
      cases ready : due.any (· ≤ now) with
      | false =>
        obtain rfl : ticks = 0 := by rw [TimerEntry.OnTime, ready] at ticked; exact ticked
        exact ⟨later, apart⟩
      | true =>
        obtain rfl : ticks = 1 := by rw [TimerEntry.OnTime, ready] at ticked; exact ticked
        have after : ∀ instant ∈ rest.filterMap TimerEntry.tick?, now + interval ≤ instant :=
          fun instant member => of_decide_eq_true (later instant member)
        refine ⟨fun instant member => ?_, List.pairwise_cons.mpr ⟨after, apart⟩⟩
        rcases List.mem_cons.mp member with rfl | member
        · exact ready
        · cases due with
          | none => contradiction
          | some first =>
            have past : first ≤ now := of_decide_eq_true ready
            have next := after instant member
            exact decide_eq_true (by omega)

/-- Instants that are an interval apart at least span as many intervals as lie between them. -/
theorem span_of_pairwise {instants : List Nat} {earliest latest : Nat}
    (apart : instants.Pairwise fun earlier later => earlier + interval ≤ later)
    (head : instants.head? = some earliest) (last : instants.getLast? = some latest) :
    earliest + (instants.length - 1) * interval ≤ latest := by
  induction instants generalizing earliest with
  | nil => contradiction
  | cons instant rest previous =>
    obtain rfl := Option.some.inj head
    cases rest with
    | nil =>
      obtain rfl := Option.some.inj last
      simp
    | cons next rest =>
      obtain ⟨here, later⟩ := List.pairwise_cons.mp apart
      have gap := here next List.mem_cons_self
      have span := previous later rfl (by rwa [List.getLast?_cons_cons] at last)
      simp only [List.length_cons, Nat.add_sub_cancel] at span ⊢
      rw [Nat.succ_mul]
      omega

end Entries

namespace Scheduler

/-- What a single operation means for the timers. A request to stop that comes with the input
is found in a poll, and obeyed in the next one. -/
def Operation.timerEntries : Operation → List TimerEntry
  | ⟨_, .activate now⟩ => [.activated now]
  | ⟨before, .poll now⟩ =>
    .polled now (before.ticksIn now) :: if before.input.asksToStop then [.stopped] else []
  | ⟨_, .stop⟩ | ⟨_, .requestStop⟩ => [.stopped]
  | _ => []

/-- What concerns the timers in a history. -/
def timerHistory (scheduler : Scheduler) (commands : List Command) : List TimerEntry :=
  (scheduler.operations commands).flatMap Operation.timerEntries

/-- The timer loop of a scheduler has the given interval and is due as given. -/
structure Tracks (scheduler : Scheduler) (interval : Nat) (due : Option Nat) : Prop where
  interval : scheduler.timers.interval = interval
  due : due =
    if scheduler.timers.active && !scheduler.stopRequested then some scheduler.timers.next else none

section Tracking

variable {scheduler : Scheduler} {interval : Nat} {due : Option Nat}

theorem tracks_create (machine : Machine) (now : Nat) :
    (create machine now).Tracks machine.settings.timerInterval none :=
  ⟨rfl, rfl⟩

theorem Tracks.of_sameButError {turn turn' : Turn} (tracks : turn.scheduler.Tracks interval due)
    (same : turn'.SameButError turn) : turn'.scheduler.Tracks interval due := by
  refine ⟨?_, ?_⟩
  · rw [same.timers]
    exact tracks.interval
  · rw [same.timers, same.stopRequested]
    exact tracks.due

theorem Tracks.any_due (tracks : scheduler.Tracks interval due) (now : Nat) :
    due.any (· ≤ now) = scheduler.ready.timers.isDue now := by
  rw [tracks.due]
  cases active : scheduler.timers.active <;> cases asked : scheduler.stopRequested <;>
    simp [ready, Loop.isDue, Loop.setActive, active, asked]

/-- A poll ticks if a tick is due, and the loop is due afterwards as the entries of the poll
say. -/
theorem Tracks.poll (tracks : scheduler.Tracks interval due) (coherent : scheduler.Coherent)
    (now : Nat) :
    let entries := Operation.timerEntries ⟨scheduler, .poll now⟩
    OnTime interval due entries ∧
      (scheduler.poll now).scheduler.Tracks interval (dueAfter interval due entries) := by
  intro entries
  have ticks := ticksIn_eq coherent now
  have timers : (scheduler.poll now).scheduler.timers =
      if scheduler.ready.timers.isDue now then scheduler.ready.timers.rest now
      else scheduler.ready.timers := by rw [poll_eq coherent]
  have stops : (scheduler.poll now).scheduler.stopRequested =
      (scheduler.stopRequested || scheduler.input.asksToStop) := by rw [poll_eq coherent]; rfl
  have follows : dueAfter interval due entries =
      if scheduler.input.asksToStop then none
      else TimerEntry.dueNext interval due (.polled now (scheduler.ticksIn now)) := by
    simp only [entries, Operation.timerEntries]
    split <;> rfl
  have onTime : OnTime interval due entries := by
    have first : TimerEntry.OnTime due (.polled now (scheduler.ticksIn now)) := by
      rw [TimerEntry.OnTime, tracks.any_due, ticks]
    refine ⟨first, ?_⟩
    split
    · exact ⟨trivial, trivial⟩
    · trivial
  refine ⟨onTime, ?_⟩
  rw [follows, ticks]
  cases tick : scheduler.ready.timers.isDue now with
  | true =>
    obtain ⟨unasked, active⟩ := Bool.and_eq_true_iff.mp (Bool.and_eq_true_iff.mp tick).1
    have asked : scheduler.stopRequested = false := (Bool.not_eq_true' _).mp unasked
    rw [if_pos tick] at timers
    refine ⟨by rw [timers]; exact tracks.interval, ?_⟩
    rw [timers, stops, asked, ← tracks.interval]
    cases scheduler.input.asksToStop <;>
      simp [TimerEntry.dueNext, ready, Loop.rest, Loop.setActive, asked, active]
  | false =>
    rw [tick, if_neg Bool.false_ne_true] at timers
    refine ⟨by rw [timers]; exact tracks.interval, ?_⟩
    rw [timers, stops, tracks.due]
    cases asked : scheduler.stopRequested <;> cases scheduler.input.asksToStop <;>
      simp [TimerEntry.dueNext, ready, Loop.setActive, asked]

/-- The same for every operation but a run. -/
theorem Tracks.perform (tracks : scheduler.Tracks interval due) (coherent : scheduler.Coherent)
    {command : Command} (single : ∀ deadline now readings, command ≠ .run deadline now readings) :
    let entries := Operation.timerEntries ⟨scheduler, command⟩
    OnTime interval due entries ∧
      (scheduler.perform command).turn.scheduler.Tracks interval
        (dueAfter interval due entries) := by
  cases command with
  | poll now => exact tracks.poll coherent now
  | activate now => exact ⟨⟨trivial, trivial⟩, tracks.interval, rfl⟩
  | stop => exact ⟨⟨trivial, trivial⟩, tracks.interval, rfl⟩
  | requestStop =>
    refine ⟨⟨trivial, trivial⟩, tracks.interval, ?_⟩
    show none = if scheduler.timers.active && !true then _ else none
    simp
  | load program =>
    refine ⟨trivial, ?_⟩
    show (scheduler.load program).2.scheduler.Tracks interval due
    obtain ⟨_, loaded⟩ := scheduler.exists_load program
    rw [loaded]
    exact ⟨tracks.interval, tracks.due⟩
  | feed | stopWhenEmpty | keyEvent => exact ⟨trivial, tracks.interval, tracks.due⟩
  | run deadline now readings => exact absurd rfl (single deadline now readings)

/-- Polls that are on time, and a timer loop that is due as the entries say, compose. -/
theorem composes_onTime (interval : Nat) :
    ComposesButError fun scheduler turn entries => ∀ due, scheduler.Tracks interval due →
      OnTime interval due entries ∧
        turn.scheduler.Tracks interval (dueAfter interval due entries) where
  idle _ _ tracks := ⟨trivial, tracks⟩
  andThen here later due tracks := by
    obtain ⟨first, next⟩ := here due tracks
    obtain ⟨second, last⟩ := later _ next
    rw [onTime_append, dueAfter_append]
    exact ⟨⟨first, second⟩, last⟩
  sameButError holds same due tracks := by
    obtain ⟨onTime, last⟩ := holds due tracks
    exact ⟨onTime, last.of_sameButError same⟩

/-- In every history, every poll ticks if a tick is due. -/
theorem Tracks.onTime (tracks : scheduler.Tracks interval due) (coherent : scheduler.Coherent)
    (commands : List Command) : OnTime interval due (scheduler.timerHistory commands) := by
  have singly := (composes_onTime interval).after
    (fun _ _ coherent single _ tracks => tracks.perform coherent single) coherent commands
  exact (singly due tracks).1

end Tracking

end Scheduler

/-! ### What a scheduler is given -/

/-- Input that never asks to stop. -/
structure Input.IsQuiet (input : Input) : Prop where
  items : .stopRequest ∉ input.items
  stopsWhenEmpty : input.stopsWhenEmpty = false

theorem Input.IsQuiet.asksToStop {input : Input} (quiet : input.IsQuiet) :
    input.asksToStop = false := by
  have offered : .stopRequest ∉ input.offered := fun member =>
    quiet.items ((List.takeWhile_sublist _).mem member)
  simp [Input.asksToStop, offered, quiet.stopsWhenEmpty]

theorem Input.IsQuiet.rest {input : Input} (quiet : input.IsQuiet) : input.rest.IsQuiet := by
  refine ⟨fun member => quiet.items ?_, quiet.stopsWhenEmpty⟩
  exact ((List.tail_sublist _).trans (List.dropWhile_sublist _)).mem member

namespace Scheduler

/-- Whether an operation is no run and brings no input that asks to stop. -/
def Command.isQuiet : Command → Bool
  | .feed items => .stopRequest ∉ items
  | .stopWhenEmpty stops => !stops
  | .run _ _ _ => false
  | _ => true

/-- What an operation by itself means for the timers, apart from ticks. -/
def Command.timerEntries : Command → List TimerEntry
  | .activate now => [.activated now]
  | .poll now => [.polled now 0]
  | .stop | .requestStop => [.stopped]
  | _ => []

theorem isQuiet_input_perform {scheduler : Scheduler} (coherent : scheduler.Coherent)
    (quiet : scheduler.input.IsQuiet) {command : Command} (quietly : command.isQuiet = true) :
    (scheduler.perform command).turn.scheduler.input.IsQuiet := by
  cases command with
  | poll now =>
    have same : (scheduler.poll now).scheduler.input = scheduler.input.rest := by
      rw [poll_eq coherent]
      rfl
    show (scheduler.poll now).scheduler.input.IsQuiet
    rw [same]
    exact quiet.rest
  | feed items =>
    refine ⟨fun member => ?_, quiet.stopsWhenEmpty⟩
    rcases List.mem_append.mp member with earlier | fed
    · exact quiet.items earlier
    · exact of_decide_eq_true quietly fed
  | stopWhenEmpty stops => exact ⟨quiet.items, (Bool.not_eq_true' _).mp quietly⟩
  | load program =>
    show (scheduler.load program).2.scheduler.input.IsQuiet
    obtain ⟨_, loaded⟩ := scheduler.exists_load program
    rw [loaded]
    exact quiet
  | run => contradiction
  | _ => exact quiet

/-- Without runs and without input that asks to stop, the entries of a history are the
operations that concern the timers, whatever comes of the others. -/
theorem withoutTicks_timerHistory {scheduler : Scheduler} (coherent : scheduler.Coherent)
    (quiet : scheduler.input.IsQuiet) {commands : List Command}
    (quietly : ∀ command ∈ commands, command.isQuiet = true) :
    (scheduler.timerHistory commands).map TimerEntry.withoutTicks =
      commands.flatMap Command.timerEntries := by
  induction commands generalizing scheduler with
  | nil => rfl
  | cons command rest previous =>
    have here := quietly command List.mem_cons_self
    have later := previous (coherent.perform command) (isQuiet_input_perform coherent quiet here)
      fun command member => quietly command (List.mem_cons_of_mem _ member)
    have entries : ((scheduler.trace (scheduler.unrolled command)).flatMap
        Operation.timerEntries).map TimerEntry.withoutTicks = command.timerEntries := by
      cases command with
      | poll now =>
        simp [unrolled, trace, Operation.timerEntries, quiet.asksToStop, TimerEntry.withoutTicks,
          Command.timerEntries]
      | run => contradiction
      | _ => rfl
    rw [timerHistory, operations, List.flatMap_append, List.map_append, entries,
      List.flatMap_cons]
    exact congrArg _ later

/-- The timer ticks are the same in any two schedulers that share the timer frequency and are
started, polled and stopped alike, whatever else happens to them. A poll ticks, once, if a tick
is due: the loops were started and not stopped since, and the poll is not before their start,
or, if there was a tick since, not before one interval after the last. So ticks of one start
are an interval apart at least, however late the polls are. -/
theorem ticks_follow_the_clock (machine machine' : Machine) (first first' : Nat)
    (commands commands' : List Command)
    (sameFrequency : machine.settings.timerFrequency = machine'.settings.timerFrequency)
    (sameGiven :
      ((create machine first).timerHistory commands).map TimerEntry.withoutTicks =
        ((create machine' first').timerHistory commands').map TimerEntry.withoutTicks) :
    let interval := 1000000000 / machine.settings.timerFrequency.toNat
    let history := (create machine first).timerHistory commands
    (create machine' first').timerHistory commands' = history ∧
    (∀ before now ticks rest, history = before ++ .polled now ticks :: rest →
      ticks = if (dueAfter interval none before).any (· ≤ now) then 1 else 0) ∧
    ∀ before start between rest, history = before ++ .activated start :: between ++ rest →
      (∀ again, .activated again ∉ between) →
      let instants := between.filterMap TimerEntry.tick?
      instants.Pairwise (fun earlier later => earlier + interval ≤ later) ∧
      ∀ earliest latest, instants.head? = some earliest → instants.getLast? = some latest →
        start ≤ earliest ∧ earliest + (instants.length - 1) * interval ≤ latest := by
  intro interval history
  have onTime : OnTime interval none history :=
    (tracks_create machine first).onTime (coherent_create machine first) commands
  have sameInterval : machine'.settings.timerInterval = interval := by
    rw [Settings.timerInterval, ← sameFrequency]
  have onTime' : OnTime interval none ((create machine' first').timerHistory commands') := by
    rw [← sameInterval]
    exact (tracks_create machine' first').onTime (coherent_create machine' first') commands'
  refine ⟨onTime'.unique onTime sameGiven.symm, fun before now ticks rest cut => ?_,
    fun before start between rest cut unbroken => ?_⟩
  · rw [cut, onTime_append] at onTime
    exact onTime.2.1
  · rw [cut, onTime_append, onTime_append] at onTime
    obtain ⟨later, apart⟩ := onTime.1.2.2.spaced unbroken
    refine ⟨apart, fun earliest latest head last => ⟨?_, span_of_pairwise apart head last⟩⟩
    exact of_decide_eq_true (later earliest (List.mem_of_mem_head? head))

/-- A machine without a program that waits for a key. -/
def waiting : Machine :=
  { Machine.unloaded with
    settings := { tickrate := 2, cyclesPerTick := 3 }
    awaiting := some Register.flag }

/-- The first machine fails in the first poll and the second one waits for a key, which comes
with an event that names none. The third poll is a nanosecond early for the next tick. -/
theorem ticks_follow_the_clock_unloaded :
    let given : List Command :=
      [.activate 0, .poll 5, .poll 16666670, .poll 16666671, .stop, .poll 40000000]
    let given' : List Command :=
      [.activate 0, .keyEvent (.down 16), .poll 5, .feed [.event (.down 3), .pause],
        .poll 16666670, .poll 16666671, .requestStop, .poll 40000000]
    let history := (create Machine.unloaded 0).timerHistory given
    let history' := (create waiting 7).timerHistory given'
    Machine.unloaded.settings.timerFrequency = waiting.settings.timerFrequency ∧
    history.map TimerEntry.withoutTicks = history'.map TimerEntry.withoutTicks ∧
    history' = history ∧
    history =
      [.activated 0, .polled 5 1, .polled 16666670 0, .polled 16666671 1, .stopped,
        .polled 40000000 0] := by
  intro given given' history history'
  have quiet (machine : Machine) (now : Nat) : (create machine now).input.IsQuiet := ⟨nofun, rfl⟩
  have entries : history.map TimerEntry.withoutTicks = given.flatMap Command.timerEntries :=
    withoutTicks_timerHistory (coherent_create _ _) (quiet _ _) (by decide)
  have entries' : history'.map TimerEntry.withoutTicks = given'.flatMap Command.timerEntries :=
    withoutTicks_timerHistory (coherent_create _ _) (quiet _ _) (by decide)
  have alike : history.map TimerEntry.withoutTicks = history'.map TimerEntry.withoutTicks :=
    entries.trans entries'.symm
  have same := (ticks_follow_the_clock Machine.unloaded waiting 0 7 given given' rfl alike).1
  have onTime : OnTime 16666666 none history :=
    (tracks_create _ _).onTime (coherent_create _ _) given
  refine ⟨rfl, alike, same, onTime.unique ?_ entries⟩
  simp [OnTime, TimerEntry.OnTime, TimerEntry.dueNext]

end Scheduler

end ChipEight
