/-
This file proves that the keypad shows the last event of every key.

An event that names a key sets this key and no other, and an event that names none is refused
and changes nothing. Nothing else touches a key but a load that succeeds, which releases them
all: no instruction does, no tick, no error and no load that fails. So a key is pressed exactly
if the last event that named it since the last load was a press, whatever happened in between.

A scheduler takes its events from a queue, or is given them one by one. A poll applies those of
the queue in order, and a refused one stops none behind it: the poll leads where it leads
without the events that name no key.
-/

import ChipEight.Machine.Dump
import ChipEight.Proofs.Driving
import ChipEight.Proofs.Frame
import ChipEight.Proofs.KeyWait

namespace ChipEight

/-! ### Events and keys -/

namespace KeyEvent

/-- Whether an event names a key. -/
def namesKey (event : KeyEvent) : Bool := event.index.toNat < 16

/-- The event of a key that is pressed or released. -/
def ofKey (key : Key) (pressed : Bool) : KeyEvent :=
  if pressed then .down key.toByte else .up key.toByte

end KeyEvent

namespace Key

theorem ofByte?_of_lt {index : UInt8} (names : index.toNat < 16) :
    ofByte? index = some ⟨index.toNat, names⟩ := dif_pos names

theorem ofByte?_of_not_lt {index : UInt8} (unnamed : ¬ index.toNat < 16) :
    ofByte? index = none := dif_neg unnamed

theorem ofByte?_index_ofKey (key : Key) (pressed : Bool) :
    ofByte? (KeyEvent.ofKey key pressed).index = some key := by
  have each : ∀ key : Key, ofByte? key.toByte = some key := by decide
  cases pressed <;> exact each key

end Key

/-- The last of some events that has an index. -/
def lastEvent? (events : List KeyEvent) (index : UInt8) : Option KeyEvent :=
  (events.filter (·.index = index)).getLast?

theorem lastEvent?_append_self (events : List KeyEvent) (event : KeyEvent) :
    lastEvent? (events ++ [event]) event.index = some event := by
  simp [lastEvent?]

theorem lastEvent?_append_other (events : List KeyEvent) {event : KeyEvent} {index : UInt8}
    (different : event.index ≠ index) :
    lastEvent? (events ++ [event]) index = lastEvent? events index := by
  simp [lastEvent?, different]

/-- The key events of some operations, from those before them on and since the last operation
that releases all keys. -/
def eventsSince {Operation : Type} (releases : Operation → Bool)
    (eventsOf : Operation → List KeyEvent) (earlier : List KeyEvent)
    (operations : List Operation) : List KeyEvent :=
  operations.foldl
    (fun events operation => if releases operation then [] else events ++ eventsOf operation)
    earlier

/-! ### One event -/

namespace Keypad

/-- The keypad after an event, which is dropped if it names no key. -/
def apply (keypad : Keypad) (event : KeyEvent) : Keypad :=
  match Key.ofByte? event.index with
  | some key => keypad.update key event.isPress
  | none => keypad

theorem apply_ofKey (keypad : Keypad) (key : Key) (pressed : Bool) :
    keypad.apply (KeyEvent.ofKey key pressed) = keypad.update key pressed := by
  rw [apply, Key.ofByte?_index_ofKey]
  cases pressed <;> rfl

theorem isPressedAt_of_not_lt (keypad : Keypad) {index : UInt8} (unnamed : ¬ index.toNat < 16) :
    keypad.isPressedAt index = false := by
  rw [isPressedAt, Key.ofByte?_of_not_lt unnamed]

theorem isPressedAt_apply_self (keypad : Keypad) (event : KeyEvent)
    (names : event.index.toNat < 16) :
    (keypad.apply event).isPressedAt event.index = event.isPress := by
  rw [isPressedAt, apply, Key.ofByte?_of_lt names]
  exact keypad.isPressed_update_self _ _

theorem isPressedAt_apply_other (keypad : Keypad) {event : KeyEvent} {index : UInt8}
    (different : event.index ≠ index) :
    (keypad.apply event).isPressedAt index = keypad.isPressedAt index := by
  by_cases names : index.toNat < 16
  · rw [isPressedAt, isPressedAt, Key.ofByte?_of_lt names]
    by_cases sets : event.index.toNat < 16
    · have apart : (⟨index.toNat, names⟩ : Key) ≠ ⟨event.index.toNat, sets⟩ := by
        intro same
        have values : index.toNat = event.index.toNat := Fin.mk.inj same
        exact different (UInt8.toNat_inj.mp values).symm
      rw [apply, Key.ofByte?_of_lt sets]
      exact keypad.isPressed_update_other _ apart
    · rw [apply, Key.ofByte?_of_not_lt sets]
  · rw [isPressedAt_of_not_lt _ names, isPressedAt_of_not_lt _ names]

/-- A keypad shows some events: a key is pressed if the last of them that names it is a press. -/
def Shows (keypad : Keypad) (events : List KeyEvent) : Prop :=
  ∀ index, keypad.isPressedAt index = true ↔
    index.toNat < 16 ∧ lastEvent? events index = some (.down index)

theorem shows_released : released.Shows [] := by
  intro index
  have up : released.isPressedAt index = false := by
    unfold isPressedAt
    split
    · exact isPressed_released _
    · rfl
  simp [up, lastEvent?]

/-- The last event decides about the key that it names, and about no other. -/
theorem Shows.apply {keypad : Keypad} {events : List KeyEvent} (shows : keypad.Shows events)
    (event : KeyEvent) : (keypad.apply event).Shows (events ++ [event]) := by
  intro index
  by_cases same : event.index = index
  case neg => rw [isPressedAt_apply_other _ same, lastEvent?_append_other _ same, shows index]
  case pos =>
    subst same
    rw [lastEvent?_append_self]
    by_cases names : event.index.toNat < 16
    · rw [isPressedAt_apply_self _ _ names]
      cases event <;> simp_all [KeyEvent.isPress, KeyEvent.index]
    · simp [isPressedAt_of_not_lt _ names, names]

end Keypad

/-! ### Operations on a machine -/

namespace Machine

/-- The key event that an operation is. -/
def Command.keyEvents : Command → List KeyEvent
  | .keyEvent event => [event]
  | .setKey key pressed => [KeyEvent.ofKey key pressed]
  | _ => []

/-- The key events of a history since the last load that succeeds. -/
def keyEventsSinceLoad (earlier : List KeyEvent) (commands : List Command) : List KeyEvent :=
  eventsSince Command.reloads Command.keyEvents earlier commands

variable (machine : Machine)

theorem keypad_setKey (key : Key) (pressed : Bool) :
    (machine.setKey key pressed).1.keypad = machine.keypad.update key pressed := by
  unfold setKey
  split <;> rfl

theorem keypad_applyKeyEvent (event : KeyEvent) :
    (machine.applyKeyEvent event).machine.keypad = machine.keypad.apply event := by
  unfold applyKeyEvent Keypad.apply
  cases Key.ofByte? event.index with
  | some key => exact machine.keypad_setKey key event.isPress
  | none => rfl

/-- An event that names no key is refused and changes nothing. -/
theorem applyKeyEvent_of_not_namesKey {event : KeyEvent} (unnamed : event.namesKey = false) :
    machine.applyKeyEvent event = ⟨.error (.invalidKey event.index), machine, #[]⟩ := by
  rw [applyKeyEvent, Key.ofByte?_of_not_lt (of_decide_eq_false unnamed)]

/-- No instruction changes a key. -/
theorem keypad_cycle : machine.cycle.machine.keypad = machine.keypad := by
  rcases machine.covers_of_cycle with ⟨_, _, same⟩ | ⟨_, _, _, covers⟩
  · rw [same]
  · exact covers.keypad

theorem keypad_cycles (count : Nat) : (machine.cycles count).keypad = machine.keypad := by
  induction count generalizing machine with
  | zero => rfl
  | succ count previous => exact (previous machine.cycle.machine).trans machine.keypad_cycle

/-- Nothing but key events and a load that succeeds changes a key. -/
theorem keypad_perform {command : Command} (keyless : command.isKey = false)
    (stays : command.reloads = false) :
    (machine.perform command).machine.keypad = machine.keypad := by
  cases command with
  | load program =>
    rw [perform, load_of_not_reloads stays]
    rfl
  | cycle => exact machine.keypad_cycle
  | run count =>
    have ran : (machine.run count).machine = machine.cycles count := machine_runFrom
    rw [perform, replying, ran, machine.keypad_cycles]
  | loadFont => simp only [perform, loadFont]
  | tick => rfl
  | keyEvent | setKey => contradiction

variable {machine} {events : List KeyEvent}

/-- One operation keeps the keypad up to date. -/
theorem shows_perform (shows : machine.keypad.Shows events) (command : Command) :
    (machine.perform command).machine.keypad.Shows
      (keyEventsSinceLoad events [command]) := by
  have one : keyEventsSinceLoad events [command] =
      if command.reloads then [] else events ++ command.keyEvents := rfl
  rw [one]
  cases reloads : command.reloads with
  | true =>
    cases command with
    | load program =>
      rw [perform, load_of_reloads reloads]
      exact Keypad.shows_released
    | _ => contradiction
  | false =>
    cases command with
    | keyEvent event =>
      have applied := machine.keypad_applyKeyEvent event
      exact applied ▸ shows.apply event
    | setKey key pressed =>
      have applied := machine.keypad_setKey key pressed
      rw [← Keypad.apply_ofKey] at applied
      exact applied ▸ shows.apply (KeyEvent.ofKey key pressed)
    | _ =>
      rw [machine.keypad_perform rfl reloads]
      exact (List.append_nil events).symm ▸ shows

/-- So does every history. -/
theorem shows_after (shows : machine.keypad.Shows events) (commands : List Command) :
    (machine.after commands).keypad.Shows (keyEventsSinceLoad events commands) := by
  induction commands generalizing machine events with
  | nil => exact shows
  | cons command rest previous => exact previous (shows_perform shows command)

variable (machine) in
/-- The events that name no key make no difference. -/
theorem after_filter_namesKey (events : List KeyEvent) :
    machine.after ((events.filter KeyEvent.namesKey).map .keyEvent) =
      machine.after (events.map .keyEvent) := by
  induction events generalizing machine with
  | nil => rfl
  | cons event rest previous =>
    rw [List.map_cons, Machine.after]
    cases names : event.namesKey with
    | true =>
      rw [List.filter_cons_of_pos names]
      exact previous _
    | false =>
      rw [List.filter_cons_of_neg (by rw [names]; exact Bool.false_ne_true), perform,
        machine.applyKeyEvent_of_not_namesKey names]
      exact previous machine

end Machine

/-! ### The keys as text -/

/-- The digits of the keys. -/
def Key.digits : Vector Char 16 :=
  #v['0', '1', '2', '3', '4', '5', '6', '7', '8', '9', 'a', 'b', 'c', 'd', 'e', 'f']

theorem Key.name_eq (key : Key) : key.name = "k" ++ String.singleton (Key.digits.get key) := by
  have each : ∀ key : Key, key.name = "k" ++ String.singleton (Key.digits.get key) := by decide
  exact each key

/-- No two lists of keys have one text. -/
theorem Key.join_name_inj {left right : List Key}
    (same : String.join (left.map name) = String.join (right.map name)) : left = right := by
  have digit : ∀ key other : Key,
      Numeral.lowerDigit key = Numeral.lowerDigit other → key = other := by decide
  have chars (keys : List Key) : (String.join (keys.map name)).toList =
      keys.flatMap fun key : Key => ['k', Numeral.lowerDigit key] := by
    simp [String.toList_join, List.flatMap_map, name]
  replace same := congrArg String.toList same
  rw [chars, chars] at same
  induction left generalizing right with
  | nil =>
    cases right with
    | nil => rfl
    | cons => contradiction
  | cons key rest previous =>
    cases right with
    | nil => contradiction
    | cons other later =>
      obtain ⟨first, behind⟩ : _ ∧ _ := by simpa using same
      rw [digit key other first, previous behind]

namespace Keypad

variable (keypad : Keypad)

theorem mem_pressed (key : Key) : key ∈ keypad.pressed ↔ keypad.isPressed key = true := by
  simp [pressed, Key.all]

/-- The pressed keys are listed in ascending order. -/
theorem pairwise_pressed : keypad.pressed.Pairwise (· < ·) :=
  (List.pairwise_lt_finRange 16).filter keypad.isPressed

theorem pressed_eq_nil (idle : ¬ keypad.isAnyPressed = true) : keypad.pressed = [] :=
  List.filter_eq_nil_iff.mpr fun key _ pressed =>
    idle (keypad.isAnyPressed_iff.mpr ⟨key, pressed⟩)

theorem text_of_released (idle : ∀ key, keypad.isPressed key = false) : keypad.text = "" := by
  have none : keypad.isAnyPressed = false := by
    rw [← Bool.not_eq_true, isAnyPressed_iff]
    rintro ⟨key, pressed⟩
    rw [idle key] at pressed
    contradiction
  rw [text, none, if_neg Bool.false_ne_true]

theorem text_of_isPressed {key : Key} (pressed : keypad.isPressed key = true) :
    keypad.text = "keys: " ++ String.join (keypad.pressed.map fun key =>
      "k" ++ String.singleton (Key.digits.get key)) := by
  have names : Key.name = fun key => "k" ++ String.singleton (Key.digits.get key) :=
    funext Key.name_eq
  rw [text, if_pos (keypad.isAnyPressed_iff.mpr ⟨key, pressed⟩), names]

theorem text_eq_empty_iff : keypad.text = "" ↔ ∀ key, keypad.isPressed key = false := by
  refine ⟨fun empty key => eq_false_of_ne_true fun pressed => ?_, keypad.text_of_released⟩
  have chars := congrArg String.toList ((keypad.text_of_isPressed pressed).symm.trans empty)
  rw [String.toList_append] at chars
  exact List.cons_ne_nil _ _ (List.append_eq_nil_iff.mp chars).1

/-- Keypads are written alike only if the same keys are pressed. -/
theorem text_inj {left right : Keypad} : left.text = right.text ↔ left = right := by
  refine ⟨fun same => ?_, congrArg _⟩
  have listed : left.pressed = right.pressed := by
    have nonempty (names : String) : "" ≠ "keys: " ++ names := by
      intro empty
      have chars := congrArg String.toList empty
      rw [String.toList_append] at chars
      exact List.cons_ne_nil _ _ (List.append_eq_nil_iff.mp chars.symm).1
    unfold text at same
    split at same <;> split at same
    case isTrue.isTrue => exact Key.join_name_inj (String.append_right_inj _ |>.mp same)
    case isTrue.isFalse => exact absurd same.symm (nonempty _)
    case isFalse.isTrue => exact absurd same (nonempty _)
    case isFalse.isFalse idle idle' =>
      rw [left.pressed_eq_nil idle, right.pressed_eq_nil idle']
  refine ext_isPressed fun key => Bool.eq_iff_iff.mpr ?_
  rw [← mem_pressed, ← mem_pressed, listed]

end Keypad

/-! ### Polls -/

namespace Scheduler

/-- The key events that a single operation applies, in order. -/
def Operation.keyEvents : Operation → List KeyEvent
  | ⟨before, .poll _⟩ => before.input.events
  | ⟨_, .keyEvent event⟩ => [event]
  | _ => []

/-- Whether a single operation is a load that succeeds. -/
def Operation.reloads : Operation → Bool
  | ⟨_, .load program⟩ => (Machine.Command.load program).reloads
  | _ => false

/-- The key events of a history of a scheduler since the last load that succeeds. -/
def keyEventsSinceLoad (scheduler : Scheduler) (earlier : List KeyEvent)
    (history : List Command) : List KeyEvent :=
  eventsSince Operation.reloads Operation.keyEvents earlier (scheduler.operations history)

section Histories

variable (events : List KeyEvent)

/-- Operations that neither load a program nor apply key events leave the events as they are. -/
theorem keyEventsSinceLoad_of_keyless {commands : List Machine.Command}
    (keyless : ∀ command ∈ commands, command.reloads = false ∧ command.keyEvents = []) :
    Machine.keyEventsSinceLoad events commands = events := by
  induction commands with
  | nil => rfl
  | cons command rest previous =>
    obtain ⟨stays, none⟩ := keyless command List.mem_cons_self
    have first : Machine.keyEventsSinceLoad events (command :: rest) =
        Machine.keyEventsSinceLoad
          (if command.reloads then [] else events ++ command.keyEvents) rest := rfl
    rw [first, stays, none, List.append_nil]
    exact previous fun later member => keyless later (List.mem_cons_of_mem _ member)

theorem keyEventsSinceLoad_map_keyEvent (more : List KeyEvent) :
    Machine.keyEventsSinceLoad events (more.map .keyEvent) = events ++ more := by
  induction more generalizing events with
  | nil => exact (List.append_nil events).symm
  | cons event rest previous =>
    have later := previous (events ++ [event])
    rwa [List.append_assoc] at later

/-- A single operation does to the key events what its operations on the machine do. -/
theorem Operation.keyEventsSinceLoad_machineCommands (operation : Operation) :
    Machine.keyEventsSinceLoad events operation.machineCommands =
      if operation.reloads then [] else events ++ operation.keyEvents := by
  obtain ⟨before, command⟩ := operation
  cases command with
  | poll now =>
    have keyless : ∀ command ∈ before.ready.loopCommands now,
        command.reloads = false ∧ command.keyEvents = [] := by
      intro command member
      rcases run_or_tick_of_mem_loopCommands member with ⟨count, rfl⟩ | rfl <;> exact ⟨rfl, rfl⟩
    have loops := keyEventsSinceLoad_of_keyless (events ++ before.input.events) keyless
    rw [← keyEventsSinceLoad_map_keyEvent] at loops
    rw [machineCommands, Machine.keyEventsSinceLoad, eventsSince, List.foldl_append]
    exact loops.trans (keyEventsSinceLoad_map_keyEvent events before.input.events)
  | load | keyEvent => rfl
  | activate | feed | stopWhenEmpty | stop | requestStop | run =>
    exact (List.append_nil events).symm

theorem keyEventsSinceLoad_eq (scheduler : Scheduler) (history : List Command) :
    scheduler.keyEventsSinceLoad events history =
      Machine.keyEventsSinceLoad events (scheduler.machineCommands history) := by
  rw [machineCommands, Machine.keyEventsSinceLoad, eventsSince, List.foldl_flatMap,
    keyEventsSinceLoad, eventsSince]
  congr 1
  funext earlier operation
  exact (operation.keyEventsSinceLoad_machineCommands earlier).symm

variable {events}

/-- Every history of a scheduler keeps the keypad up to date. -/
theorem shows_after {scheduler : Scheduler} (coherent : scheduler.Coherent)
    (shows : scheduler.machine.keypad.Shows events) (history : List Command) :
    (scheduler.after history).scheduler.machine.keypad.Shows
      (scheduler.keyEventsSinceLoad events history) := by
  rw [(after_comesDownTo coherent history).machine, keyEventsSinceLoad_eq]
  exact Machine.shows_after shows _

end Histories

section Queue

variable (scheduler : Scheduler) (queue : List KeyEvent) (stops : Bool)

/-- The scheduler with a queue of key events for its input. -/
def withQueue : Scheduler := scheduler.withInput ⟨queue.map .event, stops⟩

theorem offered_queue : (Input.mk (queue.map .event) stops).offered = queue.map .event := by
  induction queue with
  | nil => rfl
  | cons event rest previous => exact congrArg (List.cons (InputItem.event event)) previous

theorem events_queue : (Input.mk (queue.map .event) stops).events = queue := by
  rw [Input.events, offered_queue, List.filterMap_map]
  exact List.filterMap_some

theorem rest_queue : (Input.mk (queue.map .event) stops).rest = ⟨[], stops⟩ := by
  induction queue with
  | nil => rfl
  | cons event rest previous => exact previous

/-- The loops find the same whether the events that name no key are in the queue or not. -/
theorem ready_withQueue_filter :
    (scheduler.withQueue (queue.filter KeyEvent.namesKey) stops).ready =
      (scheduler.withQueue queue stops).ready := by
  have asks (queue : List KeyEvent) :
      (Input.mk (queue.map .event) stops).asksToStop = stops := by
    cases stops <;> simp [Input.asksToStop, offered_queue]
  simp only [ready, withQueue, withInput, inputCommands, events_queue, rest_queue, asks,
    Machine.after_filter_namesKey]

variable {scheduler}

theorem Coherent.withQueue (coherent : scheduler.Coherent) :
    (scheduler.withQueue queue stops).Coherent := ⟨coherent.running, coherent.stopped⟩

theorem items_poll_withQueue (coherent : scheduler.Coherent) (now : Nat) :
    ((scheduler.withQueue queue stops).poll now).scheduler.input.items = [] := by
  rw [poll_eq (coherent.withQueue queue stops)]
  exact congrArg Input.items (rest_queue queue stops)

/-- A poll applies its whole queue. -/
theorem shows_poll_withQueue {events : List KeyEvent} (coherent : scheduler.Coherent)
    (shows : scheduler.machine.keypad.Shows events) (now : Nat) :
    ((scheduler.withQueue queue stops).poll now).scheduler.machine.keypad.Shows
      (events ++ queue) := by
  have polled : ((scheduler.withQueue queue stops).after [.poll now]).scheduler.machine.keypad.Shows
      (events ++ (Input.mk (queue.map .event) stops).events) :=
    shows_after (coherent.withQueue queue stops) shows [.poll now]
  rwa [after_singleton, events_queue] at polled

theorem poll_withQueue_filter (coherent : scheduler.Coherent) (now : Nat) :
    ((scheduler.withQueue (queue.filter KeyEvent.namesKey) stops).poll now).scheduler =
      ((scheduler.withQueue queue stops).poll now).scheduler := by
  rw [poll_eq (coherent.withQueue _ stops), poll_eq (coherent.withQueue _ stops)]
  simp only [ready_withQueue_filter]

end Queue

end Scheduler

/-- The keypad shows the last event of every key. On a machine and on a scheduler, with any
history, a key is pressed exactly if the last event that named it since the last load that
succeeded was a press. A poll empties a queue in order, and leads where it leads without the events
of the queue that name no key: such an event is refused and changes nothing. No operation but a
key event and a load changes a key. The text of the keys is empty if none is pressed, and
otherwise lists the pressed keys in ascending order. -/
theorem keypad_shows_last_events (settings : Settings) (generator : Generator) :
    let fresh := Machine.create settings generator
    (∀ history index,
      (fresh.after history).keypad.isPressedAt index = true ↔
        index.toNat < 16 ∧
          lastEvent? (Machine.keyEventsSinceLoad [] history) index = some (.down index)) ∧
    (∀ earlier created history,
      let start := Scheduler.create (fresh.after earlier) created
      let last := (start.after history).scheduler
      let events := start.keyEventsSinceLoad (Machine.keyEventsSinceLoad [] earlier) history
      (∀ index, last.machine.keypad.isPressedAt index = true ↔
        index.toNat < 16 ∧ lastEvent? events index = some (.down index)) ∧
      ∀ queue stops now,
        let polled := ((last.withQueue queue stops).poll now).scheduler
        polled.input.items = [] ∧
        (∀ index, polled.machine.keypad.isPressedAt index = true ↔
          index.toNat < 16 ∧ lastEvent? (events ++ queue) index = some (.down index)) ∧
        polled =
          ((last.withQueue (queue.filter KeyEvent.namesKey) stops).poll now).scheduler) ∧
    ∀ machine : Machine,
      (∀ event : KeyEvent, 16 ≤ event.index.toNat →
        machine.applyKeyEvent event = ⟨.error (.invalidKey event.index), machine, #[]⟩) ∧
      (∀ command : Machine.Command, command.isKey = false → command.reloads = false →
        (machine.perform command).machine.keypad = machine.keypad) ∧
      (machine.keysText = "" ↔ ∀ key, machine.keypad.isPressed key = false) ∧
      ∀ pressed, machine.keypad.isPressed pressed = true →
        ∃ keys : List Key, keys.Pairwise (· < ·) ∧
          (∀ key, key ∈ keys ↔ machine.keypad.isPressed key = true) ∧
          machine.keysText = "keys: " ++ String.join (keys.map fun key =>
            "k" ++ String.singleton (Key.digits.get key)) := by
  intro fresh
  have released : fresh.keypad.Shows [] := Keypad.shows_released
  refine ⟨fun history => Machine.shows_after released history,
    fun earlier created history => ?_, fun machine => ⟨fun event unnamed => ?_,
      fun command keyless stays => machine.keypad_perform keyless stays,
      machine.keypad.text_eq_empty_iff, fun pressed isPressed => ?_⟩⟩
  · intro start last events
    have coherent : start.Coherent := Scheduler.coherent_create _ created
    have shows : last.machine.keypad.Shows events :=
      Scheduler.shows_after coherent (Machine.shows_after released earlier) history
    have polled : last.Coherent := coherent.after history
    exact ⟨shows, fun queue stops now =>
      ⟨Scheduler.items_poll_withQueue queue stops polled now,
        Scheduler.shows_poll_withQueue queue stops polled shows now,
        (Scheduler.poll_withQueue_filter queue stops polled now).symm⟩⟩
  · exact machine.applyKeyEvent_of_not_namesKey (decide_eq_false (Nat.not_lt.mpr unnamed))
  · exact ⟨_, machine.keypad.pairwise_pressed, machine.keypad.mem_pressed,
      machine.keypad.text_of_isPressed isPressed⟩

/-- One key stays pressed, another is let go, and a byte that names no key is refused. -/
theorem keypad_shows_last_events_refused :
    let history : List Machine.Command :=
      [.keyEvent (.down 5), .keyEvent (.down 3), .keyEvent (.down 200), .tick, .setKey 3 false]
    let machine := (Machine.create {} Generator.zeros).after history
    machine.keypad.isPressedAt 5 = true ∧ ¬ machine.keypad.isPressedAt 3 = true ∧
      16 ≤ (KeyEvent.down 200).index.toNat ∧
      machine.applyKeyEvent (.down 200) = ⟨.error (.invalidKey 200), machine, #[]⟩ ∧
      (machine.perform .cycle).machine.keypad = machine.keypad ∧
      machine.keypad.isPressed 5 = true ∧ machine.keysText ≠ "" ∧
      ∃ keys : List Key, machine.keysText = "keys: " ++ String.join (keys.map fun key =>
        "k" ++ String.singleton (Key.digits.get key)) := by
  intro history machine
  obtain ⟨shows, -, anywhere⟩ := keypad_shows_last_events {} Generator.zeros
  obtain ⟨refused, kept, text, listed⟩ := anywhere machine
  have unnamed : 16 ≤ (KeyEvent.down 200).index.toNat := by decide
  have five : machine.keypad.isPressedAt 5 = true := (shows history 5).mpr (by decide)
  have three : ¬ machine.keypad.isPressedAt 3 = true := fun up =>
    absurd ((shows history 3).mp up) (by decide)
  have pressed : machine.keypad.isPressed 5 = true := five
  have nonempty : machine.keysText ≠ "" := fun empty => by
    rw [text.mp empty 5] at pressed
    contradiction
  obtain ⟨keys, -, -, names⟩ := listed 5 pressed
  exact ⟨five, three, unnamed, refused (.down 200) unnamed, kept .cycle rfl rfl, pressed,
    nonempty, keys, names⟩

end ChipEight
