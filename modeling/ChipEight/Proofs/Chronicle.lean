/-
This file writes down what happens to a machine in the course of a history.

Four things count: an instruction is executed, a key is pressed, the timers tick, a program
is loaded. The chronicle of a history lists them in order, and a single operation adds at
most one of them. What a machine holds can then be said in terms of the chronicle alone, as
the value that was last written to it. A statement of that kind, about a machine and the
chronicle that led to it, is shown for the five ways in which a machine evolves in one
operation and holds of all histories.
-/

import ChipEight.Proofs.Frame

namespace ChipEight.Machine

/-! ### Events -/

/-- Something that happens to a machine. -/
inductive Event
  /-- An instruction is executed. -/
  | executed (dispatch : Dispatch)
  /-- A key is pressed. -/
  | pressed (before : Machine) (key : Key) (after : Machine)
  /-- The timers tick, with the answer whether the buzzer sounds. -/
  | ticked (buzzing : Bool)
  /-- A program is loaded. -/
  | loaded

/-- What happens to a machine in an operation. -/
def eventsOf (machine : Machine) (command : Command) : List Event :=
  match command with
  | .load _ => if command.reloads then [.loaded] else []
  | .loadFont => []
  | .cycle | .run _ => (machine.performed command).map .executed
  | .tick => [.ticked machine.isBuzzing]
  | .keyEvent _ | .setKey _ _ =>
    match command.press? with
    | some key => [.pressed machine key (machine.perform command).machine]
    | none => []

/-- What happens to a machine in a history, the first first. -/
def chronicle (machine : Machine) : List Command → List Event
  | [] => []
  | command :: rest => machine.eventsOf command ++ (machine.perform command).machine.chronicle rest

theorem chronicle_append (machine : Machine) (first second : List Command) :
    machine.chronicle (first ++ second) =
      machine.chronicle first ++ (machine.after first).chronicle second := by
  induction first generalizing machine with
  | nil => rfl
  | cons command rest previous =>
    rw [List.cons_append, chronicle, previous, ← List.append_assoc]
    rfl

/-- A cycle that executes an instruction adds it to the chronicle. -/
theorem chronicle_cycle {machine : Machine} {instruction : Instruction} {step : Step}
    (running : machine.halted = false) (awake : machine.awaiting = none)
    (inside : machine.pc ≤ 0xFFE) (decoded : Instruction.decode machine.word = some instruction)
    (succeeded : machine.advance.execute machine.pc instruction = .ok step)
    (rest : List Command) :
    machine.chronicle (.cycle :: rest) =
      .executed ⟨machine, instruction, step.machine⟩ :: step.machine.chronicle rest := by
  obtain ⟨executed, same⟩ := dispatched?_of_executed running awake inside decoded succeeded
  show machine.dispatched?.toList.map .executed ++ machine.cycle.machine.chronicle rest = _
  rw [executed, same]
  rfl

/-- A load that succeeds adds itself to the chronicle. -/
theorem chronicle_load {machine : Machine} {program : List UInt8}
    (succeeds : (Command.load program).reloads = true) (rest : List Command) :
    machine.chronicle (.load program :: rest) =
      .loaded :: (machine.loaded program).chronicle rest := by
  rw [chronicle, eventsOf, if_pos succeeds, perform, load_of_reloads succeeds]
  rfl

theorem chronicle_replicate_cycle (machine : Machine) (count : Nat) :
    machine.chronicle (List.replicate count .cycle) = machine.eventsOf (.run count) := by
  induction count generalizing machine with
  | zero => rfl
  | succ count previous =>
    show machine.eventsOf .cycle ++ machine.cycle.machine.chronicle _ = _
    rw [previous]
    exact List.map_append.symm

/-- A history and its written-out form have one chronicle. -/
theorem chronicle_unroll (machine : Machine) (commands : List Command) :
    machine.chronicle (unroll commands) = machine.chronicle commands := by
  induction commands generalizing machine with
  | nil => rfl
  | cons command rest previous =>
    have here : machine.chronicle command.unrolled = machine.eventsOf command := by
      cases command with
      | run count => exact machine.chronicle_replicate_cycle count
      | _ => exact List.append_nil _
    show machine.chronicle (command.unrolled ++ unroll rest) = _
    rw [chronicle_append, here, after_unrolled, previous]
    rfl

/-! ### How a machine evolves -/

/-- How a machine evolves in one operation, with what happens to it. -/
inductive Evolves (machine : Machine) : List Event → Machine → Prop
  /-- Nothing happens. The program counter and the stop may show that a cycle failed, the memory
  that the font was loaded, and the keypad that a key was released. -/
  | nothing (pc : Nat) (halted : Bool) (memory : Memory) (keypad : Keypad) :
    Evolves machine []
      { machine with pc := pc, halted := halted, memory := memory, keypad := keypad }
  | executed {instruction : Instruction} {step : Step} (awake : machine.awaiting = none)
      (succeeded : machine.advance.execute machine.pc instruction = .ok step) :
    Evolves machine [.executed ⟨machine, instruction, step.machine⟩] step.machine
  | pressed (key : Key) :
    Evolves machine [.pressed machine key (machine.setKey key true).1] (machine.setKey key true).1
  | ticked : Evolves machine [.ticked machine.isBuzzing] machine.tick
  | loaded (program : List UInt8) : Evolves machine [.loaded] (machine.loaded program)

theorem evolves_cycle (machine : Machine) :
    machine.Evolves (machine.eventsOf .cycle) machine.cycle.machine := by
  show machine.Evolves (machine.dispatched?.toList.map .executed) machine.cycle.machine
  unfold dispatched?
  cases machine.cycled with
  | stopped halted same =>
    rw [if_pos (by rw [halted]; rfl), same]
    exact .nothing _ _ _ _
  | waiting _ waits same =>
    rw [if_pos (by rw [waits]; exact Bool.or_true _), same]
    exact .nothing _ _ _ _
  | unfetched running awake _ same | refused running awake _ _ same =>
    rw [if_neg (by rw [running, awake]; exact Bool.false_ne_true), same]
    exact .nothing _ _ _ _
  | executed running awake _ decoded succeeded same =>
    rw [if_neg (by rw [running, awake]; exact Bool.false_ne_true), same, decoded]
    exact .executed awake succeeded

theorem evolves_setKey (machine : Machine) (key : Key) (pressed : Bool) :
    machine.Evolves (machine.eventsOf (.setKey key pressed)) (machine.setKey key pressed).1 := by
  cases pressed with
  | true => exact .pressed key
  | false =>
    rw [machine.setKey_of_unanswered key false (.inr rfl)]
    exact .nothing _ _ _ _

/-- A key event that names a key presses or releases it. -/
theorem eventsOf_keyEvent (machine : Machine) {event : KeyEvent} {key : Key}
    (named : Key.ofByte? event.index = some key) :
    machine.eventsOf (.keyEvent event) = machine.eventsOf (.setKey key event.isPress) ∧
      (machine.perform (.keyEvent event)).machine = (machine.setKey key event.isPress).1 := by
  have same : (machine.perform (.keyEvent event)).machine =
      (machine.setKey key event.isPress).1 := by
    rw [perform, replying, applyKeyEvent, named]
  refine ⟨?_, same⟩
  unfold eventsOf
  simp only [Command.press?, same, named]
  cases event <;> rfl

/-- Every operation that is no run makes a machine evolve in one of these ways. -/
theorem evolves_perform (machine : Machine) {command : Command}
    (single : ∀ count, command ≠ .run count) :
    machine.Evolves (machine.eventsOf command) (machine.perform command).machine := by
  cases command with
  | load program =>
    cases loads : (Command.load program).reloads with
    | true =>
      rw [perform, load_of_reloads loads, eventsOf, if_pos loads]
      exact .loaded program
    | false =>
      rw [perform, load_of_not_reloads loads, eventsOf,
        if_neg (by rw [loads]; exact Bool.false_ne_true)]
      exact .nothing _ _ _ _
  | loadFont => exact .nothing machine.pc machine.halted machine.loadFont.memory machine.keypad
  | cycle => exact machine.evolves_cycle
  | run count => exact absurd rfl (single count)
  | tick => exact .ticked
  | keyEvent event =>
    cases named : Key.ofByte? event.index with
    | none =>
      rw [perform, applyKeyEvent, named]
      simp only [eventsOf, Command.press?, named, ite_self]
      exact .nothing _ _ _ _
    | some key =>
      obtain ⟨events, same⟩ := machine.eventsOf_keyEvent named
      rw [events, same]
      exact machine.evolves_setKey key event.isPress
  | setKey key pressed => exact machine.evolves_setKey key pressed

/-- What each way to evolve preserves holds of a machine and its chronicle after any history. -/
theorem holds_of_chronicle {Holds : List Event → Machine → Prop} {machine : Machine}
    (step : ∀ {events new before after}, Evolves before new after → Holds events before →
      Holds (events ++ new) after)
    (start : Holds [] machine) (commands : List Command) :
    Holds (machine.chronicle commands) (machine.after commands) := by
  rw [← chronicle_unroll, ← after_unroll]
  have single := fun command (member : command ∈ unroll commands) => (mem_unroll member).1
  generalize unroll commands = steps at single
  -- The chronicle so far is what the induction carries along.
  suffices forward : ∀ events, Holds events machine →
      Holds (events ++ machine.chronicle steps) (machine.after steps) from forward [] start
  clear start
  induction steps generalizing machine with
  | nil =>
    intro events holds
    rw [chronicle, List.append_nil]
    exact holds
  | cons command rest previous =>
    intro events holds
    have next := step (machine.evolves_perform (single command List.mem_cons_self)) holds
    rw [chronicle, ← List.append_assoc]
    exact previous (fun other member => single other (List.mem_cons_of_mem _ member)) _ next

/-! ### The value that was last written -/

section Writing

variable {Value : Type} (write? : Event → Option Value) (events : List Event) (event : Event)

/-- The last value that events write, if they write any. -/
def lastWritten? : Option Value := events.reverse.findSome? write?

theorem lastWritten?_append_singleton :
    lastWritten? write? (events ++ [event]) = (write? event).or (lastWritten? write? events) := by
  rw [lastWritten?, List.reverse_append, List.reverse_singleton, List.singleton_append,
    List.findSome?_cons]
  cases write? event <;> rfl

end Writing

/-- A statement about an event and what happened before it holds of every event. -/
def AtEach (Holds : List Event → Event → Prop) (events : List Event) : Prop :=
  ∀ earlier event later, events = earlier ++ event :: later → Holds earlier event

theorem atEach_nil {Holds : List Event → Event → Prop} : AtEach Holds [] :=
  fun _ _ _ split => absurd split.symm (by simp)

theorem AtEach.of_append {Holds : List Event → Event → Prop} {events more : List Event}
    (each : AtEach Holds (events ++ more)) : AtEach Holds events := by
  rintro earlier event later rfl
  exact each earlier event (later ++ more) (by rw [List.append_assoc, List.cons_append])

theorem AtEach.append_singleton {Holds : List Event → Event → Prop} {events : List Event}
    {event : Event} (each : AtEach Holds events) (holds : Holds events event) :
    AtEach Holds (events ++ [event]) := by
  intro earlier other later split
  rcases List.eq_nil_or_concat later with rfl | ⟨front, last, rfl⟩
  · obtain ⟨rfl, rfl⟩ := List.append_singleton_inj.mp split
    exact holds
  · rw [List.concat_eq_append, ← List.cons_append, ← List.append_assoc] at split
    exact each earlier other front (List.append_singleton_inj.mp split).1

end ChipEight.Machine
