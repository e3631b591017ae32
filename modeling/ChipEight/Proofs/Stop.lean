/-
This file proves that an error is the last thing to happen until a load succeeds.

An error that a cycle reports is fatal, and apart from stopping the machine it
leaves one trace, the program counter, which has moved past the instruction if
there was one. A stopped machine waits for no key, so a key that is pressed only
shows in the keypad, and nothing reaches a register any more. What still moves are
the timers and the keys, and loading the font writes the font. It follows that the
errors of a history, counted from its last successful load, are at most one, and
that a machine has stopped exactly if there is one.
-/

import ChipEight.Proofs.History

namespace ChipEight

/-- Whether an error arose in fetching, before the program counter has moved. -/
def Error.isFetch : Error → Bool
  | .outOfBounds .fetch _ _ => true
  | _ => false

namespace Machine

/-! ### The trace of an error -/

/-- The machine that an error leaves. -/
def stoppedBy (machine : Machine) (cause : Error) : Machine :=
  { machine with
    halted := true
    pc := if cause.isFetch then machine.pc else machine.pc + 2 }

/-- An error of a cycle is fatal and leaves only its trace. Before it the machine had neither
stopped nor was it waiting. -/
theorem cycle_eq_error {machine : Machine} {cause : Error}
    (failed : machine.cycle.result = .error cause) :
    machine.halted = false ∧ machine.awaiting = none ∧ cause.isFatal = true ∧
      machine.cycle.machine = machine.stoppedBy cause := by
  cases machine.cycled with
  | stopped _ same | waiting _ _ same | executed _ _ _ _ _ same =>
    rw [same] at failed
    cases failed
  | unfetched running awake _ same =>
    rw [same] at failed ⊢
    cases failed
    exact ⟨running, awake, rfl, rfl⟩
  | @refused refusal running awake _ dispatched same =>
    rw [same] at failed ⊢
    obtain rfl : refusal = cause := Except.error.inj failed
    rcases dispatch_eq_error dispatched with rfl | ⟨access, address, notFetch, rfl⟩
    · exact ⟨running, awake, rfl, rfl⟩
    · have past : (Error.outOfBounds access address machine.pc).isFetch = false := by
        cases access with
        | fetch => exact absurd rfl notFetch
        | memory | stackOverflow | stackUnderflow => rfl
      refine ⟨running, awake, rfl, ?_⟩
      rw [stoppedBy, past]
      rfl

/-- A cycle that succeeds neither stops the machine nor starts it again. -/
theorem halted_of_cycle_eq_ok {machine : Machine} {flow : Flow}
    (succeeded : machine.cycle.result = .ok flow) :
    machine.cycle.machine.halted = machine.halted := by
  cases machine.cycled with
  | stopped _ same | waiting _ _ same => rw [same]
  | unfetched _ _ _ same | refused _ _ _ _ same =>
    rw [same] at succeeded
    cases succeeded
  | executed _ _ _ _ executed same =>
    rw [same]
    exact (steered_of_execute executed).halted_eq

/-! ### Runs -/

/-- Cycles of a machine that is blocked do nothing. If there are any, they end the way each of them
does. -/
theorem runFrom_of_cycle_eq {machine : Machine} {last flow : Flow} {notices : Array Notice}
    (idle : machine.cycle = ⟨.ok flow, machine, #[]⟩) (blocked : flow.isBlocked = true)
    (count : Nat) :
    runFrom last notices count machine =
      ⟨.ok (if count = 0 then last else flow), machine, notices⟩ := by
  cases count with
  | zero => rfl
  | succ count =>
    have ended : machine.cycle.result = .ok flow := by rw [idle]
    rw [runFrom_of_isBlocked ended blocked, idle]
    rfl

/-- A run of a machine whose cycles are blocked does nothing. If it has any cycle it ends the way
that one does. -/
theorem run_of_isBlocked {machine : Machine} {flow : Flow}
    (idle : machine.cycle = ⟨.ok flow, machine, #[]⟩) (blocked : flow.isBlocked = true)
    (count : Nat) :
    machine.run count = ⟨.ok (if count = 0 then .next else flow), machine, #[]⟩ :=
  runFrom_of_cycle_eq idle blocked count

/-- A run of a machine that has stopped does nothing. If it has any cycle it says so. -/
theorem run_of_halted {machine : Machine} (halted : machine.halted = true) (count : Nat) :
    machine.run count = ⟨.ok (if count = 0 then .next else .halt), machine, #[]⟩ :=
  run_of_isBlocked (machine.cycle_of_halted halted) rfl count

/-- A run that succeeds neither stops the machine nor starts it again. -/
theorem halted_of_runFrom_eq_ok {machine : Machine} {last flow : Flow} {notices : Array Notice}
    {count : Nat} (succeeded : (runFrom last notices count machine).result = .ok flow) :
    (runFrom last notices count machine).machine.halted = machine.halted := by
  induction count generalizing last notices machine with
  | zero => rfl
  | succ count previous =>
    cases ended : machine.cycle.result with
    | error cause =>
      rw [runFrom_of_error ended] at succeeded
      cases succeeded
    | ok first =>
      cases blocked : first.isBlocked with
      | true =>
        rw [runFrom_of_isBlocked ended blocked]
        exact halted_of_cycle_eq_ok ended
      | false =>
        rw [runFrom_of_not_isBlocked ended blocked] at succeeded ⊢
        exact (previous succeeded).trans (halted_of_cycle_eq_ok ended)

/-- A run that fails does so on a machine that had not stopped, and stops it. -/
theorem halted_of_run_eq_error {machine : Machine} {count : Nat} {cause : Error}
    (failed : (machine.run count).result = .error cause) :
    machine.halted = false ∧ (machine.run count).machine.halted = true := by
  constructor
  · cases halted : machine.halted with
    | false => rfl
    | true =>
      rw [run_of_halted halted] at failed
      cases failed
  · obtain ⟨before, -, fails, same, -⟩ := runFrom_eq_error failed
    rw [run, same]
    exact halted_of_cycle_eq_error fails

/-! ### Operations that get through to nothing -/

/-- Whether an operation is a load that succeeds. -/
def Command.reloads : Command → Bool
  | .load program => program.length ≤ maximumProgramSize
  | _ => false

/-- The key that an operation presses, if it presses one. -/
def Command.press? : Command → Option Key
  | .keyEvent event => if event.isPress then Key.ofByte? event.index else none
  | .setKey key true => some key
  | _ => none

/-- Whether an operation executes instructions. -/
def Command.executes : Command → Bool
  | .cycle | .run _ => true
  | _ => false

theorem load_of_reloads {machine : Machine} {program : List UInt8}
    (succeeds : (Command.load program).reloads = true) :
    machine.load program = ⟨.ok (), machine.loaded program, #[.loaded program.length]⟩ := by
  unfold load
  rw [if_pos (of_decide_eq_true succeeds)]

theorem load_of_not_reloads {machine : Machine} {program : List UInt8}
    (fails : (Command.load program).reloads = false) :
    machine.load program = ⟨.error (.largeProgram program.length), machine, #[]⟩ := by
  unfold load
  rw [if_neg (of_decide_eq_false fails)]

theorem loadFont_loadFont (machine : Machine) : machine.loadFont.loadFont = machine.loadFont := by
  unfold loadFont
  rw [Memory.overwrite_overwrite _ 0 Font.bytes (by decide)]

/-- The machine with other timers and keys, and with the font loaded again or not. -/
def later (machine : Machine) (delay sound : UInt8) (keypad : Keypad) (font : Bool) : Machine :=
  { machine with
    delay := delay
    sound := sound
    keypad := keypad
    memory := if font then machine.loadFont.memory else machine.memory }

/-- Of two spans of time the second decides the timers and the keys, and the font is there if
it was loaded in either. -/
theorem later_later (machine : Machine) (delay sound delay' sound' : UInt8)
    (keypad keypad' : Keypad) (font font' : Bool) :
    (machine.later delay sound keypad font).later delay' sound' keypad' font' =
      machine.later delay' sound' keypad' (font || font') := by
  have again : machine.loadFont.loadFont.memory = machine.loadFont.memory := by
    rw [loadFont_loadFont]
  unfold later
  cases font <;> cases font'
  case true.true => simpa [loadFont] using again
  all_goals rfl

/-- An operation that is no load that succeeds, presses no key that is waited for, and executes
nothing since the machine is idle or the operation is another one, gets through to the timers,
the keys and the font only. -/
theorem perform_eq_later {machine : Machine} {command : Command}
    (stays : command.reloads = false)
    (unanswered : machine.awaiting = none ∨ command.press? = none)
    (passive : machine.IsIdle ∨ command.executes = false) :
    ∃ delay sound keypad,
      (machine.perform command).machine =
        machine.later delay sound keypad (decide (command = .loadFont)) := by
  have keyed (key : Key) (pressed : Bool)
      (unanswered : machine.awaiting = none ∨ pressed = false) :
      (machine.setKey key pressed).1 =
        machine.later machine.delay machine.sound (machine.keypad.update key pressed) false := by
    rw [machine.setKey_of_unanswered key pressed unanswered]
    rfl
  cases command with
  | load program =>
    refine ⟨machine.delay, machine.sound, machine.keypad, ?_⟩
    rw [perform, load_of_not_reloads stays]
    rfl
  | loadFont => exact ⟨machine.delay, machine.sound, machine.keypad, rfl⟩
  | cycle =>
    have idle := passive.resolve_right nofun
    exact ⟨machine.delay, machine.sound, machine.keypad, (cycle_of_isIdle idle).1⟩
  | run count =>
    have idle := passive.resolve_right nofun
    refine ⟨machine.delay, machine.sound, machine.keypad, ?_⟩
    exact machine_runFrom.trans (cycles_of_isIdle idle count)
  | tick => exact ⟨countDown machine.delay, countDown machine.sound, machine.keypad, rfl⟩
  | keyEvent event =>
    cases named : Key.ofByte? event.index with
    | none =>
      refine ⟨machine.delay, machine.sound, machine.keypad, ?_⟩
      rw [perform, applyKeyEvent, named]
      rfl
    | some key =>
      refine ⟨machine.delay, machine.sound, machine.keypad.update key event.isPress, ?_⟩
      rw [perform, applyKeyEvent, named]
      refine keyed key event.isPress (unanswered.imp_right fun released => ?_)
      rw [Command.press?, named] at released
      exact eq_false_of_ne_true fun press => by simp [press] at released
  | setKey key pressed =>
    refine ⟨machine.delay, machine.sound, machine.keypad.update key pressed, ?_⟩
    refine keyed key pressed (unanswered.imp_right fun released => ?_)
    cases pressed with
    | false => rfl
    | true => contradiction

/-- As long as no operation gets through, only the timers, the keys and the font of a machine ever
change. -/
theorem after_eq_later {machine : Machine} {commands : List Command}
    (stays : ∀ command ∈ commands, command.reloads = false)
    (unanswered : machine.awaiting = none ∨ ∀ command ∈ commands, command.press? = none)
    (passive : machine.IsIdle ∨ ∀ command ∈ commands, command.executes = false) :
    ∃ delay sound keypad,
      machine.after commands =
        machine.later delay sound keypad (decide (.loadFont ∈ commands)) := by
  -- The machine after the first operation waits and is idle like the one before it.
  induction commands generalizing machine with
  | nil => exact ⟨machine.delay, machine.sound, machine.keypad, rfl⟩
  | cons command rest previous =>
    have others {Holds : Command → Prop} (all : ∀ step ∈ command :: rest, Holds step) :
        ∀ step ∈ rest, Holds step := fun step member => all step (List.mem_cons_of_mem _ member)
    obtain ⟨delay, sound, keypad, first⟩ := perform_eq_later (stays command List.mem_cons_self)
      (unanswered.imp_right fun all => all command List.mem_cons_self)
      (passive.imp_right fun all => all command List.mem_cons_self)
    let next := machine.later delay sound keypad (decide (command = .loadFont))
    have unansweredNext : next.awaiting = none ∨ ∀ step ∈ rest, step.press? = none :=
      unanswered.imp_right others
    have passiveNext : next.IsIdle ∨ ∀ step ∈ rest, step.executes = false :=
      passive.imp_right others
    obtain ⟨delay', sound', keypad', last⟩ := previous (others stays) unansweredNext passiveNext
    refine ⟨delay', sound', keypad', ?_⟩
    rw [after, first, last, later_later]
    simp [eq_comm]

/-! ### Counting errors -/

/-- The errors of cycles and runs since the last load that succeeded, once an operation has
been performed, from those before it. -/
def failuresNext (machine : Machine) (failures : List Error) (command : Command) : List Error :=
  match command, (machine.perform command).result with
  | .load _, .ok _ => []
  | .cycle, .error cause | .run _, .error cause => failures ++ [cause]
  | _, _ => failures

/-- The errors of cycles and runs since the last load that succeeded, the oldest first, once a
history is performed. -/
def failures (machine : Machine) (earlier : List Error) : List Command → List Error
  | [] => earlier
  | command :: rest =>
    (machine.perform command).machine.failures (machine.failuresNext earlier command) rest

/-- There is at most one error, and one exactly if the machine has stopped. -/
def Tallied (machine : Machine) (errors : List Error) : Prop :=
  errors.length ≤ 1 ∧ (machine.halted = true ↔ errors ≠ [])

/-- An operation that neither starts nor stops the machine, and counts nothing, keeps the tally. -/
theorem Tallied.of_halted_eq {machine after : Machine} {errors : List Error}
    (tallied : machine.Tallied errors) (same : after.halted = machine.halted) :
    after.Tallied errors := by
  rw [Tallied, same]
  exact tallied

/-- An error on a machine that had not stopped is the first. -/
theorem Tallied.of_error {machine after : Machine} {errors : List Error}
    (tallied : machine.Tallied errors) (running : machine.halted = false)
    (stopped : after.halted = true) (cause : Error) : after.Tallied (errors ++ [cause]) := by
  obtain rfl : errors = [] := by
    by_cases empty : errors = []
    · exact empty
    · rw [tallied.2.mpr empty] at running
      cases running
  exact ⟨Nat.le_refl 1, iff_of_true stopped (List.cons_ne_nil cause [])⟩

theorem halted_setKey (machine : Machine) (key : Key) (pressed : Bool) :
    (machine.setKey key pressed).1.halted = machine.halted := by
  obtain ⟨_, _, _, same⟩ := machine.exists_setKey key pressed
  rw [same]

theorem Tallied.perform {machine : Machine} {errors : List Error}
    (tallied : machine.Tallied errors) (command : Command) :
    (machine.perform command).machine.Tallied (machine.failuresNext errors command) := by
  cases command with
  | load program =>
    simp only [failuresNext, Machine.perform, load]
    split
    case isTrue => exact ⟨Nat.zero_le 1, iff_of_false nofun nofun⟩
    case isFalse => exact tallied
  | cycle =>
    simp only [failuresNext, Machine.perform, replying]
    cases ended : machine.cycle.result with
    | ok flow => exact tallied.of_halted_eq (halted_of_cycle_eq_ok ended)
    | error cause =>
      exact tallied.of_error (cycle_eq_error ended).1 (halted_of_cycle_eq_error ended) cause
  | run count =>
    simp only [failuresNext, Machine.perform, replying]
    cases ended : (machine.run count).result with
    | ok flow => exact tallied.of_halted_eq (halted_of_runFrom_eq_ok ended)
    | error cause =>
      obtain ⟨running, stopped⟩ := halted_of_run_eq_error ended
      exact tallied.of_error running stopped cause
  | loadFont =>
    simp only [failuresNext, Machine.perform]
    exact tallied.of_halted_eq (by unfold loadFont; rfl)
  | tick =>
    simp only [failuresNext, Machine.perform]
    exact tallied.of_halted_eq (by unfold tick; rfl)
  | keyEvent event =>
    simp only [failuresNext, Machine.perform, applyKeyEvent]
    split
    case h_1 key _ => exact tallied.of_halted_eq (machine.halted_setKey key event.isPress)
    case h_2 => exact tallied
  | setKey key pressed => exact tallied.of_halted_eq (machine.halted_setKey key pressed)

theorem Tallied.after {machine : Machine} {errors : List Error}
    (tallied : machine.Tallied errors) (commands : List Command) :
    (machine.after commands).Tallied (machine.failures errors commands) := by
  induction commands generalizing machine errors with
  | nil => exact tallied
  | cons command rest previous => exact previous (tallied.perform command)

/-! ### Errors are final -/

/-- Whatever happens to a machine, until a load succeeds every cycle of it says that it has
stopped, and only its timers, keys and font change. -/
def StaysStopped (machine : Machine) : Prop :=
  ∀ commands, (∀ command ∈ commands, command.reloads = false) →
    (machine.after commands).cycle.result = .ok .halt ∧
    (∀ count, ((machine.after commands).run count).result =
      .ok (if count = 0 then .next else .halt)) ∧
    ∃ delay sound keypad,
      machine.after commands =
        machine.later delay sound keypad (decide (.loadFont ∈ commands))

/-- An error stops its machine to stay. -/
theorem staysStopped_of_cycle_eq_error {machine : Machine} {cause : Error}
    (failed : machine.cycle.result = .error cause) : machine.cycle.machine.StaysStopped := by
  intro commands stays
  obtain ⟨-, awake, -, trace⟩ := cycle_eq_error failed
  have halted : machine.cycle.machine.halted = true := by rw [trace]; rfl
  have waitless : machine.cycle.machine.awaiting = none := by rw [trace]; exact awake
  obtain ⟨delay, sound, keypad, still⟩ := after_eq_later stays (.inl waitless) (.inl (.inl halted))
  have stillHalted : (machine.cycle.machine.after commands).halted = true := by
    rw [still]; exact halted
  refine ⟨?_, fun count => ?_, delay, sound, keypad, still⟩
  · rw [cycle_of_halted _ stillHalted]
  · rw [run_of_halted stillHalted]

/-- On a machine with any history, an error of a cycle, alone or in a run, is fatal, leaves only
its trace, and stops the machine to stay. So at most one error arises between two loads that
succeed, and the machine has stopped exactly if one arose since the last of them. -/
theorem errors_are_final (settings : Settings) (generator : Generator) (history : List Command) :
    let start := create settings generator
    let machine := start.after history
    (∀ cause, machine.cycle.result = .error cause →
      cause.isFatal = true ∧ machine.cycle.machine = machine.stoppedBy cause ∧
        machine.cycle.machine.StaysStopped) ∧
    (∀ count cause, (machine.run count).result = .error cause →
      ∃ before < count,
        (∀ earlier < before, ∃ flow, (machine.cycles earlier).cycle.result = .ok flow) ∧
        (machine.cycles before).cycle.result = .error cause ∧ cause.isFatal = true ∧
        (machine.run count).machine = (machine.cycles before).stoppedBy cause ∧
        (machine.run count).machine.StaysStopped) ∧
    (start.failures [] history).length ≤ 1 ∧
    (machine.halted = true ↔ start.failures [] history ≠ []) := by
  intro start machine
  have fresh : start.Tallied [] := ⟨Nat.zero_le 1, iff_of_false nofun nofun⟩
  refine ⟨fun cause failed => ?_, fun count cause failed => ?_, fresh.after history⟩
  · obtain ⟨-, -, fatal, trace⟩ := cycle_eq_error failed
    exact ⟨fatal, trace, staysStopped_of_cycle_eq_error failed⟩
  · obtain ⟨before, within, fails, same, succeeded⟩ := runFrom_eq_error failed
    obtain ⟨-, -, fatal, trace⟩ := cycle_eq_error fails
    rw [run, same]
    exact ⟨before, within, succeeded, fails, fatal, trace, staysStopped_of_cycle_eq_error fails⟩

/-- A machine whose first word is no instruction. -/
def unloaded : Machine := blank {} (RandomSource.start fun _ => 0)

theorem fetch_unloaded : unloaded.fetch = .ok 0 := by
  have zero : unloaded.word = 0 := by
    show Word.ofBytes (Memory.zero.read _) (Memory.zero.read _) = 0
    rw [Memory.read_zero, Memory.read_zero]
    rfl
  rw [fetch_eq, if_pos (by decide), zero]

theorem cycle_unloaded : unloaded.cycle.result = .error (.unknownWord 0 0x200) := by
  have refused : unloaded.dispatch 0 = .error (.unknownWord 0 0x200) := rfl
  rw [cycle, if_neg (by decide), if_neg (by decide), fetch_unloaded]
  simp only [refused]
  rfl

theorem errors_are_final_unloaded :
    unloaded.cycle.result = .error (.unknownWord 0 0x200) ∧
      unloaded.cycle.machine = unloaded.stoppedBy (.unknownWord 0 0x200) ∧
      unloaded.cycle.machine.StaysStopped := by
  obtain ⟨-, trace, stays⟩ :=
    (errors_are_final {} Generator.zeros []).1 _ cycle_unloaded
  exact ⟨cycle_unloaded, trace, stays⟩

end Machine

end ChipEight
