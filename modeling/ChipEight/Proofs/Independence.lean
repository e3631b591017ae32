/-
This file proves that operations on different parts of a machine commute.

A tick changes nothing but the timers, and a key of a machine that waits for none changes
nothing but the keypad. A machine and what such a disturbance makes of it are alike in a way
that goes through every instruction which does not use what the disturbance changes. So a
cycle and a run that come upon no other instruction answer the same on both machines, and
leave the one that the disturbance makes of the other. What disturbs a machine before them
may as well do so after them.
-/

import ChipEight.Proofs.Frame
import ChipEight.Proofs.KeyWait
import ChipEight.Proofs.Loading

namespace ChipEight

/-! ### What instructions use -/

/-- The instructions that read or write a timer. -/
def timerPatterns : List String := ["FX07", "FX15", "FX18"]

/-- The instructions that read a key or wait for one. -/
def keyPatterns : List String := ["EX9E", "EXA1", "FX0A"]

/-- No word among some attempts fits one of some patterns. -/
def Avoids (patterns : List String) (attempts : List Attempt) : Prop :=
  ∀ word, .ok word ∈ attempts → word.fitsAny patterns = false

theorem avoids_append {patterns : List String} {first second : List Attempt} :
    Avoids patterns (first ++ second) ↔ Avoids patterns first ∧ Avoids patterns second := by
  simp only [Avoids, List.mem_append, or_imp, forall_and]

/-- An instruction that is attempted is none of those avoided. -/
theorem Avoids.pattern_not_mem {patterns : List String} {attempts : List Attempt} {word : Word}
    {instruction : Instruction} (avoids : Avoids patterns attempts)
    (attempted : .ok word ∈ attempts) (decoded : Instruction.decode word = some instruction)
    (known : patterns ⊆ Word.patterns) : instruction.pattern ∉ patterns := by
  have misses := avoids word attempted
  rwa [Instruction.fitsAny_eq_of_decode decoded known, decide_eq_false_iff_not] at misses

/-! ### Disturbances -/

/-- A change of the timers and the keypad from outside. -/
structure Disturbance where
  timer : UInt8 → UInt8
  keypad : Keypad → Keypad

/-- A machine after a disturbance. -/
def Machine.disturb (machine : Machine) (change : Disturbance) : Machine :=
  { machine with
    delay := change.timer machine.delay
    sound := change.timer machine.sound
    keypad := change.keypad machine.keypad }

def Outcome.disturb {Result : Type} (outcome : Outcome Result) (change : Disturbance) :
    Outcome Result :=
  { outcome with machine := outcome.machine.disturb change }

namespace Disturbance

/-- A disturbance goes through attempts that do not use what it changes. -/
structure Passes (change : Disturbance) (attempts : List Attempt) : Prop where
  timer : Avoids timerPatterns attempts ∨ change.timer = id
  keypad : Avoids keyPatterns attempts ∨ change.keypad = id

/-- The likeness of a machine and what a disturbance makes of it. -/
def likeness (change : Disturbance) : Likeness :=
  { Likeness.equality with
    delay := fun timer timer' => timer' = change.timer timer
    sound := fun timer timer' => timer' = change.timer timer
    keypad := fun keypad keypad' => keypad' = change.keypad keypad }

section Likeness

variable {change : Disturbance}

theorem onMachines_iff {machine machine' : Machine} :
    change.likeness.OnMachines machine machine' ↔ machine' = machine.disturb change := by
  constructor
  · rintro ⟨⟨_, _, _, _, _⟩, ⟨rfl, rfl, rfl, rfl, rfl⟩, rfl⟩
    rfl
  · rintro rfl
    exact ⟨(machine.disturb change).parts, ⟨rfl, rfl, rfl, rfl, rfl⟩, rfl⟩

theorem eq_of_onOutcomes {Result : Type} {outcome outcome' : Outcome Result}
    (ends : change.likeness.OnOutcomes outcome outcome') : outcome' = outcome.disturb change := by
  obtain ⟨result, after, notices⟩ := ends
  rw [onMachines_iff] at after
  simp only [Outcome.disturb, result, ← after, notices]

/-- Where an instruction uses a timer or a key, that part of a disturbance is none at all. -/
theorem Passes.likeness {attempts : List Attempt} (passes : change.Passes attempts) :
    change.likeness.Passes attempts := by
  intro word member instruction decoded
  have timer := passes.timer.imp_left fun avoids =>
    avoids.pattern_not_mem member decoded (by decide)
  have keypad := passes.keypad.imp_left fun avoids =>
    avoids.pattern_not_mem member decoded (by decide)
  cases instruction with
  | readDelay | setDelay | setSound =>
    have none : change.timer = id := by simpa [Instruction.pattern, timerPatterns] using timer
    simp +contextual [Likeness.Allows, Disturbance.likeness, none]
  | skipIfKey | skipUnlessKey =>
    have none : change.keypad = id := by simpa [Instruction.pattern, keyPatterns] using keypad
    simp +contextual [Likeness.Allows, Disturbance.likeness, none]
  | _ => trivial

end Likeness

end Disturbance

namespace Machine

/-! ### Cycles and runs -/

theorem attempts_singleton (machine : Machine) (command : Command) :
    machine.attempts [command] = machine.attempts command.unrolled := by
  rw [← attempts_unroll]
  exact congrArg machine.attempts (List.append_nil _)

/-- What every cycle leaves alone that avoids some instructions, a run does that avoids them. -/
theorem kept_by_perform {Value : Type} {part : Machine → Value} {patterns : List String}
    (cycle : ∀ machine : Machine, Avoids patterns (attemptsIn machine.cycle.notices) →
      part machine.cycle.machine = part machine)
    {machine : Machine} {command : Command} (executes : command.executes = true)
    (avoids : Avoids patterns (machine.attempts [command])) :
    part (machine.perform command).machine = part machine := by
  have all (count : Nat) (machine : Machine)
      (avoids : Avoids patterns (machine.attempts (.replicate count .cycle))) :
      part (machine.cycles count) = part machine := by
    induction count generalizing machine with
    | zero => rfl
    | succ count previous =>
      obtain ⟨here, later⟩ := avoids_append.mp avoids
      exact (previous machine.cycle.machine later).trans (cycle machine here)
  rw [attempts_singleton] at avoids
  cases command with
  | cycle => exact all 1 machine avoids
  | run count => exact (congrArg part machine_runFrom).trans (all count machine avoids)
  | _ => contradiction

theorem mem_attemptsIn_cycle {machine : Machine} (fetches : machine.CanFetch) :
    .ok machine.word ∈ attemptsIn machine.cycle.notices := by
  simp [attemptsIn_cycle, fetches.running, fetches.awake, fetch_eq, fetches.inside]

/-- A cycle that uses no timer leaves the sound timer alone. -/
theorem sound_cycle_of_avoids (machine : Machine)
    (avoids : Avoids timerPatterns (attemptsIn machine.cycle.notices)) :
    machine.cycle.machine.sound = machine.sound := by
  rcases machine.covers_of_cycle with ⟨_, _, same⟩ | ⟨instruction, fetches, decoded, covers⟩
  · rw [same]
  · have other := avoids.pattern_not_mem (mem_attemptsIn_cycle fetches) decoded (by decide)
    have outside : instruction.footprint.sound = false := by
      cases instruction with
      | setSound => simp [Instruction.pattern, timerPatterns] at other
      | _ => rfl
    exact covers.sound outside

/-- A cycle that neither reads a key nor waits for one begins no wait. -/
theorem awaiting_cycle_of_avoids (machine : Machine)
    (avoids : Avoids keyPatterns (attemptsIn machine.cycle.notices)) :
    machine.cycle.machine.awaiting = machine.awaiting := by
  rcases machine.covers_of_cycle with ⟨_, _, same⟩ | ⟨instruction, fetches, decoded, covers⟩
  · rw [same]
  · have other := avoids.pattern_not_mem (mem_attemptsIn_cycle fetches) decoded (by decide)
    have outside : instruction.footprint.awaiting = false := by
      cases instruction with
      | awaitKey => simp [Instruction.pattern, keyPatterns] at other
      | _ => rfl
    exact covers.awaiting outside

section Executing

variable (machine : Machine) {change : Disturbance} {command : Command}
  (executes : command.executes = true)
include executes

/-- A disturbance goes through an operation that executes instructions. -/
theorem perform_disturb (passes : change.Passes (machine.attempts [command])) :
    (machine.disturb change).perform command = (machine.perform command).disturb change := by
  have allowed : change.likeness.AllowsOperation command := by
    cases command with
    | cycle | run => trivial
    | _ => contradiction
  rw [attempts_singleton, attempts_unrolled] at passes
  exact Disturbance.eq_of_onOutcomes
    (Likeness.onOutcomes_perform (Disturbance.onMachines_iff.mpr rfl) allowed passes.likeness)

theorem attempts_disturb
    (passes : change.Passes (machine.attempts [command]) ∨
      change.Passes ((machine.disturb change).attempts [command])) :
    (machine.disturb change).attempts [command] = machine.attempts [command] := by
  rw [attempts_singleton, attempts_singleton] at passes ⊢
  have cycles (count : Nat) := Likeness.attempts_replicate_eq
    (Disturbance.onMachines_iff.mpr (rfl : _ = machine.disturb change)) count
  have goes := passes.imp Disturbance.Passes.likeness Disturbance.Passes.likeness
  cases command with
  | cycle => exact cycles 1 goes
  | run count => exact cycles count goes
  | _ => contradiction

end Executing

/-! ### Ticks and keys -/

/-- A tick is a disturbance. -/
def ticking : Disturbance := ⟨countDown, id⟩

theorem perform_tick (machine : Machine) :
    machine.perform .tick = ⟨.ok (.buzzing machine.isBuzzing), machine.disturb ticking, #[]⟩ := rfl

/-- A key of a machine that waits for none is a disturbance. -/
theorem exists_perform_key {command : Command} (key : command.isKey = true) :
    ∃ answer change, ∀ machine : Machine, machine.awaiting = none →
      machine.perform command = ⟨answer, machine.disturb ⟨id, change⟩, #[]⟩ := by
  cases command with
  | keyEvent event =>
    cases named : Key.ofByte? event.index with
    | none =>
      refine ⟨.error (.invalidKey event.index), id, fun machine _ => ?_⟩
      simp only [perform, applyKeyEvent, named]
      rfl
    | some pressed =>
      refine ⟨.ok .done, (·.update pressed event.isPress), fun machine awake => ?_⟩
      simp only [perform, applyKeyEvent, named,
        machine.setKey_of_unanswered pressed event.isPress (.inl awake)]
      rfl
  | setKey pressed down =>
    refine ⟨.ok .done, (·.update pressed down), fun machine awake => ?_⟩
    simp only [perform, machine.setKey_of_unanswered pressed down (.inl awake)]
    rfl
  | _ => contradiction

/-- A key attempts nothing and leaves the sound timer alone. -/
theorem perform_of_isKey (machine : Machine) {command : Command} (isKey : command.isKey = true) :
    attemptsIn (machine.perform command).notices = [] ∧
      (machine.perform command).machine.sound = machine.sound := by
  have pressed (key : Key) (pressed : Bool) :
      attemptsIn (machine.setKey key pressed).2 = [] ∧
        (machine.setKey key pressed).1.sound = machine.sound := by
    unfold setKey
    split <;> exact ⟨rfl, rfl⟩
  cases command with
  | keyEvent event =>
    simp only [perform, applyKeyEvent]
    cases Key.ofByte? event.index with
    | none => exact ⟨rfl, rfl⟩
    | some key => exact pressed key event.isPress
  | setKey key down => exact pressed key down
  | _ => contradiction

/-- A tick goes through every key, also through one that ends a wait. -/
theorem perform_key_disturb_ticking (machine : Machine) {command : Command}
    (isKey : command.isKey = true) :
    (machine.disturb ticking).perform command = (machine.perform command).disturb ticking := by
  have allowed : ticking.likeness.AllowsOperation command := by
    cases command with
    | keyEvent | setKey =>
      rintro keypad _ rfl key pressed
      rfl
    | _ => contradiction
  have passes : ticking.likeness.Passes (attemptsIn (machine.perform command).notices) := by
    rw [(machine.perform_of_isKey isKey).1]
    exact nofun
  exact Disturbance.eq_of_onOutcomes
    (Likeness.onOutcomes_perform (Disturbance.onMachines_iff.mpr rfl) allowed passes)

/-! ### Either order -/

/-- Two operations commute: both orders lead to one machine, and either operation answers and
reports the same in both. -/
def Commute (machine : Machine) (first second : Command) : Prop :=
  machine.after [first, second] = machine.after [second, first] ∧
    machine.replies [first, second] = (machine.replies [second, first]).reverse

/-- An operation that comes to one disturbance before and after another operation commutes with it
if the disturbance goes through the other. -/
theorem commute_of_disturb {machine : Machine} {first second : Command} {change : Disturbance}
    {answer : Except Error Reply}
    (before : machine.perform first = ⟨answer, machine.disturb change, #[]⟩)
    (behind : (machine.perform second).machine.perform first =
      ⟨answer, (machine.perform second).machine.disturb change, #[]⟩)
    (through : (machine.disturb change).perform second =
      (machine.perform second).disturb change) : machine.Commute first second := by
  constructor
  · simp only [after, before, behind, through, Outcome.disturb]
  · simp only [replies, before, behind, through, Outcome.disturb]
    rfl

/-- Operations on different parts of a machine commute. A tick commutes with a cycle, and with a
run, that comes upon no instruction which uses a timer; a key, whichever byte it is named by,
commutes with a cycle and a run of a machine that waits for no key if they come upon no instruction
which uses a key; and a tick and a key always commute. For a run it is enough that it comes upon
no such instruction in one of the two orders. -/
theorem independent_operations_commute (machine : Machine) :
    (∀ executing : Command, executing.executes = true →
      Avoids timerPatterns (machine.attempts [executing]) ∨
        Avoids timerPatterns (machine.tick.attempts [executing]) →
      machine.Commute .tick executing) ∧
    (∀ key executing : Command, key.isKey = true → executing.executes = true →
      machine.awaiting = none →
      Avoids keyPatterns (machine.attempts [executing]) ∨
        Avoids keyPatterns ((machine.perform key).machine.attempts [executing]) →
      machine.Commute key executing) ∧
    ∀ key : Command, key.isKey = true → machine.Commute .tick key := by
  refine ⟨fun executing executes avoids => ?_, fun key executing isKey executes awake avoids => ?_,
    fun key isKey => ?_⟩
  · have goes {attempts : List Attempt} (avoids : Avoids timerPatterns attempts) :
        ticking.Passes attempts := ⟨.inl avoids, .inr rfl⟩
    have same := machine.attempts_disturb executes (avoids.imp goes goes)
    have free : Avoids timerPatterns (machine.attempts [executing]) :=
      avoids.elim id fun behind => same ▸ behind
    have sound := kept_by_perform sound_cycle_of_avoids executes free
    refine commute_of_disturb machine.perform_tick ?_
      (machine.perform_disturb executes (goes free))
    rw [perform_tick, isBuzzing, sound]
    rfl
  · obtain ⟨answer, change, performs⟩ := exists_perform_key isKey
    have goes {attempts : List Attempt} (avoids : Avoids keyPatterns attempts) :
        Disturbance.Passes ⟨id, change⟩ attempts := ⟨.inr rfl, .inl avoids⟩
    rw [performs machine awake] at avoids
    have same := machine.attempts_disturb executes (avoids.imp goes goes)
    have free : Avoids keyPatterns (machine.attempts [executing]) :=
      avoids.elim id fun behind => same ▸ behind
    have stays : (machine.perform executing).machine.awaiting = none :=
      (kept_by_perform awaiting_cycle_of_avoids executes free).trans awake
    exact commute_of_disturb (performs machine awake) (performs _ stays)
      (machine.perform_disturb executes (goes free))
  · refine commute_of_disturb machine.perform_tick ?_ (machine.perform_key_disturb_ticking isKey)
    rw [perform_tick, isBuzzing, (machine.perform_of_isKey isKey).2]
    rfl

/-- A machine with both timers running that is about to read two registers. -/
def readingTimed : Machine := { readingEnd with delay := 5, sound := 2 }

theorem attempts_readingTimed : readingTimed.attempts [.cycle] = [.ok 0xF165] := by
  have written : readingTimed.word = 0xF165 := readingTimed.word_of_overwrite rfl (by decide)
  have awake : ¬ (readingTimed.halted || readingTimed.awaiting.isSome) = true := by decide
  have inside : readingTimed.pc ≤ 0xFFE := by decide
  simp only [attempts, perform, replying, attemptsIn_cycle, if_neg awake, fetch_eq,
    if_pos inside, written, List.append_nil]

/-- Reading registers commutes with a tick, with a key and with a byte that names no key. -/
theorem independent_operations_commute_readingTimed :
    Command.cycle.executes = true ∧ (Command.run 1).executes = true ∧
      (Command.setKey 4 true).isKey = true ∧ (Command.keyEvent (.down 16)).isKey = true ∧
      readingTimed.awaiting = none ∧
      Avoids timerPatterns (readingTimed.attempts [.cycle]) ∧
      Avoids keyPatterns (readingTimed.attempts [.run 1]) ∧
      readingTimed.Commute .tick .cycle ∧ readingTimed.Commute (.setKey 4 true) (.run 1) ∧
      readingTimed.Commute .tick (.keyEvent (.down 16)) := by
  have avoids {patterns : List String} (misses : Word.fitsAny 0xF165 patterns = false) :
      Avoids patterns (readingTimed.attempts [.cycle]) := by
    intro word member
    rw [attempts_readingTimed] at member
    cases List.mem_singleton.mp member
    exact misses
  have timers : Avoids timerPatterns (readingTimed.attempts [.cycle]) := avoids (by decide)
  have keys : Avoids keyPatterns (readingTimed.attempts [.run 1]) := by
    rw [attempts_singleton]
    exact avoids (by decide)
  obtain ⟨tick, key, always⟩ := independent_operations_commute readingTimed
  exact ⟨rfl, rfl, rfl, rfl, rfl, timers, keys, tick .cycle rfl (.inl timers),
    key (.setKey 4 true) (.run 1) rfl rfl rfl (.inl keys), always (.keyEvent (.down 16)) rfl⟩

end Machine

end ChipEight
