/-
This file proves that the timers count exactly.

A timer is written by one instruction, and a load clears it. What it holds at any point of
any history is the value written last less the number of ticks since, and never less than
zero, whatever else happened to the machine in between and whether it waited for a key or
had stopped. The chronicle of a history tells both numbers, so the statement is an
invariant of a machine and its chronicle. How long the buzzer sounds follows from it: a
tick sounds the buzzer as long as fewer ticks have gone by than the sound timer was set to.
-/

import ChipEight.Proofs.Chronicle
import Mathlib.Data.List.Induction

namespace ChipEight.Machine

/-! ### What is left of a value that is counted down -/

namespace Event

/-- Whether an event is a tick. -/
def isTick : Event → Bool
  | ticked _ => true
  | _ => false

/-- The answer of a tick, whether the buzzer sounds. -/
def answer? : Event → Option Bool
  | ticked buzzing => some buzzing
  | _ => none

/-- The value that an event writes to the delay timer, if it writes one. -/
def delayWrite? : Event → Option UInt8
  | executed ⟨before, .setDelay x, _⟩ => some (before.registers.read x)
  | loaded => some 0
  | _ => none

/-- The value that an event writes to the sound timer, if it writes one. -/
def soundWrite? : Event → Option UInt8
  | executed ⟨before, .setSound x, _⟩ => some (before.registers.read x)
  | loaded => some 0
  | _ => none

end Event

/-- The answers of the ticks among events, the first first. -/
def answers (events : List Event) : List Bool := events.filterMap Event.answer?

section Counting

variable (write? : Event → Option UInt8) (events : List Event) (event : Event)

/-- The value written last, zero if none was. -/
def written : UInt8 := (lastWritten? write? events).getD 0

/-- The number of ticks since a value was written last. -/
def ticksSince : Nat :=
  (events.reverse.takeWhile fun event => (write? event).isNone).countP Event.isTick

/-- What is left of the value written last once every tick since has taken one off. -/
def remaining : Nat := (written write? events).toNat - ticksSince write? events

variable {write? events event}

/-- A value that is written is all there. -/
theorem remaining_of_write {value : UInt8} (writes : write? event = some value) :
    remaining write? (events ++ [event]) = value.toNat := by
  have last : written write? (events ++ [event]) = value := by
    rw [written, lastWritten?_append_singleton, writes]
    rfl
  have none : ticksSince write? (events ++ [event]) = 0 := by
    simp [ticksSince, writes]
  rw [remaining, last, none, Nat.sub_zero]

/-- Any other event takes one off if it is a tick. -/
theorem remaining_of_not_write (silent : write? event = none) :
    remaining write? (events ++ [event]) =
      remaining write? events - if event.isTick then 1 else 0 := by
  have last : written write? (events ++ [event]) = written write? events := by
    rw [written, lastWritten?_append_singleton, silent]
    rfl
  have more : ticksSince write? (events ++ [event]) =
      ticksSince write? events + if event.isTick then 1 else 0 := by
    simp [ticksSince, silent, List.countP_cons]
  rw [remaining, last, more, ← Nat.sub_sub]
  rfl

end Counting

/-! ### The timers -/

theorem toNat_countDown (timer : UInt8) : (countDown timer).toNat = timer.toNat - 1 := by
  unfold countDown
  split
  case isTrue zero => rw [zero]; rfl
  case isFalse positive =>
    have bound := timer.toNat_lt
    have some : timer.toNat ≠ 0 := fun zero => positive (UInt8.toNat_inj.mp zero)
    rw [UInt8.toNat_sub, show (1 : UInt8).toNat = 1 from rfl]
    omega

/-- An instruction that is executed leaves a timer alone unless it writes it. -/
theorem timers_of_execute {machine : Machine} {instruction : Instruction} {step : Step}
    (executed : machine.advance.execute machine.pc instruction = .ok step) :
    step.machine.delay =
        (Event.delayWrite? (.executed ⟨machine, instruction, step.machine⟩)).getD machine.delay ∧
      step.machine.sound =
        (Event.soundWrite? (.executed ⟨machine, instruction, step.machine⟩)).getD
          machine.sound := by
  have covers := (covers_of_execute executed).of_advance
  cases instruction with
  | setDelay x => cases executed; exact ⟨rfl, rfl⟩
  | setSound x => cases executed; exact ⟨rfl, rfl⟩
  | _ => exact ⟨covers.delay rfl, covers.sound rfl⟩

/-- Every event that looks at a timer finds what is left of it. -/
def Event.Finds (earlier : List Event) : Event → Prop
  | executed ⟨_, .readDelay x, after⟩ =>
    (after.registers.read x).toNat = remaining delayWrite? earlier
  | ticked buzzing => buzzing = decide (0 < remaining soundWrite? earlier)
  | _ => True

/-- The timers of a machine hold what is left of them after what happened to it. -/
structure Counted (events : List Event) (machine : Machine) : Prop where
  delay : machine.delay.toNat = remaining Event.delayWrite? events
  sound : machine.sound.toNat = remaining Event.soundWrite? events
  finds : AtEach Event.Finds events

/-- Timers that an event leaves as it writes them are counted on. -/
theorem Counted.next {events : List Event} {event : Event} {before after : Machine}
    (counted : Counted events before) (noTick : event.isTick = false)
    (delay : after.delay = event.delayWrite?.getD before.delay)
    (sound : after.sound = event.soundWrite?.getD before.sound)
    (finds : event.Finds events) : Counted (events ++ [event]) after := by
  refine ⟨?_, ?_, counted.finds.append_singleton finds⟩
  · rw [delay]
    cases writes : event.delayWrite? with
    | none => rw [remaining_of_not_write writes, noTick]; exact counted.delay
    | some value => rw [remaining_of_write writes]; rfl
  · rw [sound]
    cases writes : event.soundWrite? with
    | none => rw [remaining_of_not_write writes, noTick]; exact counted.sound
    | some value => rw [remaining_of_write writes]; rfl

theorem isBuzzing_eq (machine : Machine) :
    machine.isBuzzing = decide (0 < machine.sound.toNat) := by
  have zero : machine.sound = 0 ↔ machine.sound.toNat = 0 := UInt8.toNat_inj.symm
  exact decide_eq_decide.mpr (by rw [ne_eq, zero, Nat.pos_iff_ne_zero])

/-- However a machine evolves, its timers are counted on. -/
theorem Counted.evolves {events new : List Event} {before after : Machine}
    (counted : Counted events before) (evolves : Evolves before new after) :
    Counted (events ++ new) after := by
  cases evolves with
  | nothing =>
    rw [List.append_nil]
    exact ⟨counted.delay, counted.sound, counted.finds⟩
  | @executed instruction step _ succeeded =>
    obtain ⟨delay, sound⟩ := timers_of_execute succeeded
    refine counted.next rfl delay sound ?_
    cases instruction with
    | readDelay x =>
      cases succeeded
      show ((before.registers.write x before.delay).read x).toNat = _
      rw [Registers.read_write_self]
      exact counted.delay
    | _ => trivial
  | pressed key =>
    obtain ⟨keypad, awaiting, registers, same⟩ := before.exists_setKey key true
    exact counted.next rfl (by rw [same]; rfl) (by rw [same]; rfl) trivial
  | ticked =>
    refine ⟨?_, ?_, counted.finds.append_singleton ?_⟩
    · rw [remaining_of_not_write rfl, ← counted.delay]
      exact toNat_countDown before.delay
    · rw [remaining_of_not_write rfl, ← counted.sound]
      exact toNat_countDown before.sound
    · rw [Event.Finds, ← counted.sound]
      exact before.isBuzzing_eq
  | loaded program => exact counted.next rfl rfl rfl trivial

theorem counted_create (settings : Settings) (generator : Generator) (history : List Command) :
    Counted ((create settings generator).chronicle history)
      ((create settings generator).after history) :=
  holds_of_chronicle (fun evolves counted => counted.evolves evolves) ⟨rfl, rfl, atEach_nil⟩ history

/-! ### How long the buzzer sounds -/

/-- Ticks that find what is left of the sound timer sound the buzzer as often as that is. -/
theorem answers_eq {earlier later : List Event} (finds : AtEach Event.Finds (earlier ++ later))
    (silent : ∀ event ∈ later, event.soundWrite? = none) :
    remaining Event.soundWrite? (earlier ++ later) =
        remaining Event.soundWrite? earlier - (answers later).length ∧
      answers later = (List.range (answers later).length).map fun tick =>
        decide (tick < remaining Event.soundWrite? earlier) := by
  induction later using List.reverseRecOn with
  | nil => exact ⟨by rw [List.append_nil]; rfl, rfl⟩
  | append_singleton later event previous =>
    rw [← List.append_assoc] at finds ⊢
    obtain ⟨left, sounded⟩ :=
      previous finds.of_append fun other member => silent other (List.mem_append_left _ member)
    have here : event.soundWrite? = none := silent event (by simp)
    have found := finds (earlier ++ later) event [] rfl
    have unanswered (silent : event.answer? = none) :
        answers (later ++ [event]) = answers later := by
      simp [answers, silent]
    rw [remaining_of_not_write here, left]
    cases event with
    | ticked buzzing =>
      have longer : answers (later ++ [.ticked buzzing]) = answers later ++ [buzzing] := by
        simp [answers, Event.answer?]
      rw [longer, List.length_append, List.length_singleton, List.range_succ, List.map_append,
        ← sounded]
      refine ⟨Nat.sub_sub _ _ 1, congrArg _ ?_⟩
      rw [Event.Finds, left] at found
      rw [found, List.map_singleton]
      exact congrArg (fun answer => [answer]) (decide_eq_decide.mpr (by omega))
    | executed | pressed | loaded =>
      rw [unanswered rfl]
      exact ⟨rfl, sounded⟩

/-- At every point of every history the timers hold what was last written to them less the ticks
since. An instruction that reads the delay timer gets exactly that, a tick answers whether the
sound timer is above zero, and after the sound timer was set the ticks sound the buzzer exactly as
often as it says, as long as it is not written again. -/
theorem timers_count_down (settings : Settings) (generator : Generator)
    (history : List Command) :
    let start := create settings generator
    let machine := start.after history
    let events := start.chronicle history
    machine.delay.toNat =
        (written Event.delayWrite? events).toNat - ticksSince Event.delayWrite? events ∧
    machine.sound.toNat =
        (written Event.soundWrite? events).toNat - ticksSince Event.soundWrite? events ∧
    (∀ earlier before x after later,
      events = earlier ++ .executed ⟨before, .readDelay x, after⟩ :: later →
      (after.registers.read x).toNat =
        (written Event.delayWrite? earlier).toNat - ticksSince Event.delayWrite? earlier) ∧
    (machine.perform .tick).result = .ok (.buzzing (decide (machine.sound ≠ 0))) ∧
    machine.eventsOf .tick = [.ticked (decide (machine.sound ≠ 0))] ∧
    ∀ earlier before x after later,
      events = earlier ++ .executed ⟨before, .setSound x, after⟩ :: later →
      (∀ event ∈ later, event.soundWrite? = none) →
      answers later = (List.range (answers later).length).map fun tick =>
        decide (tick < (before.registers.read x).toNat) := by
  intro start machine events
  have counted : Counted events machine := counted_create settings generator history
  refine ⟨counted.delay, counted.sound, ?_, rfl, rfl, ?_⟩
  · intro earlier before x after later split
    exact counted.finds earlier _ later split
  · intro earlier before x after later split silent
    have finds := counted.finds
    rw [split, ← List.singleton_append, ← List.append_assoc] at finds
    have sounded := (answers_eq finds silent).2
    rwa [remaining_of_write rfl] at sounded

/-- A program that sets the sound timer to two. -/
def beep : List UInt8 := [0x6F, 0x02, 0xFF, 0x18]

def beforeBeep : Machine := unloaded.loaded beep

def atBeep : Machine :=
  { beforeBeep with pc := 0x202, registers := beforeBeep.registers.write Register.flag 2 }

/-- The sound timer is set, and two of the three ticks behind sound the buzzer. -/
theorem timers_count_down_beep :
    let start := create {} Generator.zeros
    let history : List Command := [.load beep, .cycle, .cycle, .tick, .tick, .tick]
    let set : Dispatch := ⟨atBeep, .setSound Register.flag, { atBeep with pc := 0x204, sound := 2 }⟩
    let ticks : List Event := [.ticked true, .ticked true, .ticked false]
    start.chronicle history =
        [.loaded, .executed ⟨beforeBeep, .loadByte Register.flag 2, atBeep⟩] ++
          .executed set :: ticks ∧
      (∀ event ∈ ticks, event.soundWrite? = none) ∧
      (start.after history).sound.toNat = 0 ∧
      answers ticks = (List.range 3).map fun tick => decide (tick < 2) := by
  intro start history set ticks
  have loaded : start.chronicle history =
      .loaded :: beforeBeep.chronicle [.cycle, .cycle, .tick, .tick, .tick] :=
    chronicle_load (by decide) _
  have first : beforeBeep.chronicle [.cycle, .cycle, .tick, .tick, .tick] =
      .executed ⟨beforeBeep, .loadByte Register.flag 2, atBeep⟩ ::
        atBeep.chronicle [.cycle, .tick, .tick, .tick] := by
    have word : beforeBeep.word = 0x6F02 :=
      word_of_written beep 0 (memory_loaded unloaded beep) rfl (by decide) (by decide)
    have decoded : Instruction.decode beforeBeep.word = some (.loadByte Register.flag 2) := by
      rw [word]
      rfl
    exact chronicle_cycle rfl rfl (by decide) decoded rfl _
  have second : atBeep.chronicle [.cycle, .tick, .tick, .tick] =
      .executed set :: set.after.chronicle [.tick, .tick, .tick] := by
    have written : atBeep.memory = _ := memory_loaded unloaded beep
    have place : atBeep.pc = programStart + 2 := rfl
    have word : atBeep.word = 0xFF18 := word_of_written beep 2 written place (by decide) (by decide)
    have decoded : Instruction.decode atBeep.word = some (.setSound Register.flag) := by
      rw [word]
      rfl
    exact chronicle_cycle rfl rfl (by decide) decoded rfl _
  have chronicled : start.chronicle history =
      [.loaded, .executed ⟨beforeBeep, .loadByte Register.flag 2, atBeep⟩] ++
        .executed set :: ticks := by
    rw [loaded, first, second]
    simp [chronicle, eventsOf, perform, tick, isBuzzing, countDown, set, ticks]
  have silent : ∀ event ∈ ticks, event.soundWrite? = none := by simp [ticks, Event.soundWrite?]
  obtain ⟨-, sound, -, -, -, buzzes⟩ := timers_count_down {} Generator.zeros history
  refine ⟨chronicled, silent, ?_, ?_⟩
  · rw [sound, chronicled]
    rfl
  · exact buzzes _ atBeep Register.flag set.after ticks chronicled silent

end ChipEight.Machine
