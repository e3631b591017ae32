/-
This file proves what a wait for a key keeps out, and what ends it.

A machine that has begun to wait is idle: cycles, ticks, releases and keys that do not
exist come and go, and of the machine only the timers and the keypad move. The first key
that is pressed goes into the register that waits, and the machine goes on behind the
instruction. From then on a key only shows in the keypad, until another wait begins.

Over a whole history that is a statement about the chronicle. Which register waits is
decided by the last event that begins or ends a wait, a press finds exactly that register,
and no instruction is executed as long as there is one. So each wait gets the first press
after it and no other.
-/

import ChipEight.Proofs.Chronicle
import ChipEight.Proofs.Driving
import Mathlib.Data.List.Induction

namespace ChipEight.Machine

/-! ### The register that waits -/

namespace Event

/-- The register that waits after an event, if the event decides about it. -/
def wait? : Event → Option (Option Register)
  | executed ⟨_, .awaitKey x, _⟩ => some (some x)
  | pressed _ _ _ | loaded => some none
  | _ => none

end Event

/-- The register that waits for a key after some events, if one does. It may have waited
before. -/
def pendingWait (waits : Option Register) (events : List Event) : Option Register :=
  (lastWritten? Event.wait? events).getD waits

theorem pendingWait_append_singleton (waits : Option Register) (events : List Event)
    (event : Event) :
    pendingWait waits (events ++ [event]) = event.wait?.getD (pendingWait waits events) := by
  rw [pendingWait, lastWritten?_append_singleton]
  cases event.wait? <;> rfl

/-- The machine once a key is pressed, which goes into the register that waits if one does. -/
def receives (machine : Machine) (key : Key) (waits : Option Register) : Machine :=
  { machine with
    keypad := machine.keypad.update key true
    awaiting := none
    registers :=
      match waits with
      | some x => machine.registers.write x key.toByte
      | none => machine.registers }

theorem setKey_eq_receives (machine : Machine) (key : Key) :
    (machine.setKey key true).1 = machine.receives key machine.awaiting := by
  cases waits : machine.awaiting with
  | none =>
    rw [machine.setKey_of_unanswered key true (.inl waits), receives, ← waits]
  | some x => rw [machine.setKey_of_awaiting key waits, receives]

/-- What an event finds after earlier ones: nothing is executed during a wait, and a press goes
into the register that waits. -/
def Event.Meets (waits : Option Register) (earlier : List Event) : Event → Prop
  | executed _ => pendingWait waits earlier = none
  | pressed before key after =>
    before.awaiting = pendingWait waits earlier ∧
      after = before.receives key (pendingWait waits earlier)
  | _ => True

/-- A machine waits as the events that led to it say, and so did it before each of them. -/
structure Gated (waits : Option Register) (events : List Event) (machine : Machine) : Prop where
  awaiting : machine.awaiting = pendingWait waits events
  meets : AtEach (Event.Meets waits) events

/-- An event that decides about the wait as it says it does keeps the gate. -/
theorem Gated.next {waits : Option Register} {events : List Event} {event : Event}
    {before after : Machine} (gated : Gated waits events before)
    (awaiting : after.awaiting = event.wait?.getD before.awaiting)
    (meets : event.Meets waits events) : Gated waits (events ++ [event]) after := by
  refine ⟨?_, gated.meets.append_singleton meets⟩
  rw [pendingWait_append_singleton, ← gated.awaiting, awaiting]

/-- However a machine evolves, the gate is kept. -/
theorem Gated.evolves {waits : Option Register} {events new : List Event}
    {before after : Machine} (gated : Gated waits events before)
    (evolves : Evolves before new after) : Gated waits (events ++ new) after := by
  cases evolves with
  | nothing =>
    rw [List.append_nil]
    exact ⟨gated.awaiting, gated.meets⟩
  | @executed instruction step awake succeeded =>
    have covers := (covers_of_execute succeeded).of_advance
    refine gated.next ?_ (gated.awaiting.symm.trans awake)
    cases instruction with
    | awaitKey x => cases succeeded; rfl
    | _ => exact covers.awaiting rfl
  | pressed key =>
    rw [setKey_eq_receives]
    exact gated.next rfl ⟨gated.awaiting, by rw [gated.awaiting]⟩
  | ticked => exact gated.next rfl trivial
  | loaded program => exact gated.next rfl trivial

/-- The machine once it has executed a wait for a key that is to go into a register. -/
def waitingFor (machine : Machine) (x : Register) : Machine :=
  { machine with pc := machine.pc + 2, awaiting := some x }

/-- A machine is about to execute a wait for a key that is to go into a register. -/
structure BeginsWait (machine : Machine) (x : Register) : Prop where
  running : machine.halted = false
  awake : machine.awaiting = none
  inside : machine.pc ≤ 0xFFE
  written : machine.word.fits "FX0A" = true
  register : machine.word.x = x

theorem BeginsWait.decode {machine : Machine} {x : Register} (begins : machine.BeginsWait x) :
    Instruction.decode machine.word = some (.awaitKey x) :=
  Instruction.decode_of_fits begins.written begins.register.symm

theorem BeginsWait.cycle {machine : Machine} {x : Register} (begins : machine.BeginsWait x) :
    machine.cycle.result = .ok .keyWait ∧
      machine.cycle.machine = machine.waitingFor x := by
  have same := cycle_of_executed begins.running begins.awake begins.inside begins.decode rfl
  rw [same]
  exact ⟨rfl, rfl⟩

/-! ### What ends it -/

/-- Whether an operation presses or releases a key, or tries to. -/
def Command.isKey : Command → Bool
  | .keyEvent _ | .setKey _ _ => true
  | _ => false

/-- A program that waits for a key. -/
def asking : List UInt8 := [0xF3, 0x0A]

def beforeAsking : Machine := unloaded.loaded asking

theorem beginsWait_beforeAsking : beforeAsking.BeginsWait 3 := by
  have word : beforeAsking.word = 0xF30A :=
    word_of_written asking 0 (memory_loaded unloaded asking) rfl (by decide) (by decide)
  exact ⟨rfl, rfl, by decide, by rw [word]; decide, by rw [word]; rfl⟩

end ChipEight.Machine
