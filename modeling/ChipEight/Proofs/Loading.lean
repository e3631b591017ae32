/-
This file proves that a load forgets the past, and that a load which fails leaves it alone.

A load makes a machine anew and takes over two things only, the settings and the random
numbers. So of two machines with whatever past, once both have loaded one program, nothing
but these two can differ. No operation looks at the settings, and so to differ in them alone
is a likeness that lasts: machines that are alike in this way answer alike for ever. If the
random numbers agree as well, so do machines that loaded one program.
-/

import ChipEight.Machine.Dump
import ChipEight.Proofs.Likeness

namespace ChipEight

/-! ### A machine on which a program was just loaded -/

namespace Machine

/-- Every part of a machine is as a load of a program has to leave it, the settings and the random
numbers apart. -/
structure IsFresh (machine : Machine) (program : List UInt8) : Prop where
  font : machine.memory.slice 0 80 = Font.bytes
  gap : ∀ address, 80 ≤ address → address < 0x200 → machine.memory.read address = 0
  code : machine.memory.slice 0x200 program.length = program
  rest : ∀ address, 0x200 + program.length ≤ address → machine.memory.read address = 0
  pc : machine.pc = 0x200
  index : machine.index = 0
  registers : ∀ register, machine.registers.read register = 0
  delay : machine.delay = 0
  sound : machine.sound = 0
  depth : machine.stack.depth = 0
  slots : ∀ slot : Fin stackSize, machine.stack.slots[slot] = 0
  screen : ∀ pixel, machine.screen.isLit pixel = false
  keypad : ∀ key, machine.keypad.isPressed key = false
  awaiting : machine.awaiting = none
  halted : machine.halted = false

theorem isFresh_loaded (machine : Machine) {program : List UInt8}
    (fits : program.length ≤ maximumProgramSize) : (machine.loaded program).IsFresh program := by
  have room : programStart + program.length ≤ memorySize := Nat.add_le_add_left fits programStart
  have unwritten (address : Nat) (high : 80 ≤ address) :
      (Memory.zero.overwrite 0 Font.bytes).read address = 0 := by
    rw [Memory.read_overwrite_other _ _ _ _ (.inr (by simpa [Font.length_bytes])),
      Memory.read_zero]
  refine
    { font := ?_, gap := fun address high low => ?_, code := ?_, rest := fun address high => ?_,
      pc := rfl, index := rfl, registers := fun register => ?_, delay := rfl, sound := rfl,
      depth := rfl, slots := fun slot => ?_, screen := fun pixel => ?_, keypad := fun key => ?_,
      awaiting := rfl, halted := rfl }
  · rw [memory_loaded, Memory.slice_overwrite_other _ _ _ (.inl (by decide))]
    exact Memory.slice_overwrite_self Memory.zero 0 Font.bytes (by decide)
  · have before : address < programStart := low
    rw [memory_loaded, Memory.read_overwrite_other _ _ _ _ (.inl before),
      unwritten address high]
  · exact Memory.slice_overwrite_self _ programStart program room
  · have beyond : programStart + program.length ≤ address := high
    rw [memory_loaded, Memory.read_overwrite_other _ _ _ _ (.inr beyond),
      unwritten address (by omega)]
  · exact Vector.getElem_replicate _
  · exact Vector.getElem_replicate _
  · exact Vector.getElem_replicate _
  · exact Keypad.isPressed_released _

end Machine

/-! ### Settings -/

namespace Likeness

/-- The likeness of machines that differ in their settings alone. Those of the second are given. -/
def butSettings (settings : Settings) : Likeness :=
  { equality with settings := fun _ other => other = settings }

theorem onMachines_butSettings_iff {settings : Settings} {machine machine' : Machine} :
    (butSettings settings).OnMachines machine machine' ↔
      machine' = { machine with settings := settings } := by
  constructor
  · rintro ⟨⟨_, _, _, _, _⟩, ⟨rfl, rfl, rfl, rfl, rfl⟩, rfl⟩
    rfl
  · rintro rfl
    exact ⟨{ machine.parts with settings := settings }, ⟨rfl, rfl, rfl, rfl, rfl⟩, rfl⟩

/-- No instruction and no operation looks at the settings. -/
theorem lasts_butSettings (settings : Settings) : (butSettings settings).Lasts :=
  lasts_of_eq rfl rfl rfl rfl

end Likeness

/-! ### Answers -/

/-- What a history answers and reports, operation by operation. -/
def Machine.replies (machine : Machine) : List Command → List (Except Error Reply × Array Notice)
  | [] => []
  | command :: rest =>
    ((machine.perform command).result, (machine.perform command).notices) ::
      (machine.perform command).machine.replies rest

/-- Machines that are alike in a way that lasts answer alike for ever. -/
theorem Likeness.Lasts.replies {like : Likeness} (lasts : like.Lasts) {machine machine' : Machine}
    (alike : like.OnMachines machine machine') (commands : List Machine.Command) :
    machine.replies commands = machine'.replies commands ∧
      like.OnMachines (machine.after commands) (machine'.after commands) := by
  induction commands generalizing machine machine' with
  | nil => exact ⟨rfl, alike⟩
  | cons command rest previous =>
    obtain ⟨result, after, notices⟩ := lasts.onOutcomes_perform alike command
    obtain ⟨later, last⟩ := previous after
    exact ⟨by rw [Machine.replies, Machine.replies, result, notices, later], last⟩

namespace Machine

/-- A load forgets the past. Whatever two machines have been through, once both have loaded one
program they are fresh and equal but for their settings and random numbers, which they have kept,
and if the random numbers agree too, they answer and show the same for ever. A program that is too
large is refused and changes nothing. -/
theorem load_forgets (machine machine' : Machine) (program : List UInt8) :
    (program.length ≤ 3584 →
      let loaded := (machine.load program).machine
      let loaded' := (machine'.load program).machine
      (machine.load program).result = .ok () ∧ (machine'.load program).result = .ok () ∧
      loaded.IsFresh program ∧
      loaded.settings = machine.settings ∧ loaded.random = machine.random ∧
      loaded' = { loaded with settings := machine'.settings, random := machine'.random } ∧
      (machine.random = machine'.random → ∀ later,
        let last := loaded.after later
        let last' := loaded'.after later
        loaded.replies later = loaded'.replies later ∧
        last' = { last with settings := machine'.settings } ∧
        (∀ count, last.memoryText count = last'.memoryText count) ∧
        last.registersText = last'.registersText ∧ last.screenText = last'.screenText ∧
        last.keysText = last'.keysText)) ∧
    (3584 < program.length →
      machine.load program = ⟨.error (.largeProgram program.length), machine, #[]⟩) := by
  constructor
  · intro fits
    have succeeds : (Command.load program).reloads = true := decide_eq_true fits
    rw [load_of_reloads succeeds, load_of_reloads succeeds]
    refine ⟨rfl, rfl, machine.isFresh_loaded fits, rfl, rfl, rfl, fun agree later => ?_⟩
    have same : machine'.loaded program =
        { machine.loaded program with settings := machine'.settings } := by
      unfold loaded
      rw [← agree]
      rfl
    obtain ⟨replies, after⟩ := (Likeness.lasts_butSettings machine'.settings).replies
      (Likeness.onMachines_butSettings_iff.mpr same) later
    rw [Likeness.onMachines_butSettings_iff] at after
    dsimp only
    rw [after]
    exact ⟨replies, rfl, fun _ => rfl, rfl, rfl, rfl⟩
  · intro large
    exact load_of_not_reloads (decide_eq_false (Nat.not_le.mpr large))

/-- A machine that has stopped in the middle of something. -/
def abandoned : Machine :=
  { unloaded with
    settings := { tickrate := 7 }
    pc := 0x302
    index := 0x250
    registers := Vector.replicate 16 9
    sound := 3
    stack := ⟨Vector.replicate stackSize 0x204, 2⟩
    keypad := ⟨0xFFFF⟩
    memory := Memory.zero.overwrite 0x250 [0xFF]
    halted := true }

/-- The abandoned machine starts again like one on which nothing happened, unless the program is
too large. -/
theorem load_forgets_abandoned :
    let program : List UInt8 := [0xA2, 0x34]
    let large : List UInt8 := List.replicate 3585 0
    program.length ≤ 3584 ∧ abandoned.random = unloaded.random ∧
      (abandoned.load program).machine.IsFresh program ∧
      (abandoned.load program).machine.replies [.cycle, .tick] =
        (unloaded.load program).machine.replies [.cycle, .tick] ∧
      3584 < large.length ∧
      abandoned.load large = ⟨.error (.largeProgram large.length), abandoned, #[]⟩ := by
  intro program large
  have small : program.length ≤ 3584 := by decide
  have beyond : 3584 < large.length := by rw [List.length_replicate]; decide
  obtain ⟨-, -, fresh, -, -, -, alike⟩ := (load_forgets abandoned unloaded program).1 small
  exact ⟨small, rfl, fresh, (alike rfl [.cycle, .tick]).1, beyond,
    (load_forgets abandoned unloaded large).2 beyond⟩

end Machine

end ChipEight
