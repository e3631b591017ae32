/-
This file holds the invariant of reachable machines.

A return address is the program counter of a call that was fetched, plus two. The
fetch keeps the program counter below the end of memory, so return addresses are
small, and a return therefore leaves a small program counter again; the largest one
of all comes from a jump with an offset. The bounds on the program counter and on
the call stack carry each other, which is why they form one invariant.
-/

import ChipEight.Proofs.History

namespace ChipEight.Machine

/-- A machine that some history leads to from a new one. -/
def Reachable (machine : Machine) : Prop :=
  ∃ settings generator commands, machine = (create settings generator).after commands

/-- The invariant of reachable machines. -/
structure Sound (machine : Machine) : Prop where
  /-- No more calls are open than the stack has slots. -/
  depth_le : machine.stack.depth ≤ stackSize
  /-- Every return address is behind an instruction that was fetched. -/
  live_bounds : ∀ address ∈ machine.stack.live, 0x002 ≤ address.toNat ∧ address.toNat ≤ 0x1000
  /-- The program counter is at most the largest target of a jump with an offset. -/
  pc_le : machine.pc ≤ 0x10FE
  /-- A machine that has stopped waits for nothing. -/
  exclusive : machine.halted = true → machine.awaiting = none

/-! ### Operations that execute nothing -/

theorem sound_blank (settings : Settings) (random : RandomSource) :
    (blank settings random).Sound where
  depth_le := Nat.zero_le _
  live_bounds := nofun
  pc_le := show 0x200 ≤ 0x10FE by decide
  exclusive := nofun

theorem Sound.load {machine : Machine} (sound : machine.Sound) (program : List UInt8) :
    (machine.load program).machine.Sound := by
  unfold Machine.load
  split
  case isTrue =>
    have fresh := sound_blank machine.settings machine.random
    exact ⟨fresh.depth_le, fresh.live_bounds, fresh.pc_le, fresh.exclusive⟩
  case isFalse => exact sound

theorem Sound.loadFont {machine : Machine} (sound : machine.Sound) : machine.loadFont.Sound := by
  unfold Machine.loadFont
  exact ⟨sound.depth_le, sound.live_bounds, sound.pc_le, sound.exclusive⟩

theorem Sound.tick {machine : Machine} (sound : machine.Sound) : machine.tick.Sound := by
  unfold Machine.tick
  exact ⟨sound.depth_le, sound.live_bounds, sound.pc_le, sound.exclusive⟩

theorem Sound.setKey {machine : Machine} (sound : machine.Sound) (key : Key) (pressed : Bool) :
    (machine.setKey key pressed).1.Sound := by
  unfold Machine.setKey
  split
  case h_1 => exact ⟨sound.depth_le, sound.live_bounds, sound.pc_le, fun _ => rfl⟩
  case h_2 => exact ⟨sound.depth_le, sound.live_bounds, sound.pc_le, sound.exclusive⟩

theorem Sound.applyKeyEvent {machine : Machine} (sound : machine.Sound) (event : KeyEvent) :
    (machine.applyKeyEvent event).machine.Sound := by
  unfold Machine.applyKeyEvent
  split
  case h_1 key _ => exact sound.setKey key event.isPress
  case h_2 => exact sound

/-! ### Instructions -/

/-- An instruction that was fetched and succeeds keeps the invariant. -/
theorem Sound.execute {machine after : Machine} {instruction : Instruction}
    (sound : machine.Sound) (running : machine.halted = false) (inside : machine.pc ≤ 0xFFE)
    (steered : Steered machine.advance instruction after) : after.Sound := by
  obtain ⟨depthBound, bounds, -, -⟩ := sound
  have moves : machine.advance.halted ≠ true := by simp [advance, running]
  cases steered with
  | @leave address stack _ popped result =>
    subst result
    have lives : machine.stack.live = stack.live ++ [address] :=
      CallStack.live_of_pop? popped depthBound
    have depths : machine.stack.depth = stack.depth + 1 := CallStack.depth_of_pop? popped
    have top := bounds address (by rw [lives]; exact List.mem_append_right _ (.head _))
    -- The new program counter was on the stack: here its bound rests on that of the addresses.
    refine ⟨?_, fun other member => ?_, ?_, fun halted => absurd halted moves⟩
    · simp only; omega
    · exact bounds other (by rw [lives]; exact List.mem_append_left _ member)
    · simp only; omega
  | @call target stack _ pushed result =>
    subst result
    have lives : stack.live = machine.stack.live ++ [UInt16.ofNat (machine.pc + 2)] :=
      CallStack.live_of_push? pushed
    obtain ⟨free, depths⟩ := CallStack.depth_of_push? pushed
    refine ⟨?_, fun other member => ?_, ?_, fun halted => absurd halted moves⟩
    · exact Nat.le_trans (Nat.le_of_eq depths) free
    · rw [lives] at member
      rcases List.mem_append.mp member with older | newest
      · exact bounds other older
      · rw [List.mem_singleton.mp newest, UInt16.toNat_ofNat', Nat.mod_eq_of_lt (by omega)]
        omega
    · simp only; omega
  | awaitKey _ result =>
    subst result
    refine ⟨depthBound, bounds, ?_, fun halted => absurd halted moves⟩
    simp only [advance, instructionSize]; omega
  | other _ _ stack awaiting halted near =>
    refine ⟨?_, ?_, ?_, fun stopped => absurd (halted ▸ stopped) moves⟩
    · rw [stack]; exact depthBound
    · rw [stack]; exact bounds
    · simp only [advance, instructionSize] at near; omega

theorem Sound.cycle {machine : Machine} (sound : machine.Sound) : machine.cycle.machine.Sound := by
  have ⟨depthBound, bounds, pcBound, _⟩ := sound
  cases machine.cycled with
  | stopped _ same | waiting _ _ same => rw [same]; exact sound
  | unfetched _ awake _ same => rw [same]; exact ⟨depthBound, bounds, pcBound, fun _ => awake⟩
  | refused _ awake inside _ same =>
    rw [same]
    refine ⟨depthBound, bounds, ?_, fun _ => awake⟩
    simp only [stopOn, advance, instructionSize]; omega
  | executed running _ inside _ succeeded same =>
    rw [same]
    exact sound.execute running inside (steered_of_execute succeeded)

/-! ### Histories -/

/-- Every operation that is no run keeps the invariant. -/
theorem Sound.perform {machine : Machine} (sound : machine.Sound) {command : Command}
    (single : ∀ count, command ≠ .run count) : (machine.perform command).machine.Sound := by
  cases command with
  | load program => exact sound.load program
  | loadFont => exact sound.loadFont
  | tick => exact sound.tick
  | cycle => exact sound.cycle
  | run count => exact absurd rfl (single count)
  | keyEvent event => exact sound.applyKeyEvent event
  | setKey key pressed => exact sound.setKey key pressed

theorem Sound.after {machine : Machine} (sound : machine.Sound) (commands : List Command) :
    (machine.after commands).Sound :=
  after_preserves (fun _ _ member sound => sound.perform (mem_unroll member).1) sound

/-- Reachable machines satisfy the invariant. -/
theorem Reachable.sound {machine : Machine} (reachable : machine.Reachable) : machine.Sound := by
  obtain ⟨settings, generator, commands, rfl⟩ := reachable
  exact (sound_blank _ _).after commands

theorem Reachable.after {machine : Machine} (reachable : machine.Reachable)
    (commands : List Command) : (machine.after commands).Reachable := by
  obtain ⟨settings, generator, earlier, rfl⟩ := reachable
  exact ⟨settings, generator, earlier ++ commands, (after_append _ _ _).symm⟩

end ChipEight.Machine
