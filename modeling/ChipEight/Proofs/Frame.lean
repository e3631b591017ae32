/-
This file says what an instruction can change, and that everything else stays.

The footprint of an instruction names the parts of the machine that it may write: which
registers, how many bytes of memory from the index register on, whether it enters or
leaves a call, and which of the other parts. It is read off the way the word is
written. The program counter is not part of it, since every instruction moves that one.
The content here is that a cycle which succeeds leaves everything outside the footprint
of its word as it was, and that no word has the keypad, the stop or the settings in its
footprint.
-/

import ChipEight.Proofs.Nesting
import ChipEight.Proofs.Verdict

namespace ChipEight

/-! ### Footprints -/

/-- What an instruction may change, apart from the program counter. -/
structure Footprint where
  registers : Register → Bool := fun _ => false
  index : Bool := false
  delay : Bool := false
  sound : Bool := false
  /-- The number of bytes of memory from the index register on. -/
  memory : Nat := 0
  screen : Bool := false
  stack : Bracket := .neutral
  awaiting : Bool := false
  random : Bool := false

/-- What the instruction that a word is written as may change. -/
def Word.footprint (word : Word) : Footprint where
  registers register :=
    if word.fitsAny ["6XNN", "7XNN", "8XY0", "8XY1", "8XY2", "8XY3", "CXNN", "FX07"] then
      register = word.x
    else if word.fitsAny ["8XY4", "8XY5", "8XY6", "8XY7", "8XYE"] then
      register = word.x ∨ register = Register.flag
    else if word.fits "DXYN" then register = Register.flag
    else word.fits "FX65" ∧ register ≤ word.x
  index := word.fitsAny ["ANNN", "FX1E", "FX29"]
  delay := word.fits "FX15"
  sound := word.fits "FX18"
  memory := if word.fits "FX33" then 3 else if word.fits "FX55" then word.x + 1 else 0
  screen := word.fitsAny ["00E0", "DXYN"]
  stack :=
    if word.fits "2NNN" then .opening else if word.fits "00EE" then .closing else .neutral
  awaiting := word.fits "FX0A"
  random := word.fits "CXNN"

/-- The registers that an operation on two registers may change: all but the plain ones leave
something in the flag. -/
def Arithmetic.writes (operation : Arithmetic) (x register : Register) : Bool :=
  match operation with
  | .assign | .or | .and | .xor => register = x
  | .add | .subtract | .subtractFrom => register = x ∨ register = Register.flag

/-- What an instruction may change. -/
def Instruction.footprint : Instruction → Footprint
  | clearScreen => { screen := true }
  | leave => { stack := .closing }
  | call _ => { stack := .opening }
  | loadByte x _ | addByte x _ | readDelay x => { registers := fun register => register = x }
  | combine operation x _ => { registers := operation.writes x }
  | shiftRight x | shiftLeft x =>
    { registers := fun register => register = x ∨ register = Register.flag }
  | loadIndex _ | addIndex _ | glyph _ => { index := true }
  | random x _ => { registers := fun register => register = x, random := true }
  | draw _ _ _ => { registers := fun register => register = Register.flag, screen := true }
  | awaitKey _ => { awaiting := true }
  | setDelay _ => { delay := true }
  | setSound _ => { sound := true }
  | storeDecimal _ => { memory := 3 }
  | storeRegisters x => { memory := x + 1 }
  | readRegisters x => { registers := fun register => register ≤ x }
  | _ => {}

/-- The footprint of a word is that of the instruction it decodes to. -/
theorem Word.footprint_of_decode {word : Word} {instruction : Instruction}
    (decoded : Instruction.decode word = some instruction) :
    word.footprint = instruction.footprint := by
  have carried := Instruction.carries_of_decode decoded
  unfold Word.footprint
  simp (disch := decide) only [Instruction.fits_eq_of_decode decoded,
    Instruction.fitsAny_eq_of_decode decoded]
  cases instruction with
  | combine operation x y =>
    obtain ⟨rfl, rfl⟩ := carried
    cases operation <;>
      simp [Instruction.pattern, Instruction.arithmeticPattern, Instruction.footprint,
        Arithmetic.writes, funext_iff]
  | _ => simp_all [Instruction.pattern, Instruction.footprint, Instruction.Carries]

/-! ### Changes within a footprint -/

/-- Whether the depth of the call stack moves the way a call, a return or neither moves it. -/
def Bracket.Moves (bracket : Bracket) (before after : Nat) : Prop :=
  match bracket with
  | .opening => after = before + 1
  | .closing => before = after + 1
  | .neutral => after = before

/-- Two machines differ within a footprint, in the program counter at most beside it. -/
structure Footprint.Covers (footprint : Footprint) (before after : Machine) : Prop where
  registers : ∀ register, footprint.registers register = false →
    after.registers.read register = before.registers.read register := by intros; rfl
  index : footprint.index = false → after.index = before.index := by intros; rfl
  delay : footprint.delay = false → after.delay = before.delay := by intros; rfl
  sound : footprint.sound = false → after.sound = before.sound := by intros; rfl
  memory : ∀ address,
    address < before.index.toNat ∨ before.index.toNat + footprint.memory ≤ address →
    after.memory.read address = before.memory.read address := by intros; rfl
  screen : footprint.screen = false → after.screen = before.screen := by intros; rfl
  /-- A call adds one to the depth and a return takes one off. -/
  depth : footprint.stack.Moves before.stack.depth after.stack.depth := by exact rfl
  /-- A call writes the first slot that is free. -/
  slots : ∀ slot, footprint.stack = .opening ∧ slot = before.stack.depth ∨
    after.stack.slots[slot]? = before.stack.slots[slot]? := by exact fun _ => .inr rfl
  awaiting : footprint.awaiting = false → after.awaiting = before.awaiting := by intros; rfl
  random : footprint.random = false → after.random = before.random := by intros; rfl
  keypad : after.keypad = before.keypad := by rfl
  halted : after.halted = before.halted := by rfl
  settings : after.settings = before.settings := by rfl

/-- A part that a footprint names is free to change. -/
theorem Footprint.free {Kept : Prop} (outside : true = false) : Kept :=
  absurd outside.symm Bool.false_ne_true

/-- Moving the first machine past its instruction makes no difference to what is covered. -/
theorem Footprint.Covers.of_advance {footprint : Footprint} {before after : Machine}
    (covers : footprint.Covers before.advance after) : footprint.Covers before after :=
  ⟨covers.registers, covers.index, covers.delay, covers.sound, covers.memory, covers.screen,
    covers.depth, covers.slots, covers.awaiting, covers.random, covers.keypad, covers.halted,
    covers.settings⟩

namespace Registers

variable (registers : Registers) (x y : Register) {other : Register}

theorem read_setFlag_other (condition : Bool) (different : other ≠ Register.flag) :
    (registers.setFlag condition).read other = registers.read other :=
  read_write_other _ _ different

/-- An operation on two registers leaves those alone that it does not write. -/
theorem read_combine_other (operation : Arithmetic) (unwritten : operation.writes x other = false) :
    (registers.combine operation x y).read other = registers.read other := by
  cases operation with
  | assign | or | and | xor => exact read_write_other _ _ (of_decide_eq_false unwritten)
  | add =>
    obtain ⟨notFirst, notFlag⟩ := not_or.mp (of_decide_eq_false unwritten)
    exact (read_setFlag_other _ _ notFlag).trans (read_write_other _ _ notFirst)
  | subtract | subtractFrom =>
    obtain ⟨notFirst, notFlag⟩ := not_or.mp (of_decide_eq_false unwritten)
    exact (read_write_other _ _ notFirst).trans (read_setFlag_other _ _ notFlag)

/-- A shift leaves those alone that are neither the one that is shifted nor the flag. -/
theorem read_shift_other (notFirst : other ≠ x) (notFlag : other ≠ Register.flag) :
    (registers.shiftRight x).read other = registers.read other ∧
      (registers.shiftLeft x).read other = registers.read other :=
  ⟨(read_write_other _ _ notFirst).trans (read_write_other _ _ notFlag),
    (read_write_other _ _ notFirst).trans (read_write_other _ _ notFlag)⟩

/-- A run of bytes written over the registers ends where the bytes end. -/
theorem read_overwrite_beyond (bytes : List UInt8) (beyond : bytes.length ≤ other.val) :
    (registers.overwrite bytes).read other = registers.read other := by
  simp [overwrite, read, List.getElem?_eq_none beyond]

theorem length_upTo (last : Register) : (registers.upTo last).length = last + 1 := by
  rw [upTo, List.length_take, Vector.length_toList]
  omega

end Registers

namespace CallStack

variable {stack pushed popped : CallStack} {address : UInt16}

/-- Pushing writes the first free slot and no other. -/
theorem slots_of_push? (success : stack.push? address = some pushed) (slot : Nat) :
    slot = stack.depth ∨ pushed.slots[slot]? = stack.slots[slot]? := by
  unfold push? at success
  split at success
  case isFalse => contradiction
  case isTrue free =>
    obtain rfl := Option.some.inj success
    by_cases same : slot = stack.depth
    · exact .inl same
    · exact .inr (Vector.getElem?_set_ne free (Ne.symm same))

/-- Popping leaves every slot as it is. -/
theorem slots_of_pop? (success : stack.pop? = some (address, popped)) :
    popped.slots = stack.slots := by
  unfold pop? at success
  split at success
  case h_1 => contradiction
  case h_2 =>
    obtain ⟨-, rfl⟩ := Prod.mk.inj (Option.some.inj success)
    rfl

end CallStack

namespace Machine

section Writing

variable (machine : Machine)

theorem covers_withRegisters {writes : Register → Bool} {registers : Registers}
    (kept : ∀ register, writes register = false →
      registers.read register = machine.registers.read register) :
    Footprint.Covers { registers := writes } machine (machine.withRegisters registers) :=
  { registers := kept }

theorem covers_setRegister (x : Register) (byte : UInt8) :
    Footprint.Covers { registers := fun register => register = x } machine
      (machine.setRegister x byte) :=
  machine.covers_withRegisters fun _ other =>
    Registers.read_write_other _ _ (of_decide_eq_false other)

theorem covers_drawSprite (x y : Register) (height : Nat) :
    Footprint.Covers { registers := fun register => register = Register.flag, screen := true }
      machine (machine.drawSprite x y height) := by
  have drawn (screen : Framebuffer) (condition : Bool) :
      Footprint.Covers { registers := fun register => register = Register.flag, screen := true }
        machine { machine with
          screen := screen
          registers := (machine.registers.write Register.flag 0).setFlag condition } := by
    refine { registers := fun _ unwritten => ?_, screen := Footprint.free }
    have notFlag := of_decide_eq_false unwritten
    exact (Registers.read_setFlag_other _ _ notFlag).trans
      (Registers.read_write_other _ _ notFlag)
  exact drawn _ _

theorem covers_overwrite (bytes : List UInt8) :
    Footprint.Covers { memory := bytes.length } machine
      { machine with memory := machine.memory.overwrite machine.index.toNat bytes } :=
  { memory := fun _ outside => Memory.read_overwrite_other _ _ _ _ outside }

end Writing

/-- An instruction that succeeds changes nothing outside its footprint. -/
theorem covers_of_execute {machine : Machine} {pc : Nat} {instruction : Instruction} {step : Step}
    (executed : machine.execute pc instruction = .ok step) :
    instruction.footprint.Covers machine step.machine := by
  cases instruction with
  | leave =>
    simp only [execute] at executed
    split at executed
    case h_1 popped =>
      cases executed
      exact { depth := CallStack.depth_of_pop? popped,
              slots := fun _ => .inr (by rw [CallStack.slots_of_pop? popped]) }
    case h_2 => contradiction
  | call target =>
    simp only [execute] at executed
    split at executed
    case h_1 pushed =>
      cases executed
      exact { depth := (CallStack.depth_of_push? pushed).2,
              slots := fun slot => (CallStack.slots_of_push? pushed slot).imp_left (⟨rfl, ·⟩) }
    case h_2 => contradiction
  | jump | jumpOffset => cases executed; exact {}
  | skipIfByte | skipUnlessByte | skipIfSame | skipUnlessSame | skipIfKey | skipUnlessKey =>
    cases executed
    simp only [skipIf_eq]
    exact {}
  | clearScreen => cases executed; exact { screen := Footprint.free }
  | loadIndex | addIndex | glyph => cases executed; exact { index := Footprint.free }
  | awaitKey => cases executed; exact { awaiting := Footprint.free }
  | setDelay => cases executed; exact { delay := Footprint.free }
  | setSound => cases executed; exact { sound := Footprint.free }
  | loadByte | addByte | readDelay => cases executed; exact machine.covers_setRegister _ _
  | random x mask =>
    cases executed
    have written := machine.covers_setRegister x (mask &&& machine.random.peek)
    exact { registers := written.registers, random := Footprint.free }
  | combine =>
    cases executed
    exact machine.covers_withRegisters fun _ => Registers.read_combine_other _ _ _ _
  | shiftRight =>
    cases executed
    refine machine.covers_withRegisters fun _ unwritten => ?_
    obtain ⟨notFirst, notFlag⟩ := not_or.mp (of_decide_eq_false unwritten)
    exact (machine.registers.read_shift_other _ notFirst notFlag).1
  | shiftLeft =>
    cases executed
    refine machine.covers_withRegisters fun _ unwritten => ?_
    obtain ⟨notFirst, notFlag⟩ := not_or.mp (of_decide_eq_false unwritten)
    exact (machine.registers.read_shift_other _ notFirst notFlag).2
  | draw =>
    simp only [execute, checkRange_eq_ok_iff] at executed
    obtain ⟨-, rfl⟩ := executed
    exact machine.covers_drawSprite _ _ _
  | storeDecimal x =>
    simp only [execute, checkRange_eq_ok_iff] at executed
    obtain ⟨-, rfl⟩ := executed
    exact machine.covers_overwrite (decimalDigits (machine.registers.read x))
  | storeRegisters x =>
    simp only [execute, checkRange_eq_ok_iff] at executed
    obtain ⟨-, rfl⟩ := executed
    have stored := machine.covers_overwrite (machine.registers.upTo x)
    rw [Registers.length_upTo] at stored
    exact stored
  | readRegisters x =>
    simp only [execute, checkRange_eq_ok_iff] at executed
    obtain ⟨-, rfl⟩ := executed
    refine machine.covers_withRegisters fun register beyond =>
      Registers.read_overwrite_beyond _ _ ?_
    rw [Memory.length_slice]
    exact Nat.lt_of_not_le (of_decide_eq_false beyond)

/-- A cycle stays within the footprint of the instruction that it executes, and one that executes
none moves nothing but the program counter and the stop. -/
theorem covers_of_cycle (machine : Machine) :
    (∃ pc halted, machine.cycle.machine = { machine with pc := pc, halted := halted }) ∨
      ∃ instruction, machine.CanFetch ∧ Instruction.decode machine.word = some instruction ∧
        instruction.footprint.Covers machine machine.cycle.machine := by
  cases machine.cycled with
  | stopped _ same | waiting _ _ same => exact .inl ⟨machine.pc, machine.halted, by rw [same]⟩
  | unfetched _ _ _ same => exact .inl ⟨machine.pc, true, by rw [same]; rfl⟩
  | refused _ _ _ _ same => exact .inl ⟨machine.advance.pc, true, by rw [same]; rfl⟩
  | executed running awake inside decoded executed same =>
    refine .inr ⟨_, ⟨running, awake, inside⟩, decoded, ?_⟩
    rw [same]
    exact (covers_of_execute executed).of_advance

/-- A cycle that executes a word changes nothing outside the footprint of the word. -/
theorem cycle_changes_within_footprint (machine : Machine) (flow : Flow)
    (running : machine.halted = false) (awake : machine.awaiting = none)
    (succeeded : machine.cycle.result = .ok flow) :
    machine.fetch = .ok machine.word ∧
      machine.word.footprint.Covers machine machine.cycle.machine := by
  cases machine.cycled with
  | stopped halted => rw [running] at halted; cases halted
  | waiting _ waits => rw [awake] at waits; cases waits
  | unfetched _ _ _ same | refused _ _ _ _ same => rw [same] at succeeded; cases succeeded
  | executed _ _ inside decoded executed same =>
    refine ⟨by rw [fetch_eq, if_pos inside], ?_⟩
    have covers := covers_of_execute executed
    rw [Word.footprint_of_decode decoded, same]
    exact covers.of_advance

/-- A machine that is about to read two registers from the last two bytes of memory. -/
def readingEnd : Machine :=
  { blank {} (RandomSource.start fun _ => 0) with
    memory := Memory.zero.overwrite 0x200 [0xF1, 0x65]
    index := 0xFFE }

/-- Two bytes that are written at the program counter are the word there. -/
theorem word_of_overwrite (machine : Machine) {memory : Memory} {high low : UInt8}
    (written : machine.memory = memory.overwrite machine.pc [high, low])
    (inside : machine.pc + 2 ≤ memorySize) : machine.word = Word.ofBytes high low :=
  word_of_written [high, low] 0 written (Nat.add_zero _).symm (Nat.lt_add_one 1) inside

theorem cycle_result_readingEnd : readingEnd.cycle.result = .ok .next := by
  have written : readingEnd.word = 0xF165 := readingEnd.word_of_overwrite rfl (by decide)
  rw [cycle_result_of_ready _ rfl rfl, fetch_eq, if_pos (by decide), written]
  rfl

theorem cycle_changes_within_footprint_readingEnd :
    readingEnd.halted = false ∧ readingEnd.awaiting = none ∧
      readingEnd.cycle.result = .ok .next ∧
      readingEnd.fetch = .ok readingEnd.word ∧
      readingEnd.word.footprint.Covers readingEnd readingEnd.cycle.machine :=
  ⟨rfl, rfl, cycle_result_readingEnd,
    cycle_changes_within_footprint readingEnd .next rfl rfl cycle_result_readingEnd⟩

end Machine

end ChipEight
