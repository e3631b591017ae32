/-
This file proves that nothing breaks down: on every reachable machine each operation
of the checked machine succeeds, with exactly the outcome of the machine itself.

The invariant of reachable machines is what makes this true. Its bound on the depth
of the call stack keeps pushes and pops among the slots, its bound on the program
counter keeps sums small and return addresses whole, and a machine that executes an
instruction is never waiting, so no wait begins inside another. Everything else is
kept in range by the operations themselves.
-/

import ChipEight.Proofs.Checked
import ChipEight.Proofs.Invariant
import Mathlib.Tactic.IntervalCases

namespace ChipEight.Checked

/-! ### Numbers and storage -/

@[simp] theorem ok_bind {Value Next : Type} (value : Value) (next : Value → Checked Next) :
    (Except.ok value >>= next) = next value := rfl

theorem fit_eq {bound value : Nat} (small : value < bound) : fit bound value = .ok value :=
  if_pos small

theorem fit_address_eq {value : Nat} (small : value < 4294967296) :
    fit addressBound value = .ok value :=
  fit_eq small

theorem fit_word_eq {value : Nat} (small : value < 65536) : fit wordBound value = .ok value :=
  fit_eq small

theorem position_eq {size index : Nat} (inside : index < size) :
    position size index = .ok ⟨index, inside⟩ :=
  dif_pos inside

theorem range_eq {size start length : Nat} (inside : start + length ≤ size) :
    range size start (start + length) = .ok length := by
  rw [range, if_pos ⟨Nat.le_add_right start length, inside⟩, Nat.add_sub_cancel_left]

theorem readMemory_eq {memory : Memory} {start length : Nat}
    (inside : start + length ≤ memorySize) :
    readMemory memory start (start + length) = .ok (memory.slice start length) := by
  rw [readMemory, range_eq inside]
  rfl

theorem writeMemory_eq {memory : Memory} {start stop : Nat} {bytes : List UInt8}
    (length : stop = start + bytes.length) (inside : stop ≤ memorySize) :
    writeMemory memory start stop bytes = .ok (memory.overwrite start bytes) := by
  subst length
  rw [writeMemory, range_eq inside, ok_bind, if_pos rfl]

theorem registerRange_eq (last : Register) :
    fit addressBound (last + 1) = .ok (last.val + 1) ∧
      range 16 0 (last.val + 1) = .ok (last.val + 1) := by
  have bound := last.isLt
  refine ⟨fit_address_eq (by omega), ?_⟩
  rw [range, if_pos ⟨Nat.zero_le _, by omega⟩, Nat.sub_zero]

theorem readRegisters_eq (registers : Registers) (last : Register) :
    readRegisters registers last = .ok (registers.upTo last) := by
  rw [readRegisters, (registerRange_eq last).1, ok_bind, (registerRange_eq last).2]
  rfl

theorem writeRegisters_eq (registers : Registers) (last : Register) {bytes : List UInt8}
    (length : bytes.length = last.val + 1) :
    writeRegisters registers last bytes = .ok (registers.overwrite bytes) := by
  rw [writeRegisters, (registerRange_eq last).1, ok_bind, (registerRange_eq last).2, ok_bind,
    if_pos length.symm]

/-! ### Instructions -/

/-- The fields of a word name registers, and its first digit names a family. -/
theorem decode_eq (word : Word) : decode word = .ok (Instruction.decode word) := by
  have family : word.toNat / 4096 = word.family.val := by
    have bound := word.toNat_lt
    simp only [Word.family, Word.digit]
    omega
  have familyBound := word.family.isLt
  rw [decode, position_eq (Nat.mod_lt _ (by decide)), ok_bind,
    position_eq (Nat.mod_lt _ (by decide)), ok_bind, family, Instruction.decode]
  generalize word.family.val = number at familyBound
  interval_cases number <;> rfl

theorem advance_eq {machine : Machine} (small : machine.pc < 0x2000) :
    advance machine = .ok machine.advance := by
  rw [advance, fit_address_eq (by simp only [Machine.instructionSize]; omega)]
  rfl

theorem skipIf_eq {machine : Machine} (small : machine.pc < 0x2000) (condition : Bool) :
    skipIf machine condition = .ok { machine := machine.skipIf condition } := by
  rw [skipIf, advance_eq small]
  cases condition <;> rfl

theorem isPressedAt_eq (keypad : Keypad) (index : UInt8) :
    isPressedAt keypad index = .ok (keypad.isPressedAt index) := by
  unfold isPressedAt Keypad.isPressedAt Key.ofByte?
  split
  case isTrue below => rw [position_eq below]; rfl
  case isFalse => rfl

/-- A range that lies in memory goes on to its action, and any other gives the error that the
machine gives. -/
theorem withRange_eq {machine : Machine} {length pc : Nat} {action : Nat → Checked Step}
    {result : Unit → Step} (small : length ≤ 16)
    (inside : machine.index.toNat + length ≤ memorySize →
      action (machine.index.toNat + length) = .ok (result ())) :
    withRange machine length pc action = .ok (machine.checkRange length pc result) := by
  have bound := machine.index.toNat_lt
  rw [withRange, fit_address_eq (by omega), ok_bind, Machine.checkRange]
  split
  case isTrue beyond =>
    have positive : 1 ≤ machine.index.toNat + length := by unfold memorySize at beyond; omega
    rw [difference, if_pos positive, if_neg (by omega)]
    rfl
  case isFalse fits => rw [inside (by omega), if_pos (by omega)]; rfl

/-! ### Drawing -/

/-- A drawing on cleared registers as it shows in the course of drawing. -/
def canvas (cleared : Registers) (drawing : Framebuffer.Drawing) : Canvas :=
  (drawing.screen, cleared.setFlag drawing.erased)

theorem setFlag_or (registers : Registers) (erased lit : Bool) :
    registers.setFlag (erased || lit) =
      if lit then (registers.setFlag erased).write Register.flag 1
      else registers.setFlag erased := by
  cases lit with
  | true => simp [Registers.setFlag, Registers.write, Registers.flagByte]
  | false => simp

theorem drawPixel_eq (cleared : Registers) (drawing : Framebuffer.Drawing) {x y row column : Nat}
    (xBound : x < 256) (yBound : y < 256) (rowBound : row < 16) (columnBound : column < 8) :
    drawPixel x y row column (canvas cleared drawing) =
      .ok (canvas cleared (drawing.step (Pixel.wrap (x + column) (y + row)))) := by
  have place : x + column + (y + row) * Screen.width < 4294967296 := by
    unfold Screen.width; omega
  rw [drawPixel, fit_address_eq (by omega), ok_bind, fit_address_eq (by omega), ok_bind,
    fit_address_eq (by omega), ok_bind, fit_address_eq place, ok_bind,
    position_eq (Nat.mod_lt _ (by decide)), ok_bind]
  simp only [canvas, Framebuffer.Drawing.step, setFlag_or]
  rfl

theorem drawColumns_eq (cleared : Registers) (drawing : Framebuffer.Drawing) {x y row : Nat}
    (xBound : x < 256) (yBound : y < 256) (rowBound : row < 16) (bits : UInt8)
    (columns : List Nat) (inside : ∀ column ∈ columns, column < 8) :
    drawColumns x y row bits columns (canvas cleared drawing) =
      .ok (canvas cleared
        (((columns.filter (Framebuffer.spriteBit bits)).map fun column =>
          Pixel.wrap (x + column) (y + row)).foldl Framebuffer.Drawing.step drawing)) := by
  induction columns generalizing drawing with
  | nil => rfl
  | cons column rest previous =>
    have columnBound := inside column List.mem_cons_self
    have others := fun other member => inside other (List.mem_cons_of_mem column member)
    rw [drawColumns, position_eq columnBound, ok_bind]
    cases set : Framebuffer.spriteBit bits column with
    | true =>
      rw [if_pos rfl, drawPixel_eq cleared drawing xBound yBound rowBound columnBound, ok_bind]
      dsimp only
      rw [previous _ others, List.filter_cons_of_pos set, List.map_cons, List.foldl_cons]
    | false =>
      rw [if_neg Bool.false_ne_true, ok_bind]
      dsimp only
      rw [previous _ others, List.filter_cons_of_neg (by rw [set]; exact Bool.false_ne_true)]

theorem drawRows_eq (cleared : Registers) (drawing : Framebuffer.Drawing) {x y row : Nat}
    (xBound : x < 256) (yBound : y < 256) (rows : List UInt8)
    (rowBound : row + rows.length ≤ 16) :
    drawRows x y row rows (canvas cleared drawing) =
      .ok (canvas cleared ((Framebuffer.spritePixels x (y + row) rows).foldl
        Framebuffer.Drawing.step drawing)) := by
  induction rows generalizing drawing row with
  | nil => rfl
  | cons bits rest previous =>
    rw [List.length_cons] at rowBound
    rw [drawRows, drawColumns_eq cleared drawing xBound yBound (by omega) bits _
      fun column member => List.mem_range.mp member, ok_bind, previous _ (by omega),
      Framebuffer.spritePixels, List.foldl_append]
    rfl

theorem drawSprite_eq (machine : Machine) (x y : Register) {height : Nat} (small : height ≤ 16)
    (inside : machine.index.toNat + height ≤ memorySize) :
    drawSprite machine x y (machine.index.toNat + height) =
      .ok { machine := machine.drawSprite x y height, flow := .draw } := by
  have start : (machine.screen, machine.registers.write Register.flag 0) =
      canvas (machine.registers.write Register.flag 0) ⟨machine.screen, false⟩ := by
    simp [canvas, Registers.setFlag, Registers.write, Registers.flagByte]
  rw [drawSprite, readMemory_eq inside, ok_bind, start,
    drawRows_eq _ _ (UInt8.toNat_lt _) (UInt8.toNat_lt _) _ (by rw [Memory.length_slice]; omega)]
  rfl

/-! ### Execution -/

/-- A fetched instruction on a sound machine, past it, is executed without breaking down. -/
theorem execute_eq {machine : Machine} (pc : Nat) (instruction : Instruction)
    (small : machine.pc < 0x2000) (awake : machine.awaiting = none)
    (bounded : machine.stack.depth ≤ stackSize) :
    execute machine pc instruction = .ok (machine.execute pc instruction) := by
  cases instruction with
  | leave =>
    simp only [execute, Machine.execute, CallStack.pop?]
    cases found : machine.stack.depth with
    | zero => rfl
    | succ depth =>
      have slotted : depth < stackSize := by omega
      simp only [position_eq slotted, ok_bind]
      simp [slotted]
      rfl
  | call target =>
    simp only [execute, Machine.execute, CallStack.push?]
    rw [narrow, fit_word_eq (by omega), ok_bind]
    split
    case isTrue free =>
      rw [fit_address_eq (by unfold stackSize at free; omega)]
      rfl
    case isFalse => rfl
  | skipIfByte x byte | skipUnlessByte x byte | skipIfSame x y | skipUnlessSame x y =>
    simp only [execute, Machine.execute, skipIf_eq small, ok_bind]
    rfl
  | jumpOffset base =>
    have offset := (machine.registers.read Register.offset).toNat_lt
    simp only [execute, Machine.execute]
    rw [fit_address_eq (by omega)]
    rfl
  | draw x y height =>
    have bound := height.isLt
    simp only [execute, Machine.execute]
    exact withRange_eq (by omega) (drawSprite_eq machine x y (by omega))
  | skipIfKey x | skipUnlessKey x =>
    simp only [execute, Machine.execute, isPressedAt_eq, skipIf_eq small, ok_bind]
    rfl
  | awaitKey x =>
    simp only [execute, awake]
    rfl
  | glyph x =>
    have digit := (machine.registers.read x).toNat_lt
    simp only [execute, Machine.execute]
    rw [fit_word_eq (by unfold Font.glyphHeight; omega)]
    rfl
  | storeDecimal x =>
    simp only [execute, Machine.execute]
    refine withRange_eq (by omega) fun inside => ?_
    have digits : (Machine.decimalDigits (machine.registers.read x)).length = 3 := rfl
    rw [writeMemory_eq (by rw [digits]) inside]
    rfl
  | storeRegisters x =>
    have bound := x.isLt
    simp only [execute, Machine.execute, (registerRange_eq x).1, ok_bind]
    refine withRange_eq (by omega) fun inside => ?_
    have bytes : (machine.registers.upTo x).length = x.val + 1 := by
      rw [Registers.upTo, List.length_take, Vector.length_toList]
      omega
    rw [readRegisters_eq, ok_bind, writeMemory_eq (by rw [bytes]) inside]
    rfl
  | readRegisters x =>
    have bound := x.isLt
    simp only [execute, Machine.execute, (registerRange_eq x).1, ok_bind]
    refine withRange_eq (by omega) fun inside => ?_
    rw [readMemory_eq inside, ok_bind, writeRegisters_eq _ _ (Memory.length_slice _ _ _)]
    rfl
  | _ => rfl

/-- A cycle of a sound machine does not break down. -/
theorem cycle_eq {machine : Machine} (sound : machine.Sound) :
    cycle machine = .ok machine.cycle := by
  have pcBound := sound.pc_le
  unfold cycle Machine.cycle
  cases halted : machine.halted with
  | true => rfl
  | false =>
    cases awaiting : machine.awaiting with
    | some register => rfl
    | none =>
      simp only [Bool.false_eq_true, Option.isSome_none, if_false]
      cases fetched : machine.fetch with
      | error cause => rfl
      | ok word =>
        have small : machine.advance.pc < 0x2000 := by
          simp only [Machine.advance, Machine.instructionSize]; omega
        simp only [advance_eq (show machine.pc < 0x2000 by omega), decode_eq, ok_bind,
          Machine.dispatch]
        cases decoded : Instruction.decode word with
        | none => rfl
        | some instruction =>
          simp only [execute_eq machine.pc instruction small awaiting sound.depth_le, ok_bind]
          cases machine.advance.execute machine.pc instruction <;> rfl

/-- A run of a sound machine does not break down. -/
theorem runFrom_eq {machine : Machine} (sound : machine.Sound) (last : Flow)
    (notices : Array Notice) (count : Nat) :
    runFrom last notices count machine = .ok (machine.runFrom last notices count) := by
  induction count generalizing machine last notices with
  | zero => rfl
  | succ count previous =>
    rw [runFrom, Machine.runFrom, cycle_eq sound, ok_bind]
    cases ended : machine.cycle.result with
    | error cause => rfl
    | ok flow =>
      cases blocked : flow.isBlocked with
      | true => simp only [blocked]; rfl
      | false => simp only [blocked]; exact previous sound.cycle flow _

/-! ### Operations -/

theorem loadFont_eq (machine : Machine) : loadFont machine = .ok machine.loadFont := by
  rw [loadFont, writeMemory_eq (by decide) (by decide)]
  rfl

theorem load_eq (machine : Machine) (program : List UInt8) :
    load machine program = .ok (machine.load program) := by
  unfold load Machine.load
  split
  case isTrue fits =>
    have inside : programStart + program.length ≤ memorySize := by
      unfold maximumProgramSize programStart memorySize at *; omega
    rw [loadFont_eq, ok_bind, fit_address_eq (by unfold memorySize at inside; omega), ok_bind,
      writeMemory_eq rfl inside]
    rfl
  case isFalse => rfl

theorem setKey_eq (machine : Machine) (key : Key) (pressed : Bool) :
    setKey machine key pressed = .ok (machine.setKey key pressed) := by
  unfold setKey Machine.setKey
  rw [position_eq key.isLt, ok_bind]
  cases pressed with
  | false => rfl
  | true =>
    cases awaiting : machine.awaiting with
    | none => rfl
    | some register =>
      simp only [position_eq register.isLt, ok_bind]
      rfl

theorem applyKeyEvent_eq (machine : Machine) (event : KeyEvent) :
    applyKeyEvent machine event = .ok (machine.applyKeyEvent event) := by
  unfold applyKeyEvent Machine.applyKeyEvent
  cases Key.ofByte? event.index with
  | none => rfl
  | some key =>
    simp only [setKey_eq, ok_bind]
    rfl

/-- No operation on a sound machine breaks down. -/
theorem perform_eq {machine : Machine} (sound : machine.Sound) (command : Machine.Command) :
    perform machine command = .ok (machine.perform command) := by
  cases command with
  | load program => rw [perform, load_eq, ok_bind]; rfl
  | loadFont => rw [perform, loadFont_eq, ok_bind]; rfl
  | cycle => rw [perform, cycle_eq sound, ok_bind]; rfl
  | run count => rw [perform, runFrom_eq sound, ok_bind]; rfl
  | tick => rfl
  | keyEvent event => rw [perform, applyKeyEvent_eq, ok_bind]; rfl
  | setKey key pressed => rw [perform, setKey_eq, ok_bind]; rfl

end ChipEight.Checked

namespace ChipEight.Machine

/-- After every history the machine is within bounds, and no operation on it breaks down. -/
theorem after_within_bounds (settings : Settings) (generator : Generator)
    (history : List Command) :
    let machine := (create settings generator).after history
    machine.stack.depth ≤ 16 ∧
      (∀ address ∈ machine.stack.live, 0x002 ≤ address.toNat ∧ address.toNat ≤ 0x1000) ∧
      machine.pc ≤ 0x10FE ∧
      (∀ register, machine.awaiting = some register → register.val < 16) ∧
      ¬ (machine.halted = true ∧ machine.awaiting.isSome = true) ∧
      ∀ command, Checked.perform machine command = .ok (machine.perform command) := by
  intro machine
  have sound : machine.Sound := Reachable.sound ⟨settings, generator, history, rfl⟩
  refine ⟨sound.depth_le, sound.live_bounds, sound.pc_le, fun register _ => register.isLt, ?_,
    Checked.perform_eq sound⟩
  rintro ⟨halted, waits⟩
  rw [sound.exclusive halted] at waits
  exact Bool.false_ne_true waits

end ChipEight.Machine
