/-
This file says where execution goes on after an instruction.

Four words leave the row: a jump, a call and a jump with an offset go to an address they name, and
a return goes to the newest of the return addresses in use. Six words test a condition and pass
over the next instruction if it holds, and every other word is followed by the one behind it,
whatever it has written to memory. The tests come in pairs that ask for the opposite of each other,
so of two words of a pair exactly one skips, on any machine.
-/

import ChipEight.Proofs.Nesting
import ChipEight.Proofs.Verdict

namespace ChipEight

/-- Whether a byte names a key that is pressed. -/
def Keypad.Holds (keypad : Keypad) (byte : UInt8) : Prop :=
  ∃ key : Key, key.val = byte.toNat ∧ keypad.isPressed key = true

theorem Keypad.isPressedAt_iff (keypad : Keypad) (byte : UInt8) :
    keypad.isPressedAt byte = true ↔ keypad.Holds byte := by
  unfold isPressedAt Holds Key.ofByte?
  by_cases below : byte.toNat < 16
  · rw [dif_pos below]
    constructor
    · exact fun pressed => ⟨_, rfl, pressed⟩
    · rintro ⟨key, same, pressed⟩
      obtain rfl : key = ⟨byte.toNat, below⟩ := Fin.ext same
      exact pressed
  · rw [dif_neg below]
    refine iff_of_false Bool.false_ne_true ?_
    rintro ⟨key, same, -⟩
    exact below (same ▸ key.isLt)

namespace Machine

/-! ### Tests -/

/-- Whether a word passes over the next instruction: it tests a condition, which holds. -/
def Skips (machine : Machine) (word : Word) : Prop :=
  let value := machine.registers.read
  word.fits "3XNN" = true ∧ value word.x = word.lowByte ∨
  word.fits "4XNN" = true ∧ value word.x ≠ word.lowByte ∨
  word.fits "5XY*" = true ∧ value word.x = value word.y ∨
  word.fits "9XY*" = true ∧ value word.x ≠ value word.y ∨
  word.fits "EX9E" = true ∧ machine.keypad.Holds (value word.x) ∨
  word.fits "EXA1" = true ∧ ¬ machine.keypad.Holds (value word.x)

/-- What an instruction finds that tests a condition. -/
def test? (machine : Machine) : Instruction → Option Bool
  | .skipIfByte x byte => some (machine.registers.read x = byte)
  | .skipUnlessByte x byte => some (machine.registers.read x ≠ byte)
  | .skipIfSame x y => some (machine.registers.read x = machine.registers.read y)
  | .skipUnlessSame x y => some (machine.registers.read x ≠ machine.registers.read y)
  | .skipIfKey x => some (machine.keypad.isPressedAt (machine.registers.read x))
  | .skipUnlessKey x => some (!machine.keypad.isPressedAt (machine.registers.read x))
  | _ => none

section Tests

variable {machine : Machine} {pc : Nat} {word : Word} {instruction : Instruction}

theorem skips_iff_of_decode (decoded : Instruction.decode word = some instruction) :
    machine.Skips word ↔ machine.test? instruction = some true := by
  have carried := Instruction.carries_of_decode decoded
  unfold Skips
  simp (disch := decide) only [Instruction.fits_eq_of_decode decoded]
  cases instruction with
  | combine operation x y =>
    cases operation <;> simp [Instruction.pattern, Instruction.arithmeticPattern, test?]
  | _ => simp_all [Instruction.pattern, Instruction.Carries, test?, ← Keypad.isPressedAt_iff]

/-- An instruction that tests a condition passes over the next one if it holds, and does nothing
else. -/
theorem execute_of_test? (machine : Machine) {holds : Bool}
    (test : machine.test? instruction = some holds) (pc : Nat) :
    machine.execute pc instruction = .ok { machine := machine.skipIf holds } := by
  cases instruction <;> cases test <;> rfl

/-- An instruction that neither jumps nor tests a condition leaves the program counter alone. -/
theorem pc_of_execute {step : Step} (executed : machine.execute pc instruction = .ok step)
    (stays : instruction.flow ≠ .jump) (untested : machine.test? instruction = none) :
    step.machine.pc = machine.pc := by
  cases instruction with
  | jump | jumpOffset | leave | call => exact absurd rfl stays
  | skipIfByte | skipUnlessByte | skipIfSame | skipUnlessSame | skipIfKey | skipUnlessKey =>
    cases untested
  | draw | storeDecimal | storeRegisters | readRegisters =>
    simp only [execute, checkRange_eq_ok_iff, withRegisters] at executed
    obtain ⟨-, rfl⟩ := executed
    rfl
  | _ =>
    cases executed
    rfl

/-- The words that test a condition. -/
theorem fitsAny_tests_iff (machine : Machine)
    (decoded : Instruction.decode word = some instruction) :
    word.fitsAny ["3XNN", "4XNN", "5XY*", "9XY*", "EX9E", "EXA1"] = true ↔
      (machine.test? instruction).isSome = true := by
  rw [Instruction.fitsAny_eq_of_decode decoded (by decide), decide_eq_true_iff]
  cases instruction with
  | combine operation x y =>
    cases operation <;> simp [Instruction.pattern, Instruction.arithmeticPattern, test?]
  | _ => simp [Instruction.pattern, test?]

/-- The words that go on elsewhere in any case. -/
theorem fitsAny_jumps_iff (decoded : Instruction.decode word = some instruction) :
    word.fitsAny ["1NNN", "2NNN", "BNNN", "00EE"] = true ↔ instruction.flow = .jump := by
  rw [Instruction.fitsAny_eq_of_decode decoded (by decide), decide_eq_true_iff]
  cases instruction with
  | combine operation x y =>
    cases operation <;>
      simp [Instruction.pattern, Instruction.arithmeticPattern, Instruction.flow]
  | _ => simp [Instruction.pattern, Instruction.flow]

/-- A word that tests a condition puts the program counter behind the next instruction if it skips,
and else at it. -/
theorem next_of_tests (able : machine.CanFetch)
    (tests : machine.word.fitsAny ["3XNN", "4XNN", "5XY*", "9XY*", "EX9E", "EXA1"] = true) :
    machine.Skips machine.word ∧ machine.cycle.machine.pc = machine.pc + 4 ∨
      ¬ machine.Skips machine.word ∧ machine.cycle.machine.pc = machine.pc + 2 := by
  obtain ⟨instruction, decoded⟩ := Instruction.decode_of_fitsAny (by decide) tests
  obtain ⟨holds, test⟩ :=
    Option.isSome_iff_exists.mp ((fitsAny_tests_iff machine decoded).mp tests)
  have executed : machine.advance.execute machine.pc instruction =
      .ok { machine := machine.advance.skipIf holds } := machine.advance.execute_of_test? test _
  rw [cycle_of_executed able.running able.awake able.inside decoded executed, skipIf_eq,
    skips_iff_of_decode decoded, test, Option.some_inj]
  cases holds with
  | true => exact .inl ⟨rfl, rfl⟩
  | false => exact .inr ⟨Bool.false_ne_true, rfl⟩

end Tests

/-! ### Opposite tests -/

/-- A word tests a condition and another word tests the opposite. -/
def Opposed (left right : Word) : Prop :=
  left.x = right.x ∧
    (left.fits "3XNN" = true ∧ right.fits "4XNN" = true ∧ left.lowByte = right.lowByte ∨
      left.fits "5XY*" = true ∧ right.fits "9XY*" = true ∧ left.y = right.y ∨
      left.fits "EX9E" = true ∧ right.fits "EXA1" = true)

section Opposites

variable {machine machine' : Machine} {left right : Word}

/-- Of two words that test the opposite, on the same registers and keys, one skips. -/
theorem Opposed.skips_iff (opposed : Opposed left right)
    (sameRegisters : machine'.registers = machine.registers)
    (sameKeypad : machine'.keypad = machine.keypad) :
    machine'.Skips right ↔ ¬ machine.Skips left := by
  obtain ⟨x, alike⟩ := opposed
  unfold Skips
  rw [sameRegisters, sameKeypad, x]
  rcases alike with ⟨fits, fits', same⟩ | ⟨fits, fits', same⟩ | ⟨fits, fits'⟩
  · simp (disch := decide) [Instruction.fits_eq_of_fits fits, Instruction.fits_eq_of_fits fits',
      same]
  · simp (disch := decide) [Instruction.fits_eq_of_fits fits, Instruction.fits_eq_of_fits fits',
      same]
  · simp (disch := decide) [Instruction.fits_eq_of_fits fits, Instruction.fits_eq_of_fits fits']

theorem Opposed.tests (opposed : Opposed left right) :
    left.fitsAny ["3XNN", "4XNN", "5XY*", "9XY*", "EX9E", "EXA1"] = true ∧
      right.fitsAny ["3XNN", "4XNN", "5XY*", "9XY*", "EX9E", "EXA1"] = true := by
  rcases opposed.2 with ⟨fits, fits', -⟩ | ⟨fits, fits', -⟩ | ⟨fits, fits'⟩ <;>
    simp [Word.fitsAny, fits, fits']

/-- Of two words that test the opposite, on the same registers and keys, one goes on at the next
instruction and the other behind it. -/
theorem Opposed.next (opposed : Opposed machine.word machine'.word) (able : machine.CanFetch)
    (able' : machine'.CanFetch) (samePlace : machine'.pc = machine.pc)
    (sameRegisters : machine'.registers = machine.registers)
    (sameKeypad : machine'.keypad = machine.keypad) :
    machine.cycle.machine.pc = machine.pc + 4 ∧ machine'.cycle.machine.pc = machine.pc + 2 ∨
      machine.cycle.machine.pc = machine.pc + 2 ∧ machine'.cycle.machine.pc = machine.pc + 4 := by
  have opposite := opposed.skips_iff sameRegisters sameKeypad
  obtain ⟨tests, tests'⟩ := opposed.tests
  have next' := next_of_tests able' tests'
  rw [samePlace] at next'
  rcases next_of_tests able tests with ⟨skips, next⟩ | ⟨stays, next⟩
  · rcases next' with ⟨skips', -⟩ | ⟨-, next'⟩
    · exact absurd skips (opposite.mp skips')
    · exact .inl ⟨next, next'⟩
  · rcases next' with ⟨-, next'⟩ | ⟨stays', -⟩
    · exact .inr ⟨next, next'⟩
    · exact absurd (opposite.mpr stays) stays'

end Opposites

/-! ### The next address -/

section Executing

variable {machine : Machine} {pc : Nat} {word : Word} {instruction : Instruction} {step : Step}

/-- A jump and a call go to the address that they name. -/
theorem pc_of_named (decoded : Instruction.decode word = some instruction)
    (executed : machine.execute pc instruction = .ok step)
    (named : word.fitsAny ["1NNN", "2NNN"] = true) : step.machine.pc = word.address := by
  simp only [Word.fitsAny, List.any_cons, List.any_nil, Bool.or_false, Bool.or_eq_true] at named
  rcases named with jump | call
  · obtain rfl : instruction = .jump word.address := Instruction.eq_of_fits decoded jump rfl
    cases executed
    rfl
  · obtain rfl : instruction = .call word.address := Instruction.eq_of_fits decoded call rfl
    simp only [execute] at executed
    split at executed
    case h_1 =>
      cases executed
      rfl
    case h_2 => contradiction

/-- A jump with an offset adds it to the address without a bound. -/
theorem pc_of_offset (decoded : Instruction.decode word = some instruction)
    (executed : machine.execute pc instruction = .ok step) (offset : word.fits "BNNN" = true) :
    step.machine.pc = (machine.registers.read Register.offset).toNat + word.address := by
  obtain rfl : instruction = .jumpOffset word.address := Instruction.eq_of_fits decoded offset rfl
  cases executed
  rfl

/-- A return goes to the newest return address. -/
theorem getLast?_addresses_of_leave (decoded : Instruction.decode word = some instruction)
    (executed : machine.execute pc instruction = .ok step) (leave : word.fits "00EE" = true)
    (bounded : machine.stack.depth ≤ stackSize) :
    machine.stack.addresses.getLast? = some step.machine.pc := by
  obtain rfl : instruction = .leave := Instruction.eq_of_fits decoded leave trivial
  simp only [execute] at executed
  split at executed
  case h_1 address stack popped =>
    cases executed
    rw [CallStack.addresses, CallStack.live_of_pop? popped bounded, List.map_append,
      List.map_singleton, List.getLast?_concat]
  case h_2 => contradiction

/-- Every other word leaves the program counter alone. -/
theorem pc_of_neither (decoded : Instruction.decode word = some instruction)
    (executed : machine.execute pc instruction = .ok step)
    (noJump : word.fitsAny ["1NNN", "2NNN", "BNNN", "00EE"] = false)
    (noTest : word.fitsAny ["3XNN", "4XNN", "5XY*", "9XY*", "EX9E", "EXA1"] = false) :
    step.machine.pc = machine.pc := by
  refine pc_of_execute executed (fun jumps => ?_) ?_
  · rw [(fitsAny_jumps_iff decoded).mpr jumps] at noJump
    cases noJump
  · rw [← Option.not_isSome_iff_eq_none, ← fitsAny_tests_iff _ decoded, noTest]
    exact Bool.false_ne_true

end Executing

/-- A cycle that executes a word goes on at the address that the word names, or at the newest
return address, or behind the word. It passes over one instruction exactly if the word tests a
condition that holds, and so of two words that test the opposite one does and one does not. -/
theorem next_address_follows :
    (∀ (machine : Machine) (flow : Flow), machine.halted = false → machine.awaiting = none →
      machine.cycle.result = .ok flow →
      let word := machine.word
      let next := machine.cycle.machine.pc
      (word.fitsAny ["1NNN", "2NNN"] = true → next = word.address) ∧
      (word.fits "BNNN" = true →
        next = (machine.registers.read Register.offset).toNat + word.address) ∧
      (word.fits "00EE" = true → machine.stack.depth ≤ stackSize →
        machine.stack.addresses.getLast? = some next) ∧
      (word.fitsAny ["3XNN", "4XNN", "5XY*", "9XY*", "EX9E", "EXA1"] = true →
        machine.Skips word ∧ next = machine.pc + 4 ∨
          ¬ machine.Skips word ∧ next = machine.pc + 2) ∧
      (word.fitsAny ["1NNN", "2NNN", "BNNN", "00EE"] = false →
        word.fitsAny ["3XNN", "4XNN", "5XY*", "9XY*", "EX9E", "EXA1"] = false →
        next = machine.pc + 2)) ∧
    ∀ machine machine' : Machine, machine.CanFetch → machine'.CanFetch →
      machine'.pc = machine.pc → machine'.registers = machine.registers →
      machine'.keypad = machine.keypad → Opposed machine.word machine'.word →
      machine.cycle.machine.pc = machine.pc + 4 ∧ machine'.cycle.machine.pc = machine.pc + 2 ∨
        machine.cycle.machine.pc = machine.pc + 2 ∧
          machine'.cycle.machine.pc = machine.pc + 4 := by
  refine ⟨fun machine flow running awake succeeded => ?_,
    fun _ _ able able' samePlace sameRegisters sameKeypad opposed =>
      opposed.next able able' samePlace sameRegisters sameKeypad⟩
  intro word next
  cases machine.cycled with
  | stopped halted => rw [running] at halted; cases halted
  | waiting _ waits => rw [awake] at waits; cases waits
  | unfetched _ _ _ same | refused _ _ _ _ same => rw [same] at succeeded; cases succeeded
  | @executed _ step _ _ inside decoded executed same =>
    have place : next = step.machine.pc := congrArg (·.machine.pc) same
    rw [place]
    refine ⟨fun named => ?_, fun offset => ?_, fun leave bounded => ?_, fun tests => ?_,
      fun noJump noTest => ?_⟩
    · exact pc_of_named decoded executed named
    · have found := pc_of_offset decoded executed offset
      exact found
    · have newest := getLast?_addresses_of_leave decoded executed leave bounded
      exact newest
    · rw [← place]
      exact next_of_tests ⟨running, awake, inside⟩ tests
    · exact pc_of_neither decoded executed noJump noTest

/-- A machine with every key pressed that tests whether the one is pressed that is named by a
register which names none. -/
def testingNoKey (low : UInt8) : Machine :=
  { blank {} (RandomSource.start fun _ => 0) with
    memory := Memory.zero.overwrite 0x200 [0xE0, low]
    registers := Registers.zero.write Register.offset 16
    keypad := ⟨0xFFFF⟩ }

theorem word_testingNoKey (low : UInt8) : (testingNoKey low).word = Word.ofBytes 0xE0 low :=
  word_of_written [0xE0, low] 0 rfl rfl (Nat.le_of_ble_eq_true rfl) (Nat.le_of_ble_eq_true rfl)

/-- No key is pressed that has no name, so the test for one goes on and the opposite one skips. -/
theorem next_address_follows_testingNoKey :
    (testingNoKey 0x9E).cycle.result = .ok .next ∧
      (testingNoKey 0x9E).cycle.machine.pc = 0x202 ∧
      Opposed (testingNoKey 0x9E).word (testingNoKey 0xA1).word ∧
      (testingNoKey 0xA1).cycle.machine.pc = 0x204 := by
  obtain ⟨follows, opposite⟩ := next_address_follows
  have word : (testingNoKey 0x9E).word = 0xE09E := word_testingNoKey 0x9E
  have word' : (testingNoKey 0xA1).word = 0xE0A1 := word_testingNoKey 0xA1
  have decoded : Instruction.decode (testingNoKey 0x9E).word = some (.skipIfKey 0) := by
    rw [word]
    rfl
  have succeeded : (testingNoKey 0x9E).cycle.result = .ok .next := by
    rw [cycle_of_executed rfl rfl (by decide) decoded rfl]
  have stays : ¬ (testingNoKey 0x9E).Skips (testingNoKey 0x9E).word := by
    rw [skips_iff_of_decode decoded]
    decide
  have tests : (testingNoKey 0x9E).word.fitsAny
      ["3XNN", "4XNN", "5XY*", "9XY*", "EX9E", "EXA1"] = true := by rw [word]; decide
  have next : (testingNoKey 0x9E).cycle.machine.pc = 0x202 :=
    ((follows _ _ rfl rfl succeeded).2.2.2.1 tests).elim (fun skips => absurd skips.1 stays) (·.2)
  have opposed : Opposed (testingNoKey 0x9E).word (testingNoKey 0xA1).word := by
    rw [word, word']
    exact ⟨rfl, .inr (.inr (by decide))⟩
  refine ⟨succeeded, next, opposed, ?_⟩
  rcases opposite (testingNoKey 0x9E) (testingNoKey 0xA1) ⟨rfl, rfl, by decide⟩
    ⟨rfl, rfl, by decide⟩ rfl rfl rfl opposed with ⟨skipped, -⟩ | ⟨-, skipped⟩
  · rw [next] at skipped
    exact absurd skipped (by decide)
  · exact skipped

end Machine

end ChipEight
