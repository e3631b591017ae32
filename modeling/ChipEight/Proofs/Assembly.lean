/-
This file proves that the assembly of a word tells what the word does.

A line of assembly determines the instruction it was written for, an instruction determines its
word up to a digit that it does not look at, and a word that is no instruction is written out in
full. Two words therefore have one line only if they are equal or one instruction that takes
nothing from memory. A machine that has the one where another has the other goes the same way.
-/

import ChipEight.Proofs.Mnemonic
import ChipEight.Proofs.Stop
import ChipEight.Proofs.Verdict

namespace ChipEight

/-! ### Words that are one instruction -/

/-- Words are alike if they differ at most in a digit that their instruction does not look at. -/
def Word.Alike (left right : Word) : Prop :=
  left = right ∨
  (∃ pattern ∈ ["5XY*", "9XY*"], left.fits pattern = true ∧ right.fits pattern = true ∧
    left.x = right.x ∧ left.y = right.y) ∨
  ∃ pattern ∈ ["8XY6", "8XYE"], left.fits pattern = true ∧ right.fits pattern = true ∧
    left.x = right.x

/-- The instructions that do not look at a digit. -/
inductive Instruction.IsLoose : Instruction → Prop
  | skipIfSame (x y : Register) : IsLoose (skipIfSame x y)
  | skipUnlessSame (x y : Register) : IsLoose (skipUnlessSame x y)
  | shiftRight (x : Register) : IsLoose (shiftRight x)
  | shiftLeft (x : Register) : IsLoose (shiftLeft x)

section Alike

variable {left right : Word}

/-- Words that decode to one instruction are alike. -/
theorem alike_of_decode {instruction : Instruction}
    (decoded : Instruction.decode left = some instruction)
    (decoded' : Instruction.decode right = some instruction) : left.Alike right := by
  have fits := Instruction.fits_pattern_of_decode decoded
  have fits' := Instruction.fits_pattern_of_decode decoded'
  have carried := Instruction.carries_of_decode decoded
  have carried' := Instruction.carries_of_decode decoded'
  cases instruction with
  | skipIfSame x y | skipUnlessSame x y =>
    exact .inr (.inl ⟨_, by simp [Instruction.pattern], fits, fits',
      carried.1.symm.trans carried'.1, carried.2.symm.trans carried'.2⟩)
  | shiftRight x | shiftLeft x =>
    exact .inr (.inr ⟨_, by simp [Instruction.pattern], fits, fits', carried.symm.trans carried'⟩)
  | combine operation x y =>
    refine .inl (Word.ext_digits ?_ (carried.1.symm.trans carried'.1)
      (carried.2.symm.trans carried'.2) ?_)
    all_goals
      cases operation <;>
        simp [Instruction.pattern, Instruction.arithmeticPattern, Word.fits, Word.digits,
          Word.digitFits, Word.askedDigit?] at fits fits' <;> omega
  | _ =>
    -- The digits that the pattern does not ask for are all in the operands.
    have low := left.toNat_lowByte
    have low' := right.toNat_lowByte
    have address := left.val_address
    have address' := right.val_address
    simp [Instruction.pattern, Word.fits, Word.digits, Word.digitFits, Word.askedDigit?]
      at fits fits'
    simp [Instruction.Carries] at carried carried'
    refine .inl (Word.ext_digits ?_ ?_ ?_ ?_) <;> grind

/-- The words of the instructions that do not look at a digit. -/
theorem decode_of_fits_loose (word : Word) :
    (word.fits "5XY*" = true → Instruction.decode word = some (.skipIfSame word.x word.y)) ∧
    (word.fits "9XY*" = true → Instruction.decode word = some (.skipUnlessSame word.x word.y)) ∧
    (word.fits "8XY6" = true → Instruction.decode word = some (.shiftRight word.x)) ∧
    (word.fits "8XYE" = true → Instruction.decode word = some (.shiftLeft word.x)) := by
  refine ⟨?_, ?_, ?_, ?_⟩ <;> intro fits <;>
    simp [Word.fits, Word.digits, Word.digitFits, Word.askedDigit?] at fits <;>
    simp [Instruction.decode, Instruction.decodeArithmetic, fits]

/-- Words that are alike are equal or one instruction that does not look at a digit. -/
theorem Word.Alike.eq_or_decode (alike : left.Alike right) :
    left = right ∨ ∃ instruction, instruction.IsLoose ∧
      Instruction.decode left = some instruction ∧
      Instruction.decode right = some instruction := by
  obtain ⟨five, nine, six, fourteen⟩ := decode_of_fits_loose left
  obtain ⟨five', nine', six', fourteen'⟩ := decode_of_fits_loose right
  rcases alike with same | ⟨pattern, member, fits, fits', x, y⟩ | ⟨pattern, member, fits, fits', x⟩
  · exact .inl same
  · simp only [List.mem_cons, List.not_mem_nil, or_false] at member
    rcases member with rfl | rfl
    · exact .inr ⟨_, .skipIfSame _ _, five fits, by rw [five' fits', x, y]⟩
    · exact .inr ⟨_, .skipUnlessSame _ _, nine fits, by rw [nine' fits', x, y]⟩
  · simp only [List.mem_cons, List.not_mem_nil, or_false] at member
    rcases member with rfl | rfl
    · exact .inr ⟨_, .shiftRight _, six fits, by rw [six' fits', x]⟩
    · exact .inr ⟨_, .shiftLeft _, fourteen fits, by rw [fourteen' fits', x]⟩

/-- Words have one line exactly if they are alike. -/
theorem mnemonic_eq_iff : left.mnemonic = right.mnemonic ↔ left.Alike right := by
  constructor
  · intro same
    obtain ⟨decodings, data⟩ := decode_eq_of_mnemonic_eq same
    cases decoded : Instruction.decode left with
    | none => exact .inl (data decoded)
    | some instruction => exact alike_of_decode decoded (decodings.symm.trans decoded)
  · intro alike
    rcases alike.eq_or_decode with rfl | ⟨instruction, -, decoded, decoded'⟩
    · rfl
    · rw [← String.toList_inj, left.toList_mnemonic, right.toList_mnemonic, Word.assembly,
        Word.assembly, decoded, decoded']

end Alike

/-! ### Machines with one line at the program counter -/

namespace Machine

/-- Two machines agree on everything but the two bytes at an address. -/
structure AgreesBut (address : Nat) (left right : Machine) : Prop where
  rest : right = { left with memory := right.memory }
  memory : ∀ other, other ≠ address → other ≠ address + 1 →
    right.memory.read other = left.memory.read other

/-- Machines that agree on everything but the word they are at, and on that as well, are equal. -/
theorem AgreesBut.eq {left right : Machine} (agrees : AgreesBut left.pc left right)
    (same : left.word = right.word) : left = right := by
  have place : right.pc = left.pc := by rw [agrees.rest]
  have bytes : left.memory.read left.pc = right.memory.read left.pc ∧
      left.memory.read (left.pc + 1) = right.memory.read (left.pc + 1) := by
    have values := congrArg UInt16.toNat same
    rw [word, word, place, Word.toNat_ofBytes, Word.toNat_ofBytes] at values
    have low := (left.memory.read (left.pc + 1)).toNat_lt
    have low' := (right.memory.read (left.pc + 1)).toNat_lt
    exact ⟨UInt8.toNat_inj.mp (by omega), UInt8.toNat_inj.mp (by omega)⟩
  have memories : right.memory = left.memory := by
    refine Memory.ext_read fun address _ => ?_
    by_cases first : address = left.pc
    · rw [first, bytes.1]
    · by_cases second : address = left.pc + 1
      · rw [second, bytes.2]
      · exact agrees.memory address first second
  rw [agrees.rest, memories]

/-- An instruction that does not look at a digit takes nothing from memory and puts nothing
there. -/
theorem execute_of_isLoose {instruction : Instruction} (loose : instruction.IsLoose)
    (machine : Machine) (memory : Memory) :
    ∃ after : Machine, after.memory = machine.memory ∧
      machine.advance.execute machine.pc instruction = .ok { machine := after } ∧
      { machine with memory := memory }.advance.execute machine.pc instruction =
        .ok { machine := { after with memory := memory } } := by
  cases loose with
  | skipIfSame | skipUnlessSame =>
    simp only [execute, skipIf_eq]
    refine ⟨_, ?_, rfl, rfl⟩
    rfl
  | shiftRight | shiftLeft =>
    refine ⟨_, ?_, rfl, rfl⟩
    rfl

/-- The line of a word tells what executing it does. Words have one line exactly if they are equal
or differ in a digit that their instruction does not look at. Machines that agree on everything but
a word at which they are, and whose words have one line, answer alike and still agree. And a line
begins with a data directive exactly if executing the word fails because it is no instruction. -/
theorem mnemonic_determines_cycle :
    (∀ left right : Word, left.mnemonic = right.mnemonic ↔ left.Alike right) ∧
    (∀ machine machine' : Machine, machine.halted = false → machine.awaiting = none →
      machine.pc ≤ 0xFFE → AgreesBut machine.pc machine machine' →
      machine.word.mnemonic = machine'.word.mnemonic →
      machine.cycle.result = machine'.cycle.result ∧
        AgreesBut machine.pc machine.cycle.machine machine'.cycle.machine) ∧
    ∀ machine : Machine, machine.halted = false → machine.awaiting = none →
      machine.pc ≤ 0xFFE →
      ("DW ".toList <+: machine.word.mnemonic.toList ↔
        ∃ word pc, machine.cycle.result = .error (.unknownWord word pc)) := by
  refine ⟨fun _ _ => mnemonic_eq_iff, ?_, ?_⟩
  · intro machine machine' running awake inside agrees sameLine
    rcases (mnemonic_eq_iff.mp sameLine).eq_or_decode with
      same | ⟨instruction, loose, decoded, decoded'⟩
    · obtain rfl := agrees.eq same
      exact ⟨rfl, rfl, fun _ _ _ => rfl⟩
    · obtain ⟨after, kept, executed, executed'⟩ := execute_of_isLoose loose machine machine'.memory
      have place : machine'.pc = machine.pc := by rw [agrees.rest]
      rw [← agrees.rest, ← place] at executed'
      have cycle := cycle_of_executed running awake inside decoded executed
      have running' : machine'.halted = false := by rw [agrees.rest]; exact running
      have awake' : machine'.awaiting = none := by rw [agrees.rest]; exact awake
      have inside' : machine'.pc ≤ 0xFFE := by rw [place]; exact inside
      have cycle' := cycle_of_executed running' awake' inside' decoded' executed'
      rw [cycle, cycle']
      refine ⟨rfl, rfl, fun other first second => ?_⟩
      rw [kept]
      exact agrees.memory other first second
  · intro machine running awake inside
    have answer := machine.cycle_result_of_ready running awake
    rw [fetch_eq, if_pos inside] at answer
    replace answer : machine.cycle.result = (machine.dispatch machine.word).map Step.flow := answer
    rw [data_prefix_mnemonic_iff, answer]
    cases decoded : Instruction.decode machine.word with
    | none =>
      refine iff_of_true rfl ⟨machine.word, machine.pc, ?_⟩
      rw [dispatch, decoded]
      rfl
    | some instruction =>
      refine iff_of_false (Option.some_ne_none _) ?_
      rintro ⟨word, pc, failed⟩
      rw [map_flow_dispatch_eq_error_iff _ decoded] at failed
      obtain ⟨access, address, -, cause⟩ := refusal?_eq_some failed
      contradiction

/-- A machine that is about to compare two registers, with a digit that does not matter. -/
def comparing (low : UInt8) : Machine :=
  { unloaded with memory := Memory.zero.overwrite programStart [0x51, low] }

theorem word_comparing (low : UInt8) : (comparing low).word = Word.ofBytes 0x51 low :=
  word_of_written [0x51, low] 0 rfl rfl (Nat.lt_add_one 1) (show programStart + 2 ≤ _ by decide)

/-- Two words that compare the same registers have one line and do the same. A word that is no
instruction has a line of data. -/
theorem mnemonic_determines_cycle_comparing :
    (comparing 0x20).word = 0x5120 ∧ (comparing 0x2F).word = 0x512F ∧
      AgreesBut (comparing 0x20).pc (comparing 0x20) (comparing 0x2F) ∧
      (comparing 0x20).word.mnemonic = (comparing 0x2F).word.mnemonic ∧
      (comparing 0x20).cycle.result = (comparing 0x2F).cycle.result ∧
      AgreesBut (comparing 0x20).pc (comparing 0x20).cycle.machine
        (comparing 0x2F).cycle.machine ∧
      unloaded.cycle.result = .error (.unknownWord 0 0x200) ∧
      "DW ".toList <+: unloaded.word.mnemonic.toList := by
  obtain ⟨lines, cycles, data⟩ := mnemonic_determines_cycle
  have left : (comparing 0x20).word = 0x5120 := word_comparing 0x20
  have right : (comparing 0x2F).word = 0x512F := word_comparing 0x2F
  have agrees : AgreesBut (comparing 0x20).pc (comparing 0x20) (comparing 0x2F) := by
    refine ⟨rfl, fun other first second => ?_⟩
    have outside : other < programStart ∨ programStart + 2 ≤ other := by
      have place : (comparing 0x20).pc = programStart := rfl
      omega
    exact (Memory.read_overwrite_other _ _ _ _ outside).trans
      (Memory.read_overwrite_other _ _ _ _ outside).symm
  have alike : (comparing 0x20).word.Alike (comparing 0x2F).word := by
    rw [left, right]
    exact .inr (.inl ⟨"5XY*", by decide, by decide, by decide, by decide, by decide⟩)
  have sameLine := (lines _ _).mpr alike
  obtain ⟨result, after⟩ := cycles _ _ rfl rfl (by decide) agrees sameLine
  exact ⟨left, right, agrees, sameLine, result, after, cycle_unloaded,
    (data unloaded rfl rfl (by decide)).mpr ⟨0, 0x200, cycle_unloaded⟩⟩

end Machine

end ChipEight
