/-
This file gives the arithmetic instructions as tables.

An arithmetic word writes a result into its first register and may write the flag beside it. While
the flag is none of its operands the two do not meet. Where it is one, the order of the writes
decides: addition writes the flag last, so nothing remains of a sum that went into the flag, and
the subtractions and shifts write it first, so their results are computed from a flag that is new
already. One table says what becomes of operands that the flag is not among, and three more say it
for the flag as the second operand, as the first and as both. All four follow from the three ways
in which a result and a flag are written.
-/

import ChipEight.Proofs.Verdict

namespace ChipEight

/-! ### The tables -/

namespace Registers

/-- The last digits of the arithmetic words. -/
def arithmeticDigits : List Nat := [0x0, 0x1, 0x2, 0x3, 0x4, 0x5, 0x6, 0x7, 0xE]

/-- What an arithmetic word with a last digit makes of its operands. -/
def result (n : Nat) (x y : UInt8) : UInt8 :=
  match n with
  | 0x0 => y
  | 0x1 => x ||| y
  | 0x2 => x &&& y
  | 0x3 => x ^^^ y
  | 0x4 => x + y
  | 0x5 => x - y
  | 0x6 => x >>> 1
  | 0x7 => y - x
  | _ => x <<< 1

/-- What it makes of the flag. -/
def resultFlag (n : Nat) (x y flag : UInt8) : UInt8 :=
  match n with
  | 0x0 | 0x1 | 0x2 | 0x3 => flag
  | 0x4 => flagByte (255 < x.toNat + y.toNat)
  | 0x5 => flagByte (y < x)
  | 0x6 => x &&& 1
  | 0x7 => flagByte (x < y)
  | _ => x >>> 7

/-- What it makes of its first operand when the second is the flag. -/
def resultBesideFlag (n : Nat) (x flag : UInt8) : UInt8 :=
  match n with
  | 0x5 => x - flagByte (flag < x)
  | 0x7 => flagByte (x < flag) - x
  | _ => result n x flag

/-- What it leaves in the flag when that is the first operand. -/
def resultInFlag (n : Nat) (flag y : UInt8) : UInt8 :=
  match n with
  | 0x0 | 0x1 | 0x2 | 0x3 => result n flag y
  | 0x4 => flagByte (255 < flag.toNat + y.toNat)
  | 0x5 => flagByte (y < flag) - y
  | 0x6 => 0
  | 0x7 => y - flagByte (flag < y)
  | _ => (2 : UInt8) * (flag >>> 7)

/-- What it leaves in the flag when that is both operands. -/
def resultOfFlag (n : Nat) (flag : UInt8) : UInt8 :=
  match n with
  | 0x0 | 0x1 | 0x2 => flag
  | 0x4 => flagByte (255 < 2 * flag.toNat)
  | 0xE => (2 : UInt8) * (flag >>> 7)
  | _ => 0

/-! ### The order of the writes -/

/-- The last digits of the words that leave the flag alone. -/
def plainDigits : List Nat := [0x0, 0x1, 0x2, 0x3]

/-- The last digits of the words that write the flag before their result. -/
def flagFirstDigits : List Nat := [0x5, 0x6, 0x7, 0xE]

/-- The three ways in which arithmetic words write their result and the flag. -/
inductive Written (registers : Registers) (n : Nat) (x y : Register) : Registers → Prop
  | plain (digit : n ∈ plainDigits) :
    Written registers n x y
      (registers.write x (result n (registers.read x) (registers.read y)))
  | flagLast (digit : n = 0x4) :
    Written registers n x y
      ((registers.write x (result n (registers.read x) (registers.read y))).write Register.flag
        (resultFlag n (registers.read x) (registers.read y) (registers.read Register.flag)))
  /-- The result is computed from the registers as they are when the flag is written. -/
  | flagFirst (digit : n ∈ flagFirstDigits) (flagged : Registers)
      (same : flagged = registers.write Register.flag
        (resultFlag n (registers.read x) (registers.read y) (registers.read Register.flag))) :
    Written registers n x y (flagged.write x (result n (flagged.read x) (flagged.read y)))

/-! ### How the tables hang together -/

/-- A bit that is shifted out of its place is gone. -/
theorem lowBit_shiftRight (byte : UInt8) : (byte &&& 1) >>> 1 = 0 := by
  refine UInt8.toNat_inj.mp ?_
  simp [Nat.and_one_is_mod, Nat.shiftRight_eq_div_pow]

theorem shiftLeft_one (byte : UInt8) : byte <<< 1 = 2 * byte := by
  refine UInt8.toNat_inj.mp ?_
  simp [Nat.shiftLeft_eq]
  omega

section Tables

variable {n : Nat}

/-- While the flag is not written it is an operand like any other. -/
theorem tables_of_plain (digit : n ∈ plainDigits) :
    (∀ x y flag, resultFlag n x y flag = flag) ∧
      (∀ x flag, resultBesideFlag n x flag = result n x flag) ∧
      (∀ flag y, resultInFlag n flag y = result n flag y) ∧
      ∀ flag, resultOfFlag n flag = result n flag flag := by
  simp only [plainDigits, List.mem_cons, List.not_mem_nil, or_false] at digit
  rcases digit with rfl | rfl | rfl | rfl
  · exact ⟨fun _ _ _ => rfl, fun _ _ => rfl, fun _ _ => rfl, fun _ => rfl⟩
  · exact ⟨fun _ _ _ => rfl, fun _ _ => rfl, fun _ _ => rfl, fun _ => UInt8.or_self.symm⟩
  · exact ⟨fun _ _ _ => rfl, fun _ _ => rfl, fun _ _ => rfl, fun _ => UInt8.and_self.symm⟩
  · exact ⟨fun _ _ _ => rfl, fun _ _ => rfl, fun _ _ => rfl, fun _ => UInt8.xor_self.symm⟩

/-- A carry is found from the operands as they were, and replaces a sum that went into the flag. -/
theorem tables_of_flagLast :
    (∀ x flag, resultBesideFlag 4 x flag = result 4 x flag) ∧
      (∀ flag y, resultInFlag 4 flag y = resultFlag 4 flag y flag) ∧
      ∀ flag, resultOfFlag 4 flag = resultFlag 4 flag flag flag := by
  refine ⟨fun _ _ => rfl, fun _ _ => rfl, fun flag => ?_⟩
  show flagByte (255 < 2 * flag.toNat) = flagByte (255 < flag.toNat + flag.toNat)
  rw [Nat.two_mul]

/-- A flag that is written first is new wherever it is an operand. -/
theorem tables_of_flagFirst (digit : n ∈ flagFirstDigits) :
    (∀ x flag, resultBesideFlag n x flag = result n x (resultFlag n x flag flag)) ∧
      (∀ flag y, resultInFlag n flag y = result n (resultFlag n flag y flag) y) ∧
      ∀ flag, resultOfFlag n flag =
        result n (resultFlag n flag flag flag) (resultFlag n flag flag flag) := by
  simp only [flagFirstDigits, List.mem_cons, List.not_mem_nil, or_false] at digit
  rcases digit with rfl | rfl | rfl | rfl
  · exact ⟨fun _ _ => rfl, fun _ _ => rfl, fun _ => (UInt8.sub_self _).symm⟩
  · exact ⟨fun _ _ => rfl, fun flag _ => (lowBit_shiftRight flag).symm,
      fun flag => (lowBit_shiftRight flag).symm⟩
  · exact ⟨fun _ _ => rfl, fun _ _ => rfl, fun _ => (UInt8.sub_self _).symm⟩
  · exact ⟨fun _ _ => rfl, fun _ _ => (shiftLeft_one _).symm, fun _ => (shiftLeft_one _).symm⟩

end Tables

/-! ### What is left in the registers -/

section Laws

variable {registers after : Registers} {n : Nat} {x y other : Register}

theorem Written.read_other (written : registers.Written n x y after) (notFirst : other ≠ x)
    (notFlag : other ≠ Register.flag) : after.read other = registers.read other := by
  cases written with
  | plain => exact read_write_other _ _ notFirst
  | flagLast => rw [read_write_other _ _ notFlag, read_write_other _ _ notFirst]
  | flagFirst _ flagged same =>
    rw [read_write_other _ _ notFirst, same, read_write_other _ _ notFlag]

/-- The flag is left as its table says, unless the result went into it. -/
theorem Written.read_flag (written : registers.Written n x y after)
    (notFirst : x ≠ Register.flag) :
    after.read Register.flag =
      resultFlag n (registers.read x) (registers.read y) (registers.read Register.flag) := by
  cases written with
  | plain digit =>
    rw [read_write_other _ _ notFirst.symm, (tables_of_plain digit).1]
  | flagLast => exact read_write_self _ _ _
  | flagFirst _ flagged same =>
    rw [read_write_other _ _ notFirst.symm, same, read_write_self]

theorem Written.read_first (written : registers.Written n x y after)
    (notFirst : x ≠ Register.flag) (notSecond : y ≠ Register.flag) :
    after.read x = result n (registers.read x) (registers.read y) := by
  cases written with
  | plain => exact read_write_self _ _ _
  | flagLast => rw [read_write_other _ _ notFirst, read_write_self]
  | flagFirst _ flagged same =>
    rw [read_write_self, same, read_write_other _ _ notFirst, read_write_other _ _ notSecond]

theorem Written.read_first_besideFlag (written : registers.Written n x Register.flag after)
    (notFirst : x ≠ Register.flag) :
    after.read x = resultBesideFlag n (registers.read x) (registers.read Register.flag) := by
  cases written with
  | plain digit => rw [read_write_self, (tables_of_plain digit).2.1]
  | flagLast digit =>
    rw [read_write_other _ _ notFirst, read_write_self, digit, tables_of_flagLast.1]
  | flagFirst digit flagged same =>
    rw [read_write_self, same, read_write_other _ _ notFirst, read_write_self,
      (tables_of_flagFirst digit).1]

theorem Written.read_flag_inFlag (written : registers.Written n Register.flag y after)
    (notSecond : y ≠ Register.flag) :
    after.read Register.flag =
      resultInFlag n (registers.read Register.flag) (registers.read y) := by
  cases written with
  | plain digit => rw [read_write_self, (tables_of_plain digit).2.2.1]
  | flagLast digit => rw [read_write_self, digit, tables_of_flagLast.2.1]
  | flagFirst digit flagged same =>
    rw [read_write_self, same, read_write_self, read_write_other _ _ notSecond,
      (tables_of_flagFirst digit).2.1]

theorem Written.read_flag_ofFlag
    (written : registers.Written n Register.flag Register.flag after) :
    after.read Register.flag = resultOfFlag n (registers.read Register.flag) := by
  cases written with
  | plain digit => rw [read_write_self, (tables_of_plain digit).2.2.2]
  | flagLast digit => rw [read_write_self, digit, tables_of_flagLast.2.2]
  | flagFirst digit flagged same =>
    rw [read_write_self, same, read_write_self, (tables_of_flagFirst digit).2.2]

end Laws

end Registers

/-! ### Arithmetic words -/

/-- An arithmetic word decodes by its last digit. -/
theorem Instruction.decode_eq_decodeArithmetic {word : Word} {x y n : Fin 16}
    (written : word.digits = [0x8, x, y, n]) : decode word = decodeArithmetic x y n := by
  obtain ⟨family, rfl, rfl, rfl⟩ : word.family = 0x8 ∧ word.x = x ∧ word.y = y ∧ word.n = n := by
    simpa [Word.digits] using written
  rw [decode, family]
  rfl

/-- Every arithmetic word executes by writing the registers in one of the three ways. -/
theorem Instruction.executes_of_decodeArithmetic {n : Fin 16} (x y : Register)
    (known : n.val ∈ Registers.arithmeticDigits) :
    ∃ instruction, decodeArithmetic x y n = some instruction ∧
      ∀ (machine : Machine) (pc : Nat), ∃ after,
        machine.registers.Written n x y after ∧
          machine.execute pc instruction = .ok { machine := machine.withRegisters after } := by
  have ways : n.val ∈ Registers.plainDigits ∨ n.val = 0x4 ∨ n.val ∈ Registers.flagFirstDigits := by
    revert n
    decide
  obtain ⟨n, bound⟩ := n
  rcases ways with plain | rfl | first
  · have digit := plain
    simp only [Registers.plainDigits, List.mem_cons, List.not_mem_nil, or_false] at digit
    rcases digit with rfl | rfl | rfl | rfl <;>
      exact ⟨_, rfl, fun _ _ => ⟨_, .plain plain, rfl⟩⟩
  · exact ⟨_, rfl, fun _ _ => ⟨_, .flagLast rfl, rfl⟩⟩
  · have digit := first
    simp only [Registers.flagFirstDigits, List.mem_cons, List.not_mem_nil, or_false] at digit
    rcases digit with rfl | rfl | rfl | rfl <;>
      exact ⟨_, rfl, fun _ _ => ⟨_, .flagFirst first _ rfl, rfl⟩⟩

namespace Machine

/-- An arithmetic word succeeds, and leaves the registers as the tables say for each of the four
ways in which the flag can be among its operands. -/
theorem arithmetic_follows_tables (machine : Machine) (able : machine.CanFetch)
    (x y n : Fin 16) (written : machine.word.digits = [0x8, x, y, n])
    (known : n.val ∈ Registers.arithmeticDigits) :
    let flag := Register.flag
    let before := machine.registers.read
    let after := machine.cycle.machine.registers.read
    machine.cycle.result = .ok .next ∧
    (x ≠ flag → y ≠ flag →
      after x = Registers.result n (before x) (before y) ∧
      after flag = Registers.resultFlag n (before x) (before y) (before flag)) ∧
    (x ≠ flag → y = flag →
      after x = Registers.resultBesideFlag n (before x) (before flag) ∧
      after flag = Registers.resultFlag n (before x) (before flag) (before flag)) ∧
    (x = flag → y ≠ flag →
      after flag = Registers.resultInFlag n (before flag) (before y)) ∧
    (x = flag → y = flag → after flag = Registers.resultOfFlag n (before flag)) ∧
    ∀ other, other ≠ x → other ≠ flag → after other = before other := by
  intro flag before after
  obtain ⟨instruction, decoded, executes⟩ := Instruction.executes_of_decodeArithmetic x y known
  obtain ⟨registers, order, executed⟩ := executes machine.advance machine.pc
  have cycle := cycle_of_executed able.running able.awake able.inside
    ((Instruction.decode_eq_decodeArithmetic written).trans decoded) executed
  have order : machine.registers.Written n x y machine.cycle.machine.registers := by
    rw [cycle]
    exact order
  refine ⟨by rw [cycle], fun notFirst notSecond => ?_, ?_, ?_, ?_, fun other => order.read_other⟩
  · exact ⟨order.read_first notFirst notSecond, order.read_flag notFirst⟩
  · rintro notFirst rfl
    exact ⟨order.read_first_besideFlag notFirst, order.read_flag notFirst⟩
  · rintro rfl notSecond
    exact order.read_flag_inFlag notSecond
  · rintro rfl rfl
    exact order.read_flag_ofFlag

/-- A machine that is about to subtract three from the flag, which is seven. -/
def reducingFlag : Machine :=
  { blank {} (RandomSource.start fun _ => 0) with
    memory := Memory.zero.overwrite 0x200 [0x8F, 0x15]
    registers := Registers.write (Vector.replicate 16 3) Register.flag 7 }

/-- The flag becomes one before three is subtracted from it. -/
theorem arithmetic_follows_tables_reducingFlag :
    reducingFlag.CanFetch ∧ reducingFlag.word.digits = [0x8, 0xF, 0x1, 0x5] ∧
      0x5 ∈ Registers.arithmeticDigits ∧ reducingFlag.cycle.result = .ok .next ∧
      reducingFlag.cycle.machine.registers.read Register.flag = 254 := by
  have able : reducingFlag.CanFetch := ⟨rfl, rfl, by decide⟩
  have word : reducingFlag.word = 0x8F15 :=
    word_of_written [0x8F, 0x15] 0 rfl rfl (by decide) (by decide)
  have written : reducingFlag.word.digits = [0x8, 0xF, 0x1, 0x5] := by rw [word]; rfl
  have known : 0x5 ∈ Registers.arithmeticDigits := by decide
  obtain ⟨result, -, -, inFlag, -⟩ :=
    arithmetic_follows_tables reducingFlag able 0xF 0x1 0x5 written known
  exact ⟨able, written, known, result, inFlag rfl (by decide)⟩

end Machine

end ChipEight
