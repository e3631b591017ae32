/-
This file says which words are instructions by how they are written.

A pattern is four characters, one for each digit of a word. A hexadecimal digit
asks for itself and any other character allows every digit, so `8XY4` stands for
the words whose first digit is 8 and whose last is 4. The instruction set has one
pattern for each instruction. The content here is that decoding and the patterns
agree: a word fits a pattern of the list exactly when it decodes to an instruction
written that way, so no word fits two of them and a word that fits none is data.
-/

import ChipEight.Instruction

namespace ChipEight

/-! ### The digits of a word -/

namespace Word

/-- The low byte is the last two digits. -/
theorem toNat_lowByte (word : Word) : word.lowByte.toNat = 16 * word.y.val + word.n.val := by
  have bound := word.toNat_lt
  simp only [lowByte, y, n, digit, UInt8.toNat_ofNat']
  omega

/-- The address is the last three digits. -/
theorem val_address (word : Word) :
    word.address.val = 256 * word.x.val + 16 * word.y.val + word.n.val := by
  have bound := word.toNat_lt
  simp only [address, x, y, n, digit]
  omega

/-- A word is determined by its four digits. -/
theorem eq_ofNat_iff (word : Word) (family x y n : Fin 16) :
    word = UInt16.ofNat (4096 * family.val + 256 * x.val + 16 * y.val + n.val) ↔
      word.family.val = family ∧ word.x.val = x ∧ word.y.val = y ∧ word.n.val = n := by
  have bound := word.toNat_lt
  rw [← UInt16.toNat_inj, UInt16.toNat_ofNat', Nat.mod_eq_of_lt (by omega)]
  simp only [Word.family, Word.x, Word.y, Word.n, digit]
  omega

/-- Words with the same four digits are equal. -/
theorem ext_digits {left right : Word} (family : left.family = right.family)
    (x : left.x = right.x) (y : left.y = right.y) (n : left.n = right.n) : left = right := by
  have written := (right.eq_ofNat_iff right.family right.x right.y right.n).mpr ⟨rfl, rfl, rfl, rfl⟩
  rw [written, eq_ofNat_iff, family, x, y, n]
  exact ⟨rfl, rfl, rfl, rfl⟩

theorem eq_clearScreen_iff (word : Word) :
    word = 0x00E0 ↔
      word.family.val = 0x0 ∧ word.x.val = 0x0 ∧ word.y.val = 0xE ∧ word.n.val = 0x0 :=
  word.eq_ofNat_iff 0x0 0x0 0xE 0x0

theorem eq_leave_iff (word : Word) :
    word = 0x00EE ↔
      word.family.val = 0x0 ∧ word.x.val = 0x0 ∧ word.y.val = 0xE ∧ word.n.val = 0xE :=
  word.eq_ofNat_iff 0x0 0x0 0xE 0xE

/-! ### Patterns -/

/-- The digit that a character of a pattern asks for, if it asks for one. -/
def askedDigit? (char : Char) : Option Nat :=
  if '0' ≤ char ∧ char ≤ '9' then some (char.toNat - '0'.toNat)
  else if 'A' ≤ char ∧ char ≤ 'F' then some (char.toNat - 'A'.toNat + 10)
  else none

/-- Whether a digit is one that a character of a pattern allows. -/
def digitFits (digit : Fin 16) (char : Char) : Bool :=
  match askedDigit? char with
  | some asked => digit.val = asked
  | none => true

/-- The four digits of a word. -/
def digits (word : Word) : List (Fin 16) := [word.family, word.x, word.y, word.n]

/-- Whether a word is written the way a pattern says. -/
def fits (word : Word) (pattern : String) : Bool :=
  (List.zipWith digitFits word.digits pattern.toList).all id

/-- The patterns of the instruction set. -/
def patterns : List String :=
  [ "00E0", "00EE", "1NNN", "2NNN", "3XNN", "4XNN", "5XY*", "6XNN", "7XNN",
    "8XY0", "8XY1", "8XY2", "8XY3", "8XY4", "8XY5", "8XY6", "8XY7", "8XYE", "9XY*",
    "ANNN", "BNNN", "CXNN", "DXYN", "EX9E", "EXA1",
    "FX07", "FX0A", "FX15", "FX18", "FX1E", "FX29", "FX33", "FX55", "FX65" ]

/-- Whether a word is written in one of the ways that several patterns say. -/
def fitsAny (word : Word) (patterns : List String) : Bool := patterns.any word.fits

/-- Whether a word is written like an instruction. -/
def isInstruction (word : Word) : Bool := word.fitsAny patterns

end Word

/-! ### Instructions and their patterns -/

namespace Instruction

/-- The pattern of an operation on two registers. -/
def arithmeticPattern : Arithmetic → String
  | .assign => "8XY0"
  | .or => "8XY1"
  | .and => "8XY2"
  | .xor => "8XY3"
  | .add => "8XY4"
  | .subtract => "8XY5"
  | .subtractFrom => "8XY7"

/-- How the words of an instruction are written. -/
def pattern : Instruction → String
  | clearScreen => "00E0"
  | leave => "00EE"
  | jump _ => "1NNN"
  | call _ => "2NNN"
  | skipIfByte _ _ => "3XNN"
  | skipUnlessByte _ _ => "4XNN"
  | skipIfSame _ _ => "5XY*"
  | loadByte _ _ => "6XNN"
  | addByte _ _ => "7XNN"
  | combine operation _ _ => arithmeticPattern operation
  | shiftRight _ => "8XY6"
  | shiftLeft _ => "8XYE"
  | skipUnlessSame _ _ => "9XY*"
  | loadIndex _ => "ANNN"
  | jumpOffset _ => "BNNN"
  | random _ _ => "CXNN"
  | draw _ _ _ => "DXYN"
  | skipIfKey _ => "EX9E"
  | skipUnlessKey _ => "EXA1"
  | readDelay _ => "FX07"
  | awaitKey _ => "FX0A"
  | setDelay _ => "FX15"
  | setSound _ => "FX18"
  | addIndex _ => "FX1E"
  | glyph _ => "FX29"
  | storeDecimal _ => "FX33"
  | storeRegisters _ => "FX55"
  | readRegisters _ => "FX65"

/-- Whether the operands of an instruction are the fields of a word that they are read from. -/
def Carries (word : Word) : Instruction → Prop
  | clearScreen | leave => True
  | jump address | call address | loadIndex address | jumpOffset address => address = word.address
  | skipIfByte x byte | skipUnlessByte x byte | loadByte x byte | addByte x byte | random x byte =>
    x = word.x ∧ byte = word.lowByte
  | skipIfSame x y | skipUnlessSame x y | combine _ x y => x = word.x ∧ y = word.y
  | draw x y height => x = word.x ∧ y = word.y ∧ height = word.n
  | shiftRight x | shiftLeft x | skipIfKey x | skipUnlessKey x | readDelay x | awaitKey x
  | setDelay x | setSound x | addIndex x | glyph x | storeDecimal x | storeRegisters x
  | readRegisters x => x = word.x

/-- Every instruction is written in one of the ways on the list. -/
theorem pattern_mem (instruction : Instruction) : instruction.pattern ∈ Word.patterns := by
  cases instruction with
  | combine operation x y => cases operation <;> simp [pattern, arithmeticPattern, Word.patterns]
  | _ => simp [pattern, Word.patterns]

theorem pattern_eq_call_iff (instruction : Instruction) :
    instruction.pattern = "2NNN" ↔ ∃ target, instruction = call target := by
  cases instruction with
  | combine operation x y => cases operation <;> simp [pattern, arithmeticPattern]
  | _ => simp [pattern]

theorem pattern_eq_leave_iff (instruction : Instruction) :
    instruction.pattern = "00EE" ↔ instruction = leave := by
  cases instruction with
  | combine operation x y => cases operation <;> simp [pattern, arithmeticPattern]
  | _ => simp [pattern]

/-! ### Decoding follows the patterns -/

section Decoding

variable {word : Word} {instruction : Instruction}

theorem fits_of_decodeSystem (decoded : decodeSystem word = some instruction) :
    word.fits instruction.pattern = true := by
  unfold decodeSystem at decoded
  split at decoded
  case isTrue equal =>
    have digits := word.eq_clearScreen_iff.mp equal
    cases decoded
    simp [pattern, Word.fits, Word.digits, Word.digitFits, Word.askedDigit?, digits]
  case isFalse =>
    obtain ⟨equal, same⟩ := Option.ite_none_right_eq_some.mp decoded
    have digits := word.eq_leave_iff.mp equal
    cases same
    simp [pattern, Word.fits, Word.digits, Word.digitFits, Word.askedDigit?, digits]

theorem fits_of_decodeArithmetic (family : word.family.val = 8)
    (decoded : decodeArithmetic word.x word.y word.n = some instruction) :
    word.fits instruction.pattern = true := by
  unfold decodeArithmetic at decoded
  split at decoded <;> cases decoded <;>
    simp_all [pattern, arithmeticPattern, Word.fits, Word.digits, Word.digitFits, Word.askedDigit?]

theorem fits_of_decodeKeypad (family : word.family.val = 14)
    (decoded : decodeKeypad word.x word.lowByte = some instruction) :
    word.fits instruction.pattern = true := by
  have low := word.toNat_lowByte
  unfold decodeKeypad at decoded
  split at decoded <;> cases decoded <;>
    (simp [pattern, Word.fits, Word.digits, Word.digitFits, Word.askedDigit?]; omega)

theorem fits_of_decodeMiscellaneous (family : word.family.val = 15)
    (decoded : decodeMiscellaneous word.x word.lowByte = some instruction) :
    word.fits instruction.pattern = true := by
  have low := word.toNat_lowByte
  unfold decodeMiscellaneous at decoded
  split at decoded <;> cases decoded <;>
    (simp [pattern, Word.fits, Word.digits, Word.digitFits, Word.askedDigit?]; omega)

/-- A word that decodes to an instruction is written the way that instruction is. -/
theorem fits_pattern_of_decode (decoded : decode word = some instruction) :
    word.fits instruction.pattern = true := by
  have bound := word.family.isLt
  unfold decode at decoded
  split at decoded
  case h_1 => exact fits_of_decodeSystem decoded
  case h_9 family => exact fits_of_decodeArithmetic family decoded
  case h_15 family => exact fits_of_decodeKeypad family decoded
  case h_16 => exact fits_of_decodeMiscellaneous (by grind) decoded
  all_goals
    cases decoded
    simp_all [pattern, Word.fits, Word.digits, Word.digitFits, Word.askedDigit?]

/-- A word that is written the way an instruction is and holds its operands decodes to it. -/
theorem decode_of_fits (fitting : word.fits instruction.pattern = true)
    (carries : instruction.Carries word) : decode word = some instruction := by
  have low := word.toNat_lowByte
  have clears := word.eq_clearScreen_iff
  have leaves := word.eq_leave_iff
  -- One case for each pattern: its digits decide every test that decoding makes.
  cases instruction with
  | combine operation x y =>
    cases operation <;>
      simp [pattern, arithmeticPattern, Word.fits, Word.digits, Word.digitFits,
        Word.askedDigit?] at fitting <;>
      simp_all [decode, decodeArithmetic, Carries]
  | _ =>
    simp [pattern, Word.fits, Word.digits, Word.digitFits, Word.askedDigit?] at fitting
    simp_all [decode, decodeSystem, decodeArithmetic, decodeKeypad, decodeMiscellaneous, Carries]

theorem eq_of_fits {other : Instruction} (decoded : decode word = some instruction)
    (fitting : word.fits other.pattern = true) (carries : other.Carries word) :
    instruction = other :=
  Option.some.inj (decoded.symm.trans (decode_of_fits fitting carries))

/-- What a word says if it is read as each of the instructions. -/
def readings (word : Word) : List Instruction :=
  [ clearScreen, leave, jump word.address, call word.address, skipIfByte word.x word.lowByte,
    skipUnlessByte word.x word.lowByte, skipIfSame word.x word.y, loadByte word.x word.lowByte,
    addByte word.x word.lowByte, combine .assign word.x word.y, combine .or word.x word.y,
    combine .and word.x word.y, combine .xor word.x word.y, combine .add word.x word.y,
    combine .subtract word.x word.y, shiftRight word.x, combine .subtractFrom word.x word.y,
    shiftLeft word.x, skipUnlessSame word.x word.y, loadIndex word.address,
    jumpOffset word.address, random word.x word.lowByte, draw word.x word.y word.n,
    skipIfKey word.x, skipUnlessKey word.x, readDelay word.x, awaitKey word.x, setDelay word.x,
    setSound word.x, addIndex word.x, glyph word.x, storeDecimal word.x, storeRegisters word.x,
    readRegisters word.x ]

/-- There is one reading for each pattern. -/
theorem map_pattern_readings (word : Word) : (readings word).map pattern = Word.patterns := rfl

theorem carries_of_mem_readings :
    ∀ instruction ∈ readings word, instruction.Carries word := by
  simp [readings, Carries]

/-- A word written the way some instruction is decodes to an instruction written that way. -/
theorem map_pattern_of_fits {pattern : String} (member : pattern ∈ Word.patterns)
    (fitting : word.fits pattern = true) :
    (decode word).map Instruction.pattern = some pattern := by
  rw [← map_pattern_readings word] at member
  obtain ⟨instruction, reading, rfl⟩ := List.mem_map.mp member
  rw [decode_of_fits fitting (carries_of_mem_readings instruction reading)]
  rfl

/-- A word fits a pattern of the list exactly when it decodes to an instruction written that
way. -/
theorem fits_iff {pattern : String} (member : pattern ∈ Word.patterns) :
    word.fits pattern = true ↔ (decode word).map Instruction.pattern = some pattern := by
  constructor
  · exact map_pattern_of_fits member
  · intro found
    obtain ⟨instruction, decoded, rfl⟩ := Option.map_eq_some_iff.mp found
    exact fits_pattern_of_decode decoded

/-- A word that decodes fits the pattern of its instruction and no other. -/
theorem fits_eq_of_decode {pattern : String} (decoded : decode word = some instruction)
    (member : pattern ∈ Word.patterns) :
    word.fits pattern = decide (instruction.pattern = pattern) := by
  rw [Bool.eq_iff_iff, fits_iff member, decoded, Option.map_some, Option.some_inj,
    decide_eq_true_iff]

/-- A word fits one pattern at most. -/
theorem fits_eq_of_fits {first second : String} (fitting : word.fits first = true)
    (firstMember : first ∈ Word.patterns) (member : second ∈ Word.patterns) :
    word.fits second = decide (first = second) := by
  obtain ⟨instruction, decoded, rfl⟩ :=
    Option.map_eq_some_iff.mp (map_pattern_of_fits firstMember fitting)
  exact fits_eq_of_decode decoded member

/-- A word that fits one of several patterns decodes. -/
theorem decode_of_fitsAny {choice : List String} (members : choice ⊆ Word.patterns)
    (fitting : word.fitsAny choice = true) : ∃ instruction, decode word = some instruction := by
  obtain ⟨pattern, member, fits⟩ := List.any_eq_true.mp fitting
  obtain ⟨instruction, decoded, -⟩ :=
    Option.map_eq_some_iff.mp (map_pattern_of_fits (members member) fits)
  exact ⟨instruction, decoded⟩

theorem fitsAny_eq_of_decode {choice : List String} (decoded : decode word = some instruction)
    (members : choice ⊆ Word.patterns) :
    word.fitsAny choice = decide (instruction.pattern ∈ choice) := by
  rw [Bool.eq_iff_iff, Word.fitsAny, List.any_eq_true, decide_eq_true_iff]
  constructor
  · rintro ⟨pattern, member, fitting⟩
    rw [fits_eq_of_decode decoded (members member), decide_eq_true_iff] at fitting
    exact fitting ▸ member
  · intro member
    exact ⟨instruction.pattern, member, fits_pattern_of_decode decoded⟩

/-- Decoding reads the operands from the fields of the word. -/
theorem carries_of_decode (decoded : decode word = some instruction) :
    instruction.Carries word := by
  unfold decode decodeSystem decodeArithmetic decodeKeypad decodeMiscellaneous at decoded
  split at decoded <;> (try split at decoded) <;> (try split at decoded) <;> cases decoded <;>
    simp [Carries]

/-- A word is written like an instruction exactly when it decodes to one. -/
theorem isInstruction_iff :
    word.isInstruction = true ↔ ∃ instruction, decode word = some instruction := by
  refine ⟨decode_of_fitsAny (List.Subset.refl _), ?_⟩
  rintro ⟨instruction, decoded⟩
  rw [Word.isInstruction, fitsAny_eq_of_decode decoded (List.Subset.refl _), decide_eq_true_iff]
  exact pattern_mem instruction

end Decoding

end Instruction

end ChipEight
