/-
This file proves that the table of assembly and the decoder agree on every word, and that a line
of assembly is read back.

A line is a name and operands, and which those are is told by the instruction that the word
decodes to. The table looks at the word itself, in an order of its own, and comes to the same
line. Without its commas a line falls apart at the blanks into the name and the texts of the
operands, and each of these reads back, so a line determines the instruction it was written for.
-/

import ChipEight.Instruction
import ChipEight.Numeral.Reading
import Mathlib.Tactic.IntervalCases

namespace ChipEight

/-! ### Lines of assembly -/

/-- An operand that has a name of its own. -/
inductive Special
  | index
  /-- The memory at the index register. -/
  | indirect
  | delay
  | sound
  | key
  | font
  | decimal
  deriving DecidableEq

/-- What an instruction is written to work on. -/
inductive Operand
  | register (x : Register)
  | byte (value : UInt8)
  | address (target : Fin 4096)
  | height (rows : Fin 16)
  | word (data : Word)
  | special (name : Special)
  deriving DecidableEq

/-- A line of assembly, taken apart. -/
structure Assembly where
  name : String
  operands : List Operand

def Special.text : Special → String
  | index => "I"
  | indirect => "[I]"
  | delay => "DT"
  | sound => "ST"
  | key => "K"
  | font => "F"
  | decimal => "B"

def Operand.text : Operand → String
  | register x => Instruction.registerName x
  | byte value => Instruction.byteText value
  | address target => Instruction.addressText target
  | height rows => Numeral.decimal 1 rows
  | word data => "0x" ++ Numeral.hexadecimal 4 data.toNat
  | special name => name.text

def Instruction.arithmeticName : Arithmetic → String
  | .assign => "LD"
  | .or => "OR"
  | .and => "AND"
  | .xor => "XOR"
  | .add => "ADD"
  | .subtract => "SUB"
  | .subtractFrom => "SUBN"

open Operand Special in
/-- The line of an instruction. -/
def Instruction.assembly : Instruction → Assembly
  | clearScreen => ⟨"CLS", []⟩
  | leave => ⟨"RET", []⟩
  | jump target => ⟨"JP", [address target]⟩
  | call target => ⟨"CALL", [address target]⟩
  | skipIfByte x value => ⟨"SE", [register x, byte value]⟩
  | skipUnlessByte x value => ⟨"SNE", [register x, byte value]⟩
  | skipIfSame x y => ⟨"SE", [register x, register y]⟩
  | skipUnlessSame x y => ⟨"SNE", [register x, register y]⟩
  | loadByte x value => ⟨"LD", [register x, byte value]⟩
  | addByte x value => ⟨"ADD", [register x, byte value]⟩
  | combine operation x y => ⟨arithmeticName operation, [register x, register y]⟩
  | shiftRight x => ⟨"SHR", [register x]⟩
  | shiftLeft x => ⟨"SHL", [register x]⟩
  | loadIndex target => ⟨"LD", [special index, address target]⟩
  | jumpOffset base => ⟨"JP", [register Register.offset, address base]⟩
  | random x mask => ⟨"RND", [register x, byte mask]⟩
  | draw x y rows => ⟨"DRW", [register x, register y, height rows]⟩
  | skipIfKey x => ⟨"SKP", [register x]⟩
  | skipUnlessKey x => ⟨"SKNP", [register x]⟩
  | readDelay x => ⟨"LD", [register x, special delay]⟩
  | awaitKey x => ⟨"LD", [register x, special key]⟩
  | setDelay x => ⟨"LD", [special delay, register x]⟩
  | setSound x => ⟨"LD", [special sound, register x]⟩
  | addIndex x => ⟨"ADD", [special index, register x]⟩
  | glyph x => ⟨"LD", [special font, register x]⟩
  | storeDecimal x => ⟨"LD", [special decimal, register x]⟩
  | storeRegisters x => ⟨"LD", [special indirect, register x]⟩
  | readRegisters x => ⟨"LD", [register x, special indirect]⟩

/-- The line of a word. -/
def Word.assembly (word : Word) : Assembly :=
  match Instruction.decode word with
  | some instruction => instruction.assembly
  | none => ⟨"DW", [.word word]⟩

/-- The text of a line: a blank behind the name, and a comma and a blank between operands. -/
def Assembly.chars (assembly : Assembly) : List Char :=
  match assembly.operands with
  | [] => assembly.name.toList
  | operands =>
    assembly.name.toList ++ ' ' :: [',', ' '].intercalate (operands.map (·.text.toList))

/-! ### The table of assembly -/

/-- The table writes for every word the line of the instruction that the word decodes to, or one
of data if it decodes to none. -/
theorem Word.toList_mnemonic (word : Word) : word.mnemonic.toList = word.assembly.chars := by
  have family := word.family.isLt
  have offset : Instruction.registerName Register.offset = "V0" := by decide +kernel
  unfold mnemonic assembly Instruction.decode
  generalize word.family.val = digit at *
  interval_cases digit
  case «0» =>
    simp only [Instruction.decodeSystem]
    split
    · rfl
    · split <;> simp [Instruction.assembly, Assembly.chars, Operand.text]
  case «8» =>
    have last := word.n.isLt
    simp only [Instruction.decodeArithmetic]
    generalize word.n.val = digit at *
    interval_cases digit <;>
      simp [Instruction.assembly, Instruction.arithmeticName, Assembly.chars, Operand.text]
  case «14» =>
    simp only [Instruction.decodeKeypad]
    generalize word.lowByte.toNat = byte
    by_cases known : byte ∈ [0x9E, 0xA1]
    · simp only [List.mem_cons, List.not_mem_nil, or_false] at known
      rcases known with rfl | rfl <;>
        simp [Instruction.assembly, Assembly.chars, Operand.text]
    · simp only [List.mem_cons, List.not_mem_nil, or_false, not_or] at known
      simp [known, Assembly.chars, Operand.text]
  case «15» =>
    simp only [Instruction.decodeMiscellaneous]
    generalize word.lowByte.toNat = byte
    by_cases known : byte ∈ [0x07, 0x0A, 0x15, 0x18, 0x1E, 0x29, 0x33, 0x55, 0x65]
    · simp only [List.mem_cons, List.not_mem_nil, or_false] at known
      rcases known with rfl | rfl | rfl | rfl | rfl | rfl | rfl | rfl | rfl <;>
        simp [Instruction.assembly, Assembly.chars, Operand.text, Special.text]
    · simp only [List.mem_cons, List.not_mem_nil, or_false, not_or] at known
      simp [known, Assembly.chars, Operand.text]
  all_goals
    simp [Instruction.assembly, Assembly.chars, Operand.text, Special.text, offset]

/-! ### Taking a line apart -/

/-- Whether a character stands between the parts of a line, or between lines. -/
def IsSeparator (char : Char) : Prop := char = ' ' ∨ char = ',' ∨ char = '\n'

/-- No separator is in the text of an operand. -/
theorem Operand.not_mem_text_of_isSeparator (operand : Operand) {char : Char}
    (separator : IsSeparator char) : char ∉ operand.text.toList := by
  have other : Numeral.digitValue? char = none := by
    rcases separator with rfl | rfl | rfl <;> rfl
  have following (front : String) (others : char ∉ front.toList) (width number : Nat) :
      char ∉ (front ++ Numeral.hexadecimal width number).toList := by
    rw [String.toList_append, List.mem_append]
    exact not_or.mpr ⟨others, Numeral.not_mem_hexadecimal width number other⟩
  have letter : char ∉ "V".toList := by rcases separator with rfl | rfl | rfl <;> simp
  have mark : char ∉ "0x".toList := by rcases separator with rfl | rfl | rfl <;> simp
  cases operand with
  | register x => exact following "V" letter 1 x
  | byte value => exact following "0x" mark 2 value.toNat
  | address target => exact following "0x" mark 3 target
  | word data => exact following "0x" mark 4 data.toNat
  | height rows => exact Numeral.not_mem_decimal 1 rows other
  | special name =>
    rcases separator with rfl | rfl | rfl <;> cases name <;> simp [text, Special.text]

namespace Assembly

/-- The name and the operands of a line as characters. -/
def tokens (assembly : Assembly) : List (List Char) :=
  assembly.name.toList :: assembly.operands.map fun operand => operand.text.toList

/-- No separator is in the name of a line of a word. -/
theorem not_mem_name_of_isSeparator (word : Word) {char : Char} (separator : IsSeparator char) :
    char ∉ word.assembly.name.toList := by
  unfold Word.assembly
  cases Instruction.decode word with
  | none => rcases separator with rfl | rfl | rfl <;> simp
  | some instruction =>
    cases instruction with
    | combine operation =>
      rcases separator with rfl | rfl | rfl <;>
        cases operation <;> simp [Instruction.assembly, Instruction.arithmeticName]
    | _ => rcases separator with rfl | rfl | rfl <;> simp [Instruction.assembly]

/-- No separator is in a part of the line of a word. -/
theorem not_mem_tokens_of_isSeparator (word : Word) {char : Char}
    (separator : IsSeparator char) : ∀ token ∈ word.assembly.tokens, char ∉ token := by
  intro token member
  rcases List.mem_cons.mp member with rfl | member
  · exact not_mem_name_of_isSeparator word separator
  · obtain ⟨operand, -, rfl⟩ := List.mem_map.mp member
    exact operand.not_mem_text_of_isSeparator separator

end Assembly

/-- A text without its commas. -/
def withoutCommas (chars : List Char) : List Char := chars.filter (· ≠ ',')

section Commas

variable {first : List Char} (second : List Char)

theorem withoutCommas_append_of_not_mem (free : ',' ∉ first) :
    withoutCommas (first ++ second) = first ++ withoutCommas second := by
  have kept : withoutCommas first = first := by
    refine List.filter_eq_self.mpr fun char member => decide_eq_true ?_
    rintro rfl
    exact free member
  rw [withoutCommas, List.filter_append]
  exact congrArg (· ++ withoutCommas second) kept

theorem withoutCommas_of_not_mem (free : ',' ∉ first) : withoutCommas first = first := by
  have whole := withoutCommas_append_of_not_mem [] free
  rwa [List.append_nil, show withoutCommas [] = [] from rfl, List.append_nil] at whole

/-- Texts with commas and blanks between are texts with blanks between, without the commas. -/
theorem withoutCommas_intercalate {texts : List (List Char)} (free : ∀ text ∈ texts, ',' ∉ text) :
    withoutCommas ([',', ' '].intercalate texts) = [' '].intercalate texts := by
  induction texts with
  | nil => rfl
  | cons text rest previous =>
    obtain ⟨here, later⟩ := List.forall_mem_cons.mp free
    cases rest with
    | nil =>
      rw [List.intercalate_singleton, List.intercalate_singleton]
      exact withoutCommas_of_not_mem here
    | cons next others =>
      rw [List.intercalate_cons_cons, List.intercalate_cons_cons, List.append_assoc,
        List.append_assoc, withoutCommas_append_of_not_mem _ here]
      exact congrArg (text ++ ' ' :: ·) (previous later)

end Commas

namespace Assembly

/-- What is left of a line without its commas is its parts with blanks between. -/
theorem withoutCommas_chars (assembly : Assembly) (free : ∀ token ∈ assembly.tokens, ',' ∉ token) :
    withoutCommas assembly.chars = [' '].intercalate assembly.tokens := by
  obtain ⟨name, operands⟩ := assembly
  obtain ⟨here, later⟩ := List.forall_mem_cons.mp free
  cases operands with
  | nil => exact (withoutCommas_of_not_mem here).trans List.intercalate_singleton.symm
  | cons operand rest =>
    show withoutCommas (name.toList ++ ' ' :: [',', ' '].intercalate
      ((operand :: rest).map (·.text.toList))) = _
    rw [withoutCommas_append_of_not_mem _ here, tokens, List.map_cons,
      List.intercalate_cons_cons, List.append_assoc]
    exact congrArg (name.toList ++ ' ' :: ·) (withoutCommas_intercalate later)

/-- Without its commas, the line of a word falls apart at the blanks into its parts. -/
theorem splitOn_mnemonic (word : Word) :
    (withoutCommas word.mnemonic.toList).splitOn ' ' = word.assembly.tokens := by
  rw [word.toList_mnemonic,
    withoutCommas_chars _ (not_mem_tokens_of_isSeparator word (.inr (.inl rfl)))]
  exact List.splitOn_intercalate ' ' (not_mem_tokens_of_isSeparator word (.inl rfl))
    (List.cons_ne_nil _ _)

end Assembly

theorem not_mem_intercalate {char : Char} {between : List Char} {texts : List (List Char)}
    (apart : char ∉ between) (free : ∀ text ∈ texts, char ∉ text) :
    char ∉ between.intercalate texts := by
  induction texts with
  | nil => exact List.not_mem_nil
  | cons text rest previous =>
    obtain ⟨here, later⟩ := List.forall_mem_cons.mp free
    cases rest with
    | nil => rwa [List.intercalate_singleton]
    | cons next others =>
      rw [List.intercalate_cons_cons, List.mem_append, List.mem_append, not_or, not_or]
      exact ⟨⟨here, apart⟩, previous later⟩

/-- Assembly is written in one line. -/
theorem newline_not_mem_mnemonic (word : Word) : '\n' ∉ word.mnemonic.toList := by
  intro member
  rw [word.toList_mnemonic] at member
  have kept : '\n' ∈ withoutCommas word.assembly.chars :=
    List.mem_filter.mpr ⟨member, rfl⟩
  rw [Assembly.withoutCommas_chars _
    (Assembly.not_mem_tokens_of_isSeparator word (.inr (.inl rfl)))] at kept
  exact not_mem_intercalate (by simp)
    (Assembly.not_mem_tokens_of_isSeparator word (.inr (.inr rfl))) kept

/-! ### Reading a line back -/

/-- The number that digits stand for, as a word. -/
def number? (base : Nat) (digits : List Char) : Option Word :=
  (Numeral.readDigits? base digits).map UInt16.ofNat

/-- The operand that a text stands for. -/
def operand? : List Char → Option Operand
  | ['I'] => some (.special .index)
  | ['[', 'I', ']'] => some (.special .indirect)
  | ['D', 'T'] => some (.special .delay)
  | ['S', 'T'] => some (.special .sound)
  | ['K'] => some (.special .key)
  | ['F'] => some (.special .font)
  | ['B'] => some (.special .decimal)
  | 'V' :: digits => (number? 16 digits).map fun number => .register number.n
  | '0' :: 'x' :: digits =>
    (number? 16 digits).map fun number =>
      match digits.length with
      | 2 => .byte number.lowByte
      | 3 => .address number.address
      | _ => .word number
  | digits => (number? 10 digits).map fun number => .height number.n

theorem number?_hexadecimal (width number : Nat) :
    number? 16 (Numeral.hexadecimal width number).toList = some (UInt16.ofNat number) := by
  rw [number?, Numeral.readDigits?_hexadecimal]
  rfl

theorem operand?_text (operand : Operand) : operand? operand.text.toList = some operand := by
  have text (width number : Nat) : ("0x" ++ Numeral.hexadecimal width number).toList =
      '0' :: 'x' :: (Numeral.hexadecimal width number).toList := by simp
  cases operand with
  | register x =>
    have name : (Instruction.registerName x).toList = 'V' :: (Numeral.hexadecimal 1 x).toList := by
      simp [Instruction.registerName]
    have field : Word.n (UInt16.ofNat x) = x := by
      refine Fin.ext ?_
      simp only [Word.n, Word.digit, UInt16.toNat_ofNat']
      omega
    rw [Operand.text, name, operand?, number?_hexadecimal, Option.map_some, field]
  | byte value =>
    have length : (Numeral.hexadecimal 2 value.toNat).toList.length = 2 :=
      Numeral.length_hexadecimal (by decide) value.toNat_lt
    have field : Word.lowByte (UInt16.ofNat value.toNat) = value := by
      have bound := value.toNat_lt
      refine UInt8.toNat_inj.mp ?_
      simp only [Word.lowByte, UInt8.toNat_ofNat', UInt16.toNat_ofNat']
      omega
    rw [Operand.text, Instruction.byteText, text, operand?, number?_hexadecimal, Option.map_some,
      length, field]
    rfl
  | address target =>
    have length : (Numeral.hexadecimal 3 target).toList.length = 3 :=
      Numeral.length_hexadecimal (by decide) target.isLt
    have field : Word.address (UInt16.ofNat target) = target := by
      refine Fin.ext ?_
      simp only [Word.address, UInt16.toNat_ofNat']
      omega
    rw [Operand.text, Instruction.addressText, text, operand?, number?_hexadecimal, Option.map_some,
      length, field]
    rfl
  | word data =>
    have length : (Numeral.hexadecimal 4 data.toNat).toList.length = 4 :=
      Numeral.length_hexadecimal (by decide) data.toNat_lt
    rw [Operand.text, text, operand?, number?_hexadecimal, Option.map_some, length,
      UInt16.ofNat_toNat]
    rfl
  | height rows =>
    have each : ∀ rows : Fin 16, operand?
        (if rows.val < 10 then [Nat.digitChar rows]
        else [Nat.digitChar (rows / 10), Nat.digitChar (rows % 10)]) =
          some (.height rows) := by decide
    rw [Operand.text, Numeral.toList_decimal_of_lt (by omega)]
    exact each rows
  | special name => cases name <;> rfl

/-- Operands with one text are equal. -/
theorem Operand.eq_of_toList_text {left right : Operand}
    (same : left.text.toList = right.text.toList) : left = right := by
  have read := operand?_text left
  rw [same, operand?_text] at read
  exact (Option.some.inj read).symm

open Operand Special Instruction in
/-- The instruction that a line was written for. -/
def Assembly.instruction? : Assembly → Option Instruction
  | ⟨"CLS", []⟩ => some clearScreen
  | ⟨"RET", []⟩ => some leave
  | ⟨"JP", [address target]⟩ => some (jump target)
  | ⟨"CALL", [address target]⟩ => some (call target)
  | ⟨"SE", [register x, byte value]⟩ => some (skipIfByte x value)
  | ⟨"SNE", [register x, byte value]⟩ => some (skipUnlessByte x value)
  | ⟨"SE", [register x, register y]⟩ => some (skipIfSame x y)
  | ⟨"SNE", [register x, register y]⟩ => some (skipUnlessSame x y)
  | ⟨"LD", [register x, byte value]⟩ => some (loadByte x value)
  | ⟨"ADD", [register x, byte value]⟩ => some (addByte x value)
  | ⟨"LD", [register x, register y]⟩ => some (combine .assign x y)
  | ⟨"OR", [register x, register y]⟩ => some (combine .or x y)
  | ⟨"AND", [register x, register y]⟩ => some (combine .and x y)
  | ⟨"XOR", [register x, register y]⟩ => some (combine .xor x y)
  | ⟨"ADD", [register x, register y]⟩ => some (combine .add x y)
  | ⟨"SUB", [register x, register y]⟩ => some (combine .subtract x y)
  | ⟨"SUBN", [register x, register y]⟩ => some (combine .subtractFrom x y)
  | ⟨"SHR", [register x]⟩ => some (shiftRight x)
  | ⟨"SHL", [register x]⟩ => some (shiftLeft x)
  | ⟨"LD", [special index, address target]⟩ => some (loadIndex target)
  | ⟨"JP", [register _, address base]⟩ => some (jumpOffset base)
  | ⟨"RND", [register x, byte mask]⟩ => some (random x mask)
  | ⟨"DRW", [register x, register y, height rows]⟩ => some (draw x y rows)
  | ⟨"SKP", [register x]⟩ => some (skipIfKey x)
  | ⟨"SKNP", [register x]⟩ => some (skipUnlessKey x)
  | ⟨"LD", [register x, special delay]⟩ => some (readDelay x)
  | ⟨"LD", [register x, special key]⟩ => some (awaitKey x)
  | ⟨"LD", [special delay, register x]⟩ => some (setDelay x)
  | ⟨"LD", [special sound, register x]⟩ => some (setSound x)
  | ⟨"ADD", [special index, register x]⟩ => some (addIndex x)
  | ⟨"LD", [special font, register x]⟩ => some (glyph x)
  | ⟨"LD", [special decimal, register x]⟩ => some (storeDecimal x)
  | ⟨"LD", [special indirect, register x]⟩ => some (storeRegisters x)
  | ⟨"LD", [register x, special indirect]⟩ => some (readRegisters x)
  | _ => none

theorem instruction?_assembly (instruction : Instruction) :
    instruction.assembly.instruction? = some instruction := by
  cases instruction with
  | combine operation => cases operation <;> rfl
  | _ => rfl

theorem Assembly.eq_of_tokens_eq {left right : Assembly} (same : left.tokens = right.tokens) :
    left = right := by
  obtain ⟨name, operands⟩ := left
  obtain ⟨name', operands'⟩ := right
  obtain ⟨names, texts⟩ := List.cons.inj same
  obtain rfl := String.toList_inj.mp names
  obtain rfl := (List.map_inj_right fun _ _ => Operand.eq_of_toList_text).mp texts
  rfl

/-- Words with one line have one decoding, and are equal if they are no instructions. -/
theorem decode_eq_of_mnemonic_eq {left right : Word} (same : left.mnemonic = right.mnemonic) :
    Instruction.decode left = Instruction.decode right ∧
      (Instruction.decode left = none → left = right) := by
  have lines : left.assembly = right.assembly := by
    refine Assembly.eq_of_tokens_eq ?_
    rw [← Assembly.splitOn_mnemonic, ← Assembly.splitOn_mnemonic, same]
  have decodes (word : Word) : word.assembly.instruction? = Instruction.decode word := by
    unfold Word.assembly
    cases Instruction.decode word with
    | none => rfl
    | some instruction => exact instruction?_assembly instruction
  have decodings : Instruction.decode left = Instruction.decode right := by
    rw [← decodes, ← decodes, lines]
  refine ⟨decodings, fun data => ?_⟩
  have data' := decodings.symm.trans data
  simp only [Word.assembly, data, data'] at lines
  injection lines with _ operands
  injection operands with operand
  injection operand

/-- The lines that begin with a data directive are those of words that are no instructions. -/
theorem data_prefix_mnemonic_iff (word : Word) :
    "DW ".toList <+: word.mnemonic.toList ↔ Instruction.decode word = none := by
  rw [word.toList_mnemonic, Word.assembly]
  cases Instruction.decode word with
  | none => simp [Assembly.chars]
  | some instruction =>
    refine iff_of_false ?_ (Option.some_ne_none _)
    cases instruction with
    | combine operation =>
      cases operation <;>
        simp [Instruction.assembly, Instruction.arithmeticName, Assembly.chars]
    | _ => simp [Instruction.assembly, Assembly.chars]

end ChipEight
