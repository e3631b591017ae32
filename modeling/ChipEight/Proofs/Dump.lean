/-
This file proves that the dumps of a machine determine what they show.

The dump of the registers is a row of fields, each ended by a blank or a line feed. No field
holds either, so the text falls apart into its fields, and no digit of a number is ever cut off,
so each field gives its number back. The number of fields tells how many return addresses there
are. The dumps of the screen and of memory are lines of one length each, and two of them are
equal if every line is.
-/

import ChipEight.Proofs.Display
import ChipEight.Proofs.Readers
import ChipEight.Proofs.Sprite

namespace ChipEight

/-! ### Fields -/

namespace Dump

/-- Whether a character ends a field. -/
def endsField (char : Char) : Bool := char = ' ' || char = '\n'

/-- A field of a dump, and the character behind it. -/
structure Field where
  text : List Char
  last : Char

namespace Field

def chars (field : Field) : List Char := field.text ++ [field.last]

/-- A field is whole if it ends with its last character and not before. -/
structure Whole (field : Field) : Prop where
  unbroken : ∀ char ∈ field.text, endsField char = false
  ended : endsField field.last = true

theorem whole_mk {text : List Char} {last : Char} (unbroken : ∀ char ∈ text, endsField char = false)
    (ended : endsField last = true) : Whole ⟨text, last⟩ :=
  ⟨unbroken, ended⟩

end Field

/-- Whole fields come apart again. -/
theorem splitOnP_fields {fields : List Field} (whole : ∀ field ∈ fields, field.Whole)
    (rest : List Char) :
    (fields.flatMap Field.chars ++ rest).splitOnP endsField =
      fields.map Field.text ++ rest.splitOnP endsField := by
  induction fields with
  | nil => rfl
  | cons field others previous =>
    have first := whole field List.mem_cons_self
    have joined : (field :: others).flatMap Field.chars ++ rest =
        field.text ++ field.last :: (others.flatMap Field.chars ++ rest) := by
      simp [Field.chars]
    rw [joined, List.splitOnP_append_cons_of_forall_mem first.unbroken _ first.ended,
      previous fun other member => whole other (List.mem_cons_of_mem _ member)]
    rfl

/-- A line of fields with blanks between them comes apart as well. -/
theorem splitOnP_line (first : List Char) (rest : List (List Char))
    (whole : ∀ text ∈ first :: rest, ∀ char ∈ text, endsField char = false) :
    (first ++ (rest.flatMap fun text => ' ' :: text) ++ ['\n']).splitOnP endsField =
      first :: rest ++ [[]] := by
  induction rest generalizing first with
  | nil =>
    have unbroken := whole first List.mem_cons_self
    simpa using List.splitOnP_append_cons_of_forall_mem unbroken '\n' rfl []
  | cons second rest previous =>
    have unbroken := whole first List.mem_cons_self
    have joined : first ++ ((second :: rest).flatMap fun text => ' ' :: text) ++ ['\n'] =
        first ++ ' ' :: (second ++ (rest.flatMap fun text => ' ' :: text) ++ ['\n']) := by
      simp
    rw [joined, List.splitOnP_append_cons_of_forall_mem unbroken ' ' rfl,
      previous second fun text member => whole text (List.mem_cons_of_mem _ member)]
    rfl

/-- The digits of a number end no field. -/
theorem endsField_of_mem {digits : List Char}
    (written : ∀ char, Numeral.digitValue? char = none → char ∉ digits) :
    ∀ char ∈ digits, endsField char = false := by
  intro char member
  have notBlank : char ≠ ' ' := fun same => written ' ' rfl (same ▸ member)
  have notLineFeed : char ≠ '\n' := fun same => written '\n' rfl (same ▸ member)
  simp [endsField, notBlank, notLineFeed]

end Dump

namespace Machine

open Dump

/-! ### The registers -/

/-- The fields of the dump of the registers up to the call stack. -/
def dumpFields (machine : Machine) : List Field :=
  [ ⟨"PC:".toList, ' '⟩, ⟨(Numeral.hexadecimal 4 machine.pc).toList, ' '⟩,
    ⟨"SP:".toList, ' '⟩, ⟨(Numeral.hexadecimal 2 machine.stack.depth).toList, ' '⟩,
    ⟨"I:".toList, ' '⟩, ⟨(Numeral.hexadecimal 4 machine.index.toNat).toList, '\n'⟩,
    ⟨"DT:".toList, ' '⟩, ⟨(Numeral.decimal 3 machine.delay.toNat).toList, ' '⟩,
    ⟨"ST:".toList, ' '⟩, ⟨(Numeral.decimal 3 machine.sound.toNat).toList, '\n'⟩ ] ++
  (List.finRange 16).map fun register =>
    ⟨(machine.registerText register).toList, if register.val % 8 = 7 then '\n' else ' '⟩

/-- The return addresses in use as they are written. -/
def stackFields (machine : Machine) : List (List Char) :=
  machine.stack.live.map fun address => (Numeral.hexadecimal 4 address.toNat).toList

theorem toList_registersText (machine : Machine) :
    machine.registersText.toList =
      machine.dumpFields.flatMap Field.chars ++
        ("stack:".toList ++ (machine.stackFields.flatMap fun text => ' ' :: text) ++ ['\n']) := by
  have separated (register : Register) :
      (registerSeparator register).toList = [if register.val % 8 = 7 then '\n' else ' '] := by
    unfold registerSeparator
    split <;> rfl
  unfold registersText stackText dumpFields stackFields
  simp [separated, Field.chars, String.toList_join, List.flatMap_map]

theorem endsField_of_mem_hexadecimal (width number : Nat) :
    ∀ char ∈ (Numeral.hexadecimal width number).toList, endsField char = false :=
  endsField_of_mem fun _ => Numeral.not_mem_hexadecimal width number

theorem endsField_of_mem_decimal (width number : Nat) :
    ∀ char ∈ (Numeral.decimal width number).toList, endsField char = false :=
  endsField_of_mem fun _ => Numeral.not_mem_decimal width number

theorem toList_registerText (machine : Machine) (register : Register) :
    (machine.registerText register).toList =
      'V' :: ((Numeral.hexadecimal 1 register).toList ++
        '=' :: (Numeral.hexadecimal 2 (machine.registers.read register).toNat).toList) := by
  simp [registerText, Instruction.registerName]

theorem whole_dumpFields (machine : Machine) : ∀ field ∈ machine.dumpFields, field.Whole := by
  have hexadecimal := endsField_of_mem_hexadecimal
  have decimal := endsField_of_mem_decimal
  have blank : endsField ' ' = true := rfl
  have lineFeed : endsField '\n' = true := rfl
  have register (register : Register) :
      ∀ char ∈ (machine.registerText register).toList, endsField char = false := by
    intro char member
    rw [toList_registerText] at member
    simp only [List.mem_cons, List.mem_append] at member
    rcases member with rfl | name | rfl | value
    · rfl
    · exact hexadecimal _ _ char name
    · rfl
    · exact hexadecimal _ _ char value
  intro field member
  rcases List.mem_append.mp member with fixed | registers
  · simp only [List.mem_cons, List.not_mem_nil, or_false] at fixed
    rcases fixed with rfl | rfl | rfl | rfl | rfl | rfl | rfl | rfl | rfl | rfl
    · exact Field.whole_mk (by simp [endsField]) blank
    · exact Field.whole_mk (hexadecimal 4 machine.pc) blank
    · exact Field.whole_mk (by simp [endsField]) blank
    · exact Field.whole_mk (hexadecimal 2 machine.stack.depth) blank
    · exact Field.whole_mk (by simp [endsField]) blank
    · exact Field.whole_mk (hexadecimal 4 machine.index.toNat) lineFeed
    · exact Field.whole_mk (by simp [endsField]) blank
    · exact Field.whole_mk (decimal 3 machine.delay.toNat) blank
    · exact Field.whole_mk (by simp [endsField]) blank
    · exact Field.whole_mk (decimal 3 machine.sound.toNat) lineFeed
  · obtain ⟨name, -, rfl⟩ := List.mem_map.mp registers
    refine Field.whole_mk (register name) ?_
    split
    · exact lineFeed
    · exact blank

/-- The dump of the registers comes apart into its fields. -/
theorem splitOnP_registersText (machine : Machine) :
    machine.registersText.toList.splitOnP endsField =
      machine.dumpFields.map Field.text ++ ("stack:".toList :: machine.stackFields ++ [[]]) := by
  rw [toList_registersText, splitOnP_fields machine.whole_dumpFields, splitOnP_line]
  intro text member
  rcases List.mem_cons.mp member with rfl | address
  · simp [endsField]
  · obtain ⟨live, -, rfl⟩ := List.mem_map.mp address
    exact endsField_of_mem_hexadecimal 4 live.toNat

section Registers

variable {left right : Machine}

theorem registerText_inj {register : Register} :
    left.registerText register = right.registerText register ↔
      left.registers.read register = right.registers.read register := by
  rw [← String.toList_inj, toList_registerText, toList_registerText, List.cons.injEq,
    List.append_cancel_left_eq, List.cons.injEq, String.toList_inj, Numeral.hexadecimal_inj,
    UInt8.toNat_inj]
  simp

/-- Machines whose fields are written alike agree on what the fields are about. -/
theorem eq_of_map_text_dumpFields (same : left.dumpFields.map Field.text =
    right.dumpFields.map Field.text) :
    left.pc = right.pc ∧ left.stack.depth = right.stack.depth ∧ left.index = right.index ∧
      left.delay = right.delay ∧ left.sound = right.sound ∧ left.registers = right.registers := by
  simp only [dumpFields, List.map_cons, List.map_map, List.cons_append, List.nil_append,
    List.cons.injEq, String.toList_inj, Numeral.hexadecimal_inj, Numeral.decimal_inj, true_and,
    List.map_inj_left, Function.comp_apply] at same
  obtain ⟨pc, depth, index, delay, sound, registers⟩ := same
  refine ⟨pc, depth, UInt16.toNat_inj.mp index, UInt8.toNat_inj.mp delay,
    UInt8.toNat_inj.mp sound, Vector.ext fun position inside => ?_⟩
  exact registerText_inj.mp (registers ⟨position, inside⟩ (List.mem_finRange _))

/-- Return addresses that are written alike are the same. -/
theorem live_eq_of_stackFields (same : left.stackFields = right.stackFields) :
    left.stack.live = right.stack.live := by
  refine List.map_injective_iff.mpr (fun address other written => ?_) same
  exact UInt16.toNat_inj.mp (Numeral.hexadecimal_inj.mp (String.toList_inj.mp written))

theorem registersText_inj :
    left.registersText = right.registersText ↔
      left.pc = right.pc ∧ left.stack.depth = right.stack.depth ∧ left.index = right.index ∧
        left.delay = right.delay ∧ left.sound = right.sound ∧
        left.registers = right.registers ∧ left.stack.live = right.stack.live := by
  constructor
  · intro same
    have pieces := splitOnP_registersText left
    rw [same, splitOnP_registersText] at pieces
    obtain ⟨fields, stack⟩ := List.append_inj pieces (by simp [dumpFields])
    rw [List.cons_append, List.cons_append, List.cons.injEq, List.append_cancel_right_eq] at stack
    obtain ⟨pc, depth, index, delay, sound, registers⟩ := eq_of_map_text_dumpFields fields.symm
    exact ⟨pc, depth, index, delay, sound, registers, live_eq_of_stackFields stack.2.symm⟩
  · rintro ⟨pc, depth, index, delay, sound, registers, live⟩
    unfold registersText stackText registerText
    rw [pc, depth, index, delay, sound, registers, live]

end Registers

end Machine

/-! ### The screen -/

namespace Framebuffer

variable (screen : Framebuffer)

theorem wrap_eq_ofPosition (column : Fin Screen.width) (row : Fin Screen.height) :
    Pixel.wrap column row = Pixel.ofPosition column row :=
  Fin.ext ((val_wrap column row).trans (Nat.mod_eq_of_lt (Pixel.ofPosition column row).isLt))

theorem toList_rowText (row : Nat) :
    (screen.rowText row).toList = (List.range Screen.width).map fun column =>
      pixelChar (screen.isLit (Pixel.wrap column row)) := by
  rw [rowText, String.toList_ofList]

theorem getElem?_toList_rowText (column : Fin Screen.width) (row : Fin Screen.height) :
    (screen.rowText row).toList[column.val]? =
      some (pixelChar (screen.isLit (Pixel.ofPosition column row))) := by
  rw [toList_rowText, List.getElem?_map, List.getElem?_range column.isLt, Option.map_some,
    wrap_eq_ofPosition]

theorem pixelChar_ne_lineFeed (lit : Bool) : pixelChar lit ≠ '\n' := by
  cases lit <;> decide

theorem lines?_text :
    lines? screen.text = some ((List.range Screen.height).map screen.rowText) := by
  have joined : screen.text = String.join
      (((List.range Screen.height).map screen.rowText).map fun line => line ++ "\n") := by
    rw [text, List.map_map]
    rfl
  rw [joined]
  refine lines?_join fun line member => ?_
  obtain ⟨row, -, rfl⟩ := List.mem_map.mp member
  rw [toList_rowText]
  intro lineFeed
  obtain ⟨column, -, written⟩ := List.mem_map.mp lineFeed
  exact pixelChar_ne_lineFeed _ written

theorem pixelChar_inj {left right : Bool} : pixelChar left = pixelChar right ↔ left = right := by
  cases left <;> cases right <;> decide

theorem text_inj {left right : Framebuffer} : left.text = right.text ↔ left = right := by
  refine ⟨fun same => ext_isLit fun pixel => ?_, congrArg _⟩
  have lines := left.lines?_text
  rw [same, lines?_text, Option.some_inj, List.map_inj_left] at lines
  have inRows : pixel.row < Screen.height := Nat.div_lt_of_lt_mul pixel.isLt
  have inColumns : pixel.column < Screen.width := Nat.mod_lt _ (by decide)
  let column : Fin Screen.width := ⟨pixel.column, inColumns⟩
  let row : Fin Screen.height := ⟨pixel.row, inRows⟩
  have place : pixel = Pixel.ofPosition column row := Pixel.ofPosition_eq_iff.mpr ⟨rfl, rfl⟩
  have written := getElem?_toList_rowText left column row
  rw [← lines row (List.mem_range.mpr inRows), getElem?_toList_rowText, ← place, Option.some_inj,
    pixelChar_inj] at written
  exact written.symm

end Framebuffer

/-! ### Memory -/

namespace Machine

section Memory

variable {left right : Machine}

theorem memoryLine_inj {address : Nat} :
    left.memoryLine address = right.memoryLine address ↔
      left.memory.read address = right.memory.read address ∧
        left.memory.read (address + 1) = right.memory.read (address + 1) := by
  rw [memoryLine_eq, memoryLine_eq, String.append_right_inj, Numeral.hexadecimal_inj,
    Word.toNat_ofBytes, Word.toNat_ofBytes, ← UInt8.toNat_inj, ← UInt8.toNat_inj]
  have lowLeft := (left.memory.read (address + 1)).toNat_lt
  have lowRight := (right.memory.read (address + 1)).toNat_lt
  omega

theorem memoryText_inj {count : Nat} :
    left.memoryText count = right.memoryText count ↔
      ∀ offset < 2 * memoryLineCount count,
        left.memory.read (programStart + offset) = right.memory.read (programStart + offset) := by
  have lines : left.memoryText count = right.memoryText count ↔
      left.memoryLines count = right.memoryLines count := by
    constructor
    · intro same
      have read := left.lines?_memoryText count
      rw [same, lines?_memoryText] at read
      exact (Option.some.inj read).symm
    · intro same
      rw [memoryText, memoryText, same]
  rw [lines, memoryLines, memoryLines, List.map_inj_left]
  constructor
  · intro same offset inside
    have line := memoryLine_inj.mp (same (offset / 2) (List.mem_range.mpr (by omega)))
    rcases Nat.mod_two_eq_zero_or_one offset with even | odd
    · rw [show programStart + offset = programStart + 2 * (offset / 2) by omega]
      exact line.1
    · rw [show programStart + offset = programStart + 2 * (offset / 2) + 1 by omega]
      exact line.2
  · intro same position member
    have inside := List.mem_range.mp member
    rw [memoryLine_inj, Nat.add_assoc]
    exact ⟨same _ (by omega), same _ (by omega)⟩

end Memory

/-! ### What the dumps determine -/

/-- Two machines dump their registers alike if and only if all that is dumped is equal: the
program counter, the index, the timers, the registers and the return addresses in use. They show
their screens alike if and only if the screens are equal, a screen being 32 lines of 64
characters with a mark for each lit pixel. A dump of memory has one line for every two bytes
asked for and present, and two of them are alike if and only if the bytes they cover are. -/
theorem dumps_determine_state (left right : Machine) :
    (left.registersText = right.registersText ↔
      left.pc = right.pc ∧ left.stack.depth = right.stack.depth ∧ left.index = right.index ∧
        left.delay = right.delay ∧ left.sound = right.sound ∧
        left.registers = right.registers ∧ left.stack.live = right.stack.live) ∧
    (left.screenText = right.screenText ↔ left.screen = right.screen) ∧
    (∃ lines, lines? left.screenText = some lines ∧ lines.length = 32 ∧
      ∀ row : Fin Screen.height, ∃ line, lines[row.val]? = some line ∧ line.toList.length = 64 ∧
        ∀ column : Fin Screen.width, line.toList[column.val]? =
          some (if left.screen.isLit (Pixel.ofPosition column row) then '#' else '.')) ∧
    ∀ count,
      (∃ lines, lines? (left.memoryText count) = some lines ∧
        lines.length = (min count 3584 + 1) / 2) ∧
      (left.memoryText count = right.memoryText count ↔
        ∀ offset < 2 * ((min count 3584 + 1) / 2),
          left.memory.read (0x200 + offset) = right.memory.read (0x200 + offset)) := by
  refine ⟨registersText_inj, Framebuffer.text_inj,
    ⟨_, left.screen.lines?_text, ?_,
      fun row => ⟨left.screen.rowText row, ?_, ?_, fun column => ?_⟩⟩,
    fun count => ⟨⟨_, left.lines?_memoryText count, ?_⟩, memoryText_inj⟩⟩
  · rw [List.length_map, List.length_range]
    rfl
  · rw [List.getElem?_map, List.getElem?_range row.isLt]
    rfl
  · rw [Framebuffer.toList_rowText, List.length_map, List.length_range]
    rfl
  · exact left.screen.getElem?_toList_rowText column row
  · rw [memoryLines, List.length_map, List.length_range]
    rfl

end Machine

end ChipEight
