/-
This file proves that the listing of a program loses nothing.

Every line of a listing is a row of three columns: an address, a word, and the word in
assembly. Assembly holds blanks and digits of its own, but the two columns before it hold no
blank, so the first three blanks of a line are those between its columns, and no column holds
a line feed. The text therefore falls apart into lines and each line into its columns. The
digits of all the words, one after the other, spell the bytes of the program two digits to a
byte, with a zero behind a last odd byte. Two programs that differ in more than such a zero
have different listings.
-/

import ChipEight.Listing
import ChipEight.Proofs.Mnemonic

namespace ChipEight

/-! ### Lines -/

/-- The lines of a text in which every line is ended by a line feed. -/
def lines? (text : String) : Option (List String) :=
  let pieces := text.toList.splitOn '\n'
  if pieces.getLast? = some [] then some (pieces.dropLast.map String.ofList) else none

theorem splitOn_joined (lines : List String) (whole : ∀ line ∈ lines, '\n' ∉ line.toList) :
    (String.join (lines.map fun line => line ++ "\n")).toList.splitOn '\n' =
      lines.map String.toList ++ [[]] := by
  induction lines with
  | nil => rfl
  | cons line rest previous =>
    have first : '\n' ∉ line.toList := whole line List.mem_cons_self
    have later := previous fun other member => whole other (List.mem_cons_of_mem _ member)
    have joined : (String.join ((line :: rest).map fun line => line ++ "\n")).toList =
        line.toList ++ '\n' :: (String.join (rest.map fun line => line ++ "\n")).toList := by
      simp [String.toList_join]
    rw [joined, List.splitOn_append_cons_self_of_not_mem first, later]
    rfl

/-- Lines that are joined come apart again. -/
theorem lines?_join {lines : List String} (whole : ∀ line ∈ lines, '\n' ∉ line.toList) :
    lines? (String.join (lines.map fun line => line ++ "\n")) = some lines := by
  have back : String.ofList ∘ String.toList = id := funext fun _ => String.ofList_toList
  rw [lines?, splitOn_joined lines whole]
  simp [back]

namespace Listing

/-! ### Columns -/

/-- A line of a listing, taken apart. -/
structure Row where
  address : List Char
  digits : List Char
  assembly : List Char

/-- The columns of a line: two that end at the first blanks, then everything after a third. -/
def Row.ofLine? (line : String) : Option Row :=
  match line.toList.splitOn ' ' with
  | address :: digits :: [] :: assembly => some ⟨address, digits, [' '].intercalate assembly⟩
  | _ => none

def row (entry : Nat × Word) : Row where
  address := ("0x" ++ Numeral.hexadecimal 4 entry.1).toList
  digits := (Numeral.hexadecimal 4 entry.2.toNat).toList
  assembly := entry.2.mnemonic.toList

theorem address_row (entry : Nat × Word) :
    (row entry).address = '0' :: 'x' :: (Numeral.hexadecimal 4 entry.1).toList := by
  simp [row]

theorem not_mem_address {char : Char} (other : Numeral.digitValue? char = none)
    (entry : Nat × Word) : char ∉ (row entry).address := by
  rw [address_row]
  intro member
  rcases List.mem_cons.mp member with rfl | later
  · contradiction
  rcases List.mem_cons.mp later with rfl | digit
  · contradiction
  exact Numeral.not_mem_hexadecimal 4 entry.1 other digit

theorem digits_row (entry : Nat × Word) :
    (row entry).digits = (Numeral.hexadecimal 4 entry.2.toNat).toList := by
  rw [row]

theorem not_mem_digits {char : Char} (other : Numeral.digitValue? char = none)
    (entry : Nat × Word) : char ∉ (row entry).digits := by
  rw [digits_row]
  exact Numeral.not_mem_hexadecimal 4 entry.2.toNat other

theorem toList_line (entry : Nat × Word) :
    (line entry).toList =
      (row entry).address ++ ' ' :: ((row entry).digits ++ ' ' :: ([] ++ ' ' ::
        (row entry).assembly)) := by
  simp [line, row]

/-- A line comes apart into the columns it was made of. -/
theorem ofLine?_line (entry : Nat × Word) : Row.ofLine? (line entry) = some (row entry) := by
  have address : ' ' ∉ (row entry).address := not_mem_address rfl entry
  have digits : ' ' ∉ (row entry).digits := not_mem_digits rfl entry
  -- The blanks of the assembly are split as well, and put back.
  rw [Row.ofLine?, toList_line, List.splitOn_append_cons_self_of_not_mem address,
    List.splitOn_append_cons_self_of_not_mem digits,
    List.splitOn_append_cons_self_of_not_mem List.not_mem_nil]
  simp only [List.intercalate_splitOn]

theorem newline_not_mem_line (entry : Nat × Word) : '\n' ∉ (line entry).toList := by
  have address : '\n' ∉ (row entry).address := not_mem_address rfl entry
  have digits : '\n' ∉ (row entry).digits := not_mem_digits rfl entry
  have assembly : '\n' ∉ (row entry).assembly := newline_not_mem_mnemonic entry.2
  rw [toList_line]
  simp [address, digits, assembly]

theorem lines?_text (program : List UInt8) : lines? (text program) = some (lines program) := by
  rw [text]
  refine lines?_join fun line member => ?_
  obtain ⟨entry, -, rfl⟩ := List.mem_map.mp member
  exact newline_not_mem_line entry

theorem mapM_ofLine?_lines (program : List UInt8) :
    (lines program).mapM Row.ofLine? = some ((instructions program).map row) := by
  unfold lines
  induction instructions program with
  | nil => rfl
  | cons entry rest previous =>
    rw [List.map_cons, List.mapM_cons, ofLine?_line, previous]
    rfl

/-! ### Reading the columns -/

/-- The number in an address column. -/
def readAddress? : List Char → Option Nat
  | '0' :: 'x' :: digits => Numeral.readDigits? 16 digits
  | _ => none

/-- The bytes that digits spell, two to a byte. -/
def readBytes? : List Char → Option (List UInt8)
  | [] => some []
  | [_] => none
  | high :: low :: rest =>
    (Numeral.readDigits? 16 [high, low]).bind fun byte =>
      (readBytes? rest).map (UInt8.ofNat byte :: ·)

theorem readAddress?_row (entry : Nat × Word) :
    readAddress? (row entry).address = some entry.1 := by
  rw [address_row]
  exact Numeral.readDigits?_hexadecimal 4 entry.1

theorem readDigits?_row (entry : Nat × Word) :
    (row entry).digits.length = 4 ∧
      Numeral.readDigits? 16 (row entry).digits = some entry.2.toNat := by
  rw [digits_row]
  exact ⟨Numeral.length_hexadecimal (by decide) entry.2.toNat_lt,
    Numeral.readDigits?_hexadecimal 4 entry.2.toNat⟩

/-- A byte in front that is spelled out is read back. -/
theorem readBytes?_spelled (byte : UInt8) (rest : List Char) :
    readBytes? ((Numeral.hexadecimal 2 byte.toNat).toList ++ rest) =
      (readBytes? rest).map (byte :: ·) := by
  have read := Numeral.readDigits?_hexadecimal 2 byte.toNat
  rw [Numeral.toList_hexadecimal_two byte.toNat_lt] at read ⊢
  rw [List.cons_append, List.cons_append, readBytes?, read, Option.bind_some,
    UInt8.ofNat_toNat]
  rfl

theorem readBytes?_word (high low : UInt8) (rest : List Char) :
    readBytes? ((Numeral.hexadecimal 4 (Word.ofBytes high low).toNat).toList ++ rest) =
      (readBytes? rest).map (high :: low :: ·) := by
  rw [Word.toNat_ofBytes, Numeral.hexadecimal_pair _ low.toNat_lt, String.toList_append,
    List.append_assoc, readBytes?_spelled, readBytes?_spelled, Option.map_map]
  rfl

/-! ### Padding -/

/-- A program with a zero behind a last odd byte. -/
def padded (program : List UInt8) : List UInt8 :=
  if program.length % 2 = 0 then program else program ++ [0]

theorem padded_cons_cons (high low : UInt8) (rest : List UInt8) :
    padded (high :: low :: rest) = high :: low :: padded rest := by
  have parity : (high :: low :: rest).length % 2 = rest.length % 2 := Nat.add_mod_right _ 2
  rw [padded, padded, parity]
  split <;> rfl

theorem words_padded (program : List UInt8) : words (padded program) = words program := by
  fun_induction words program with
  | case1 => rfl
  | case2 single => rfl
  | case3 high low rest previous => rw [padded_cons_cons, words, previous]

/-- The digits of all the words spell the program. -/
theorem readBytes?_words (program : List UInt8) :
    readBytes? ((words program).flatMap fun word => (Numeral.hexadecimal 4 word.toNat).toList) =
      some (padded program) := by
  fun_induction words program with
  | case1 => rfl
  | case2 single => rw [List.flatMap_cons, readBytes?_word]; rfl
  | case3 high low rest previous =>
    rw [List.flatMap_cons, readBytes?_word, previous, padded_cons_cons]
    rfl

theorem map_snd_addressed (address : Nat) (list : List Word) :
    (addressed address list).map Prod.snd = list := by
  induction list generalizing address with
  | nil => rfl
  | cons word rest previous => rw [addressed, List.map_cons, previous]

theorem readBytes?_instructions (program : List UInt8) :
    readBytes? (((instructions program).map row).flatMap Row.digits) = some (padded program) := by
  rw [← readBytes?_words, ← map_snd_addressed programStart (words program), ← instructions]
  simp only [List.flatMap_map, digits_row]

/-! ### The listing -/

/-- Programs that have one listing are equal up to a zero behind a last odd byte. -/
theorem padded_eq_of_text_eq {program other : List UInt8} (same : text program = text other) :
    padded program = padded other := by
  have lines : lines program = lines other := by
    rw [← Option.some_inj, ← lines?_text, ← lines?_text, same]
  have rows : (instructions program).map row = (instructions other).map row := by
    rw [← Option.some_inj, ← mapM_ofLine?_lines, ← mapM_ofLine?_lines, lines]
  rw [← Option.some_inj, ← readBytes?_instructions, ← readBytes?_instructions, rows]

/-- The listing loses nothing. It has a line for every two bytes, each line gives its address, the
four digits of its word and the assembly of the word, and all the digits together spell the program
with a zero behind a last odd byte. Two programs have one listing only if they are equal up to
that zero. -/
theorem listing_loses_nothing (program : List UInt8) :
    (∃ lines rows, lines? (text program) = some lines ∧ lines.mapM Row.ofLine? = some rows ∧
      lines.length = (program.length + 1) / 2 ∧ rows.length = (program.length + 1) / 2 ∧
      (∀ position row, rows[position]? = some row →
        readAddress? row.address = some (0x200 + 2 * position) ∧ row.digits.length = 4 ∧
        ∃ word : Word, Numeral.readDigits? 16 row.digits = some word.toNat ∧
          row.assembly = word.mnemonic.toList) ∧
      readBytes? (rows.flatMap Row.digits) = some (padded program)) ∧
    ∀ other, text program = text other ↔ padded program = padded other := by
  have count : (instructions program).length = (program.length + 1) / 2 := by
    rw [instructions, length_addressed, length_words]
  refine ⟨⟨lines program, (instructions program).map row, lines?_text program,
    mapM_ofLine?_lines program, ?_, ?_, fun position columns found => ?_,
    readBytes?_instructions program⟩, fun other => ⟨padded_eq_of_text_eq, fun same => ?_⟩⟩
  · rw [lines, List.length_map, count]
  · rw [List.length_map, count]
  · rw [List.getElem?_map, instructions, getElem?_addressed, Option.map_map] at found
    obtain ⟨word, -, rfl⟩ := Option.map_eq_some_iff.mp found
    obtain ⟨four, read⟩ := readDigits?_row (programStart + 2 * position, word)
    exact ⟨readAddress?_row _, four, word, read, rfl⟩
  · have words : words program = words other := by
      rw [← words_padded program, same, words_padded]
    rw [text, text, lines, lines, instructions, instructions, words]

/-- A byte left over is listed with a zero. -/
example :
    text [0xA2, 0x0A, 0xF0] = "0x0200 A20A  LD I, 0x20A\n0x0202 F000  DW 0xF000\n" := by
  cbv

end Listing

end ChipEight
