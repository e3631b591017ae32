/-
This file proves that a program reads the same everywhere.

The listing reads a program from its bytes, two at a time, with a zero behind a last odd byte.
The machine and the memory dump read it from memory, where there are zeros behind a program.
So at every address of the program all three find one word. A word read from the bytes
themselves, without zeros behind them, is the listed one too, except that a last odd byte alone
is none. The position of a word never wraps around: its second byte would have to lie at the
start of bytes that fill the whole range of positions.
-/

import ChipEight.Machine.Dump
import ChipEight.Proofs.Listing
import ChipEight.Proofs.Loading

namespace ChipEight

open Listing

/-! ### Words of bytes -/

namespace Word

/-- The word at a position of 64 bits, where the position of the second byte wraps around. -/
def fetchWrapping (bytes : Array UInt8) (position : UInt64) : Except Error Word :=
  match bytes[position.toNat]?, bytes[(position + 1).toNat]? with
  | some high, some low => .ok (ofBytes high low)
  | _, _ => .error (.outOfBounds .fetch position.toNat position.toNat)

/-- Wrapping around never shows: the one position that wraps has no byte. -/
theorem fetchWrapping_eq {bytes : Array UInt8} (addressable : bytes.size < UInt64.size)
    (position : UInt64) : fetchWrapping bytes position = fetch bytes position.toNat := by
  have next : (position + 1).toNat = (position.toNat + 1) % UInt64.size :=
    UInt64.toNat_add position 1
  have bound : position.toNat < UInt64.size := position.toNat_lt
  -- Only the largest position wraps around, and it has no byte of its own to begin with.
  by_cases last : position.toNat + 1 = UInt64.size
  · have beyond : bytes.size ≤ position.toNat := by omega
    have none : bytes[position.toNat]? = none := Array.getElem?_eq_none beyond
    simp only [fetchWrapping, fetch, none]
  · rw [Nat.mod_eq_of_lt (by omega)] at next
    rw [fetchWrapping, next]
    rfl

section Bytes

variable (bytes : List UInt8) (position : Nat)

theorem fetch_of_inside (inside : position + 1 < bytes.length) :
    fetch bytes.toArray position =
      .ok (ofBytes (bytes[position]?.getD 0) (bytes[position + 1]?.getD 0)) := by
  have first : position < bytes.length := by omega
  simp [fetch, first, inside]

theorem fetch_of_outside (outside : bytes.length ≤ position + 1) :
    fetch bytes.toArray position = .error (.outOfBounds .fetch position position) := by
  simp [fetch, outside]

theorem fetch_eq_ok_iff_bytes (word : Word) :
    fetch bytes.toArray position = .ok word ↔
      ∃ high low, bytes[position]? = some high ∧ bytes[position + 1]? = some low ∧
        word.toNat = 256 * high.toNat + low.toNat := by
  by_cases inside : position + 1 < bytes.length
  · have first : position < bytes.length := by omega
    rw [fetch_of_inside bytes position inside, List.getElem?_eq_getElem first,
      List.getElem?_eq_getElem inside]
    simp only [Except.ok.injEq, Option.getD_some, Option.some_inj, ← UInt16.toNat_inj,
      toNat_ofBytes]
    constructor
    · intro same
      exact ⟨_, _, rfl, rfl, same.symm⟩
    · rintro ⟨high, low, rfl, rfl, same⟩
      exact same.symm
  · rw [fetch_of_outside bytes position (by omega)]
    constructor
    · nofun
    · rintro ⟨high, low, -, found, -⟩
      exact absurd (List.getElem?_eq_some_iff.mp found).1 inside

end Bytes

end Word

/-! ### A loaded program -/

namespace Machine

section Loaded

variable (machine : Machine) {program : List UInt8} (fits : program.length ≤ maximumProgramSize)
include fits

/-- Memory holds a loaded program from where programs start, and zeros behind it. -/
theorem read_loaded (offset : Nat) :
    (machine.loaded program).memory.read (programStart + offset) = program[offset]?.getD 0 := by
  by_cases inside : offset < program.length
  · have room : programStart + program.length ≤ memorySize := Nat.add_le_add_left fits programStart
    rw [memory_loaded, Memory.read_overwrite_self _ _ _ _ inside room,
      List.getElem?_eq_getElem inside]
    rfl
  · have zero := (machine.isFresh_loaded fits).rest (programStart + offset)
      (Nat.add_le_add_left (Nat.not_lt.mp inside) programStart)
    rw [zero, List.getElem?_eq_none (Nat.not_lt.mp inside)]
    rfl

/-- The word that the memory holds at the place of a listed word is the listed one. -/
theorem fetch_loaded {position : Nat} (inside : position < (program.length + 1) / 2) :
    Word.fetch (machine.loaded program).memory.toArray (programStart + 2 * position) =
      .ok (Word.ofBytes (program[2 * position]?.getD 0) (program[2 * position + 1]?.getD 0)) := by
  have low : ((machine.loaded program).goTo (programStart + 2 * position)).pc ≤ 0xFFE := by
    show programStart + 2 * position ≤ 0xFFE
    unfold maximumProgramSize at fits
    unfold programStart
    omega
  have here := ((machine.loaded program).goTo (programStart + 2 * position)).fetch_eq
  rw [if_pos low] at here
  refine here.trans (congrArg Except.ok ?_)
  rw [← machine.read_loaded fits, ← machine.read_loaded fits]
  rfl

/-- A dump of as many bytes as the program has, line by line. -/
theorem length_memoryLines_loaded :
    ((machine.loaded program).memoryLines program.length).length = (program.length + 1) / 2 := by
  have whole : min program.length (memorySize - programStart) = program.length :=
    Nat.min_eq_left fits
  rw [memoryLines, List.length_map, List.length_range, memoryLineCount, whole]

theorem getElem?_memoryLines_loaded {position : Nat}
    (inside : position < (program.length + 1) / 2) :
    ((machine.loaded program).memoryLines program.length)[position]? =
      some ((machine.loaded program).memoryLine (programStart + 2 * position)) := by
  have count := machine.length_memoryLines_loaded fits
  rw [memoryLines, List.length_map, List.length_range] at count
  rw [memoryLines, List.getElem?_map, List.getElem?_range (by omega)]
  rfl

end Loaded

/-- A line of a dump is an address and the word there. -/
theorem memoryLine_eq (machine : Machine) (address : Nat) :
    machine.memoryLine address =
      Numeral.hexadecimal 4 address ++ ": " ++
        Numeral.hexadecimal 4 (Word.ofBytes (machine.memory.read address)
          (machine.memory.read (address + 1))).toNat := by
  rw [Word.toNat_ofBytes, Numeral.hexadecimal_pair _ (UInt8.toNat_lt _), memoryLine,
    String.append_assoc]

theorem lines?_memoryText (machine : Machine) (count : Nat) :
    lines? (machine.memoryText count) = some (machine.memoryLines count) := by
  rw [memoryText]
  refine lines?_join fun line member => ?_
  obtain ⟨position, -, rfl⟩ := List.mem_map.mp member
  have number (width value : Nat) : '\n' ∉ (Numeral.hexadecimal width value).toList :=
    Numeral.not_mem_hexadecimal width value rfl
  simp [memoryLine, number]

end Machine

/-! ### The readers agree -/

/-- The word listed at a place of a program. -/
theorem getElem?_instructions (program : List UInt8) {position : Nat}
    (inside : position < (program.length + 1) / 2) :
    (instructions program)[position]? =
      some (programStart + 2 * position,
        Word.ofBytes (program[2 * position]?.getD 0) (program[2 * position + 1]?.getD 0)) := by
  rw [instructions, getElem?_addressed, getElem?_words program inside]
  rfl

/-- The listing, the machine and the memory dump read one program. A loaded program has one word
for every two bytes, and at each of its addresses the listing, the memory and the line of the dump
show the same word. Read from its bytes alone, a program has a word at exactly the positions that
have a byte behind them, however large the position is, and it is the listed one. -/
theorem readers_agree (machine : Machine) (program : List UInt8) :
    (instructions program).length = (program.length + 1) / 2 ∧
    (program.length ≤ 3584 →
      let outcome := machine.load program
      outcome.result = .ok () ∧
      ∃ lines, lines? (outcome.machine.memoryText program.length) = some lines ∧
        lines.length = (program.length + 1) / 2 ∧
        ∀ position, position < (program.length + 1) / 2 → ∃ word,
          (instructions program)[position]? = some (0x200 + 2 * position, word) ∧
          Word.fetch outcome.machine.memory.toArray (0x200 + 2 * position) = .ok word ∧
          lines[position]? = some
            (Numeral.hexadecimal 4 (0x200 + 2 * position) ++ ": " ++
              Numeral.hexadecimal 4 word.toNat)) ∧
    (∀ cursor,
      ((∃ word, Word.fetch program.toArray cursor = .ok word) ↔ cursor + 1 < program.length) ∧
      ∀ word, Word.fetch program.toArray cursor = .ok word ↔
        ∃ high low, program[cursor]? = some high ∧ program[cursor + 1]? = some low ∧
          word.toNat = 256 * high.toNat + low.toNat) ∧
    (program.length < UInt64.size → ∀ cursor : UInt64,
      Word.fetchWrapping program.toArray cursor = Word.fetch program.toArray cursor.toNat) ∧
    ∀ position address word, (instructions program)[position]? = some (address, word) →
      Word.fetch program.toArray (2 * position) =
        if 2 * position + 1 < program.length then .ok word
        else .error (.outOfBounds .fetch (2 * position) (2 * position)) := by
  have count : (instructions program).length = (program.length + 1) / 2 := by
    rw [instructions, length_addressed, length_words]
  refine ⟨count, fun fits => ?_, fun cursor => ⟨?_, Word.fetch_eq_ok_iff_bytes program cursor⟩,
    fun addressable cursor => Word.fetchWrapping_eq addressable cursor,
    fun position address word listed => ?_⟩
  · have succeeds : (Machine.Command.load program).reloads = true := decide_eq_true fits
    rw [Machine.load_of_reloads succeeds]
    refine ⟨rfl, _, Machine.lines?_memoryText _ _, machine.length_memoryLines_loaded fits,
      fun position inside => ⟨_, getElem?_instructions program inside,
        machine.fetch_loaded fits inside, ?_⟩⟩
    rw [machine.getElem?_memoryLines_loaded fits inside, Machine.memoryLine_eq, Nat.add_assoc,
      machine.read_loaded fits, machine.read_loaded fits]
    rfl
  · exact (Word.fetch_eq_ok_iff program.toArray cursor).trans (by rw [List.size_toArray])
  · have inside : position < (program.length + 1) / 2 := by
      rw [← count]
      exact (List.getElem?_eq_some_iff.mp listed).1
    rw [getElem?_instructions program inside, Option.some_inj, Prod.mk.injEq] at listed
    obtain ⟨-, rfl⟩ := listed
    split
    case isTrue whole => exact Word.fetch_of_inside program _ whole
    case isFalse odd => exact Word.fetch_of_outside program _ (by omega)

/-- Three bytes make two words. The second has the zero behind the program for its low byte in
memory, and cannot be read without it. -/
theorem readers_agree_odd :
    let program : List UInt8 := [0xA2, 0x0A, 0xF0]
    program.length ≤ 3584 ∧ program.length < UInt64.size ∧
    (∃ word, (instructions program)[1]? = some (0x202, word) ∧
      Word.fetch (Machine.abandoned.load program).machine.memory.toArray 0x202 = .ok word) ∧
    Word.fetchWrapping program.toArray (-1) = Word.fetch program.toArray (-1 : UInt64).toNat ∧
    Word.fetch program.toArray 2 = .error (.outOfBounds .fetch 2 2) := by
  intro program
  have fits : program.length ≤ 3584 := by decide
  have addressable : program.length < UInt64.size := by decide
  obtain ⟨-, loaded, -, wrapping, listed⟩ := readers_agree Machine.abandoned program
  obtain ⟨-, lines, -, -, same⟩ := loaded fits
  obtain ⟨word, entry, fetched, -⟩ := same 1 (by decide)
  exact ⟨fits, addressable, ⟨word, entry, fetched⟩, wrapping addressable (-1),
    listed 1 0x202 word entry⟩

end ChipEight
