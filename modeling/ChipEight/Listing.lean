/-
This file holds the listing of a program: every word of it with its address and
its assembly, one line each.

The program is read two bytes at a time from the address programs are loaded at.
If a single byte is left over it is read with a zero after it, which is what
memory holds behind a loaded program. Addresses are not bounded by the memory:
any byte string has a listing, and the address column widens as it has to.
-/

import ChipEight.Instruction

namespace ChipEight

def programStart : Nat := 512

namespace Listing

/-- The words of a byte string, a last odd byte being read with a zero after it. -/
def words : List UInt8 → List Word
  | [] => []
  | [single] => [Word.ofBytes single 0]
  | high :: low :: rest => Word.ofBytes high low :: words rest

/-- Words paired with addresses that go up by two from the given one. -/
def addressed (address : Nat) : List Word → List (Nat × Word)
  | [] => []
  | word :: rest => (address, word) :: addressed (address + 2) rest

/-- The address and the word of every instruction of a program. -/
def instructions (program : List UInt8) : List (Nat × Word) :=
  addressed programStart (words program)

def line (entry : Nat × Word) : String :=
  "0x" ++ Numeral.hexadecimal 4 entry.1 ++ " " ++ Numeral.hexadecimal 4 entry.2.toNat
    ++ "  " ++ entry.2.mnemonic

def lines (program : List UInt8) : List String := (instructions program).map line

/-- The listing of a program, each line ended by a line feed. -/
def text (program : List UInt8) : String :=
  String.join ((lines program).map fun line => line ++ "\n")

/-- There is one word for every two bytes, and one for a byte left over. -/
theorem length_words (program : List UInt8) :
    (words program).length = (program.length + 1) / 2 := by
  fun_induction words program with
  | case1 => rfl
  | case2 single => simp
  | case3 high low rest previous =>
    simp only [List.length_cons, previous]
    omega

@[simp] theorem length_addressed (address : Nat) (list : List Word) :
    (addressed address list).length = list.length := by
  induction list generalizing address with
  | nil => rfl
  | cons word rest previous => simp [addressed, previous]

theorem getElem?_addressed (address position : Nat) (list : List Word) :
    (addressed address list)[position]? =
      list[position]?.map fun word => (address + 2 * position, word) := by
  induction list generalizing address position with
  | nil => rfl
  | cons word rest previous =>
    cases position with
    | zero => rfl
    | succ position =>
      rw [addressed, List.getElem?_cons_succ, List.getElem?_cons_succ, previous,
        show address + 2 + 2 * position = address + 2 * (position + 1) by omega]

/-- A word is made of the two bytes at its place, a byte that is missing being zero. -/
theorem getElem?_words (program : List UInt8) {position : Nat}
    (inside : position < (program.length + 1) / 2) :
    (words program)[position]? =
      some (Word.ofBytes (program[2 * position]?.getD 0) (program[2 * position + 1]?.getD 0)) := by
  fun_induction words program generalizing position with
  | case1 => contradiction
  | case2 single =>
    obtain rfl : position = 0 := by simpa using inside
    rfl
  | case3 high low rest previous =>
    cases position with
    | zero => rfl
    | succ position =>
      rw [List.length_cons, List.length_cons] at inside
      exact previous (by omega)

end Listing

end ChipEight
