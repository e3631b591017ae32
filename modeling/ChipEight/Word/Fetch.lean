/-
This file reads instruction words out of bytes.

A word needs two bytes, so the last byte alone is no word. The position is a
natural number of any size and is never reduced, so a position far beyond the
end fails like one just beyond it.
-/

import ChipEight.Error

namespace ChipEight.Word

/-- The word at a position, or the out-of-bounds error when it does not lie wholly within
the bytes. -/
def fetch (bytes : Array UInt8) (position : Nat) : Except Error Word :=
  match bytes[position]?, bytes[position + 1]? with
  | some high, some low => .ok (ofBytes high low)
  | _, _ => .error (.outOfBounds .fetch position position)

/-- A fetch succeeds on exactly the positions that have a byte after them. -/
theorem fetch_eq_ok_iff (bytes : Array UInt8) (position : Nat) :
    (∃ word, fetch bytes position = .ok word) ↔ position + 1 < bytes.size := by
  by_cases inside : position + 1 < bytes.size
  · have first : position < bytes.size := by omega
    simp [fetch, inside, first]
  · simp [fetch, inside]

end ChipEight.Word
