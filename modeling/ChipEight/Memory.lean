/-
This file holds the memory: 4096 bytes, addressed from zero.

Addresses are natural numbers and reading is total: there are zeros beyond the
end. Writing past the end changes nothing. The machine checks every range before
it reads or writes, so neither of these is ever seen; they only keep the
functions here free of side conditions.
-/

namespace ChipEight

def memorySize : Nat := 4096

abbrev Memory := Vector UInt8 memorySize

namespace Memory

def zero : Memory := Vector.replicate memorySize 0

/-- The byte at an address, zero beyond the end. -/
def read (memory : Memory) (address : Nat) : UInt8 := memory[address]?.getD 0

def slice (memory : Memory) (start length : Nat) : List UInt8 :=
  (List.range length).map fun offset => memory.read (start + offset)

/-- The memory after one byte is written at an address. -/
def write (memory : Memory) (address : Nat) (byte : UInt8) : Memory :=
  memory.setIfInBounds address byte

/-- The memory after a run of bytes is written from an address on. -/
def overwrite (memory : Memory) (start : Nat) : List UInt8 → Memory
  | [] => memory
  | byte :: rest => (memory.write start byte).overwrite (start + 1) rest

@[simp] theorem length_slice (memory : Memory) (start length : Nat) :
    (memory.slice start length).length = length := by
  simp [slice]

@[simp] theorem read_zero (address : Nat) : zero.read address = 0 := by
  simp [zero, read, Vector.getElem?_replicate]
  split <;> rfl

theorem read_write_self (memory : Memory) {address : Nat} (byte : UInt8)
    (inside : address < memorySize) :
    (memory.write address byte).read address = byte := by
  simp [read, write, inside]

/-- Writing a byte leaves the other addresses alone. -/
theorem read_write_other (memory : Memory) {written other : Nat} (byte : UInt8)
    (different : written ≠ other) :
    (memory.write written byte).read other = memory.read other := by
  simp [read, write, Vector.getElem?_setIfInBounds_ne different]

/-- Writing a run leaves every address outside it alone. -/
theorem read_overwrite_other (memory : Memory) (start other : Nat) (bytes : List UInt8)
    (outside : other < start ∨ start + bytes.length ≤ other) :
    (memory.overwrite start bytes).read other = memory.read other := by
  induction bytes generalizing memory start with
  | nil => rfl
  | cons byte rest previous =>
    rw [List.length_cons] at outside
    rw [overwrite, previous _ _ (by omega),
      read_write_other memory byte (by omega)]

/-- Writing a run that fits shows at each of its addresses. -/
theorem read_overwrite_self (memory : Memory) (start offset : Nat) (bytes : List UInt8)
    (inside : offset < bytes.length) (fits : start + bytes.length ≤ memorySize) :
    (memory.overwrite start bytes).read (start + offset) = bytes[offset] := by
  induction bytes generalizing memory start offset with
  | nil => exact absurd inside (Nat.not_lt_zero offset)
  | cons byte rest previous =>
    rw [List.length_cons] at fits inside
    cases offset with
    | zero =>
      show ((memory.write start byte).overwrite (start + 1) rest).read start = byte
      rw [read_overwrite_other _ _ _ _ (by omega),
        read_write_self memory byte (by omega)]
    | succ offset =>
      rw [overwrite, show start + (offset + 1) = start + 1 + offset by omega,
        previous _ _ _ (by omega) (by omega)]
      rfl

theorem slice_overwrite_self (memory : Memory) (start : Nat) (bytes : List UInt8)
    (fits : start + bytes.length ≤ memorySize) :
    (memory.overwrite start bytes).slice start bytes.length = bytes := by
  refine List.ext_getElem (length_slice _ _ _) fun offset _ inside => ?_
  simpa [slice] using read_overwrite_self memory start offset bytes inside fits

/-- Writing a run leaves the slices outside it alone. -/
theorem slice_overwrite_other (memory : Memory) (start : Nat) (bytes : List UInt8)
    {other length : Nat} (outside : other + length ≤ start ∨ start + bytes.length ≤ other) :
    (memory.overwrite start bytes).slice other length = memory.slice other length := by
  refine List.map_congr_left fun offset member => ?_
  have within := List.mem_range.mp member
  exact read_overwrite_other _ _ _ _ (by omega)

/-- Memories are equal if they hold the same byte at every address. -/
theorem ext_read {left right : Memory}
    (same : ∀ address, address < memorySize → left.read address = right.read address) :
    left = right := by
  refine Vector.ext fun address inside => ?_
  simpa [read, inside] using same address inside

/-- Writing a run that fits a second time changes nothing. -/
theorem overwrite_overwrite (memory : Memory) (start : Nat) (bytes : List UInt8)
    (fits : start + bytes.length ≤ memorySize) :
    (memory.overwrite start bytes).overwrite start bytes = memory.overwrite start bytes := by
  refine ext_read fun address _ => ?_
  by_cases outside : address < start ∨ start + bytes.length ≤ address
  · rw [read_overwrite_other _ _ _ _ outside]
  · obtain ⟨offset, rfl⟩ := Nat.exists_eq_add_of_le (show start ≤ address by omega)
    have within : offset < bytes.length := by omega
    rw [read_overwrite_self _ _ _ _ within fits, read_overwrite_self _ _ _ _ within fits]

end Memory

end ChipEight
