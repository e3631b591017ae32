/-
This file says what a settings file with one setting to a line is, and what is assumed of the
reader that it is read with.

Such a file has no more than names and decimal numbers in it. The assumption is that it is read
as what it says: a line is an entry, a number of 64 bits is itself, any other number is none, and
a name that comes again is refused. Nothing is assumed of files that look different, nor of what
becomes of the entries.
-/

import ChipEight.Settings.File
import Mathlib.Algebra.Ring.Int.Defs

namespace ChipEight.Settings

theorem Field.ofName?_name (field : Field) : Field.ofName? field.name = some field := by
  cases field <;> decide

theorem Field.name_injective : Function.Injective name := fun field other same => by
  rw [← Option.some.injEq, ← ofName?_name field, ← ofName?_name other, same]

/-- A line of a file: a setting and a number for it. -/
abbrev Line := Field × Int

def Line.text (line : Line) : String := line.1.name ++ ": " ++ toString line.2

/-- The text of a file with a line for each setting it gives. There may be a line break behind
the last line. -/
def fileText (lines : List Line) (ended : Bool) : String :=
  "\n".intercalate (lines.map Line.text) ++ if ended then "\n" else ""

example : fileText [(.seed, 7), (.timerFrequency, -1)] false = "seed: 7\ntimer_frequency: -1" := by
  cbv

/-- Whether a number is one that a setting can have. -/
def Fits (number : Int) : Prop := 0 ≤ number ∧ number < 2 ^ 64

/-- What is assumed of a reader, given the value that a plain scalar is for it. -/
structure Reader.ReadsLines (reader : Reader) (plain : String → reader.Value) : Prop where
  /-- A block mapping of plain scalars has an entry for each line, and without lines it is
  empty. -/
  entries : ∀ lines ended, reader.entries (fileText lines ended) =
    .ok (lines.map fun line => (line.1.name, plain (toString line.2)))
  /-- A setting may be given once, -/
  allows : ∀ given (field : Field), field.name ∉ given → reader.allow given field.name = .ok ()
  /-- but not twice. -/
  repeats : ∀ given (field : Field), field.name ∈ given →
    ∃ words, reader.allow given field.name = .error words
  /-- An unsigned number of 64 bits is read as itself, -/
  unsigned : ∀ number, Fits number →
    reader.unsigned (plain (toString number)) = .ok (UInt64.ofNat number.toNat)
  /-- and no other number is one. -/
  outside : ∀ number, ¬ Fits number →
    ∃ words, reader.unsigned (plain (toString number)) = .error words
  /-- Where a number may be left out, one that is there is read just so. -/
  optional : ∀ number : Int, reader.optional (plain (toString number)) =
    (reader.unsigned (plain (toString number))).map some

end ChipEight.Settings
