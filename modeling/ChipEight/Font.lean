/-
This file holds the built-in font: a picture of each hexadecimal digit, five rows
high. A glyph takes five bytes, one for each row, with the leftmost pixel in the
high bit.
-/

namespace ChipEight.Font

/-- The height of a glyph in rows, which is its size in bytes. -/
def glyphHeight : Nat := 5

def glyphs : List (List UInt8) :=
  [ [0xF0, 0x90, 0x90, 0x90, 0xF0],
    [0x20, 0x60, 0x20, 0x20, 0x70],
    [0xF0, 0x10, 0xF0, 0x80, 0xF0],
    [0xF0, 0x10, 0xF0, 0x10, 0xF0],
    [0x90, 0x90, 0xF0, 0x10, 0x10],
    [0xF0, 0x80, 0xF0, 0x10, 0xF0],
    [0xF0, 0x80, 0xF0, 0x90, 0xF0],
    [0xF0, 0x10, 0x20, 0x40, 0x40],
    [0xF0, 0x90, 0xF0, 0x90, 0xF0],
    [0xF0, 0x90, 0xF0, 0x10, 0xF0],
    [0xF0, 0x90, 0xF0, 0x90, 0x90],
    [0xE0, 0x90, 0xE0, 0x90, 0xE0],
    [0xF0, 0x80, 0x80, 0x80, 0xF0],
    [0xE0, 0x90, 0x90, 0x90, 0xE0],
    [0xF0, 0x80, 0xF0, 0x80, 0xF0],
    [0xF0, 0x80, 0xF0, 0x80, 0x80] ]

def bytes : List UInt8 := glyphs.flatten

theorem length_bytes : bytes.length = 80 := rfl

end ChipEight.Font
