/-
This file holds the screen: 64 by 32 pixels, each on or off, and how sprites are
drawn on it.

The pixels form one line of 2048, row after row. A sprite is eight pixels wide,
one byte for each row with the leftmost pixel in the high bit. A pixel of a
sprite that would fall off the right edge lands on the next row, and one that
would fall off the bottom lands at the top, because positions are reduced along
the whole line and not by row and column. Drawing inverts pixels one after the
other and remembers whether it switched any of them off.
-/

namespace ChipEight

namespace Screen

def width : Nat := 64

def height : Nat := 32

def size : Nat := 2048

end Screen

/-- The position of a pixel, counted row after row from the top left. -/
abbrev Pixel := Fin Screen.size

namespace Pixel

def column (pixel : Pixel) : Nat := pixel.val % Screen.width

def row (pixel : Pixel) : Nat := pixel.val / Screen.width

/-- The pixel at a column and row of any size, reduced along the whole screen. -/
def wrap (column row : Nat) : Pixel :=
  ⟨(column + row * Screen.width) % Screen.size, Nat.mod_lt _ (by decide)⟩

end Pixel

/-- The lit pixels of a screen. -/
abbrev Framebuffer := Vector Bool Screen.size

namespace Framebuffer

def blank : Framebuffer := Vector.replicate Screen.size false

def isLit (screen : Framebuffer) (pixel : Pixel) : Bool := screen[pixel]

def toggle (screen : Framebuffer) (pixel : Pixel) : Framebuffer :=
  screen.set pixel (!screen.isLit pixel)

/-- A pixel that is inverted is the opposite of what it was. -/
@[simp] theorem isLit_toggle_self (screen : Framebuffer) (pixel : Pixel) :
    (screen.toggle pixel).isLit pixel = !screen.isLit pixel := by
  simp [isLit, toggle]

theorem isLit_toggle_other (screen : Framebuffer) {toggled other : Pixel}
    (different : other ≠ toggled) :
    (screen.toggle toggled).isLit other = screen.isLit other := by
  have values : (toggled : Nat) ≠ (other : Nat) := fun same => different (Fin.ext same.symm)
  simp [isLit, toggle, Vector.getElem_set_ne, values]

/-! ### Sprites -/

/-- Whether a row of a sprite has a pixel in a column, the leftmost column being the high bit. -/
def spriteBit (row : UInt8) (column : Nat) : Bool := row.toNat.testBit (7 - column)

/-- The pixels that one row of a sprite inverts, from left to right. -/
def spriteRow (x y : Nat) (row : UInt8) : List Pixel :=
  ((List.range 8).filter (spriteBit row)).map fun column => Pixel.wrap (x + column) y

/-- The pixels that a sprite inverts, row after row. -/
def spritePixels (x y : Nat) : List UInt8 → List Pixel
  | [] => []
  | row :: rest => spriteRow x y row ++ spritePixels x (y + 1) rest

/-- A screen in the course of drawing, with whether a pixel was switched off so far. -/
structure Drawing where
  screen : Framebuffer
  erased : Bool

/-- Inverting the next pixel, which erases if that pixel is on. -/
def Drawing.step (drawing : Drawing) (pixel : Pixel) : Drawing :=
  let lit := drawing.screen.isLit pixel
  ⟨drawing.screen.toggle pixel, drawing.erased || lit⟩

def invert (screen : Framebuffer) (pixels : List Pixel) : Drawing :=
  pixels.foldl Drawing.step ⟨screen, false⟩

/-- Drawing a sprite with its top left pixel at a column and row. -/
def draw (screen : Framebuffer) (x y : Nat) (rows : List UInt8) : Drawing :=
  screen.invert (spritePixels x y rows)

/-! ### Output -/

def pixels : List Pixel := List.finRange Screen.size

/-- The writes that show a screen on a display that only sets single pixels: column, row and
whether the pixel is on, in order. -/
def pixelWrites (screen : Framebuffer) : List (Nat × Nat × Bool) :=
  pixels.map fun pixel => (pixel.column, pixel.row, screen.isLit pixel)

def pixelChar (lit : Bool) : Char := if lit then '#' else '.'

def rowText (screen : Framebuffer) (row : Nat) : String :=
  String.ofList ((List.range Screen.width).map fun column =>
    pixelChar (screen.isLit (Pixel.wrap column row)))

def text (screen : Framebuffer) : String :=
  String.join ((List.range Screen.height).map fun row => screen.rowText row ++ "\n")

end Framebuffer

end ChipEight
