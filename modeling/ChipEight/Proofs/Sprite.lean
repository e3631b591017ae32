/-
This file proves that sprites are drawn exactly.

Drawing inverts pixels one after the other, so a pixel ends up inverted if it comes up an odd
number of times. The pixels of one sprite are all different, although they wrap around the screen:
a sprite spans less than the whole of it. So each pixel of the sprite is inverted, every other
stays, and the flag tells whether one of them was lit before the first of them was touched. The
flag is cleared before the place is read, which is why the register it is in counts as zero there.
-/

import ChipEight.Proofs.Frame
import Mathlib.Data.List.Nodup

namespace ChipEight

namespace Framebuffer

variable (screen : Framebuffer) {pixels : List Pixel}

/-! ### Inverting pixels -/

/-- Screens are equal if the same pixels are lit. -/
theorem ext_isLit {left right : Framebuffer}
    (same : ∀ pixel, left.isLit pixel = right.isLit pixel) : left = right :=
  Vector.ext fun position inside => same ⟨position, inside⟩

theorem isLit_blank (pixel : Pixel) : blank.isLit pixel = false := by
  simp [isLit, blank]

/-- A pixel is inverted once for each time it comes up. -/
theorem isLit_foldl_step (drawing : Drawing) (pixels : List Pixel) (pixel : Pixel) :
    (pixels.foldl Drawing.step drawing).screen.isLit pixel =
      (drawing.screen.isLit pixel ^^ decide (pixels.count pixel % 2 = 1)) := by
  induction pixels generalizing drawing with
  | nil => simp
  | cons first rest previous =>
    have odd : decide ((rest.count pixel + 1) % 2 = 1) = !decide (rest.count pixel % 2 = 1) := by
      rw [← decide_not]
      exact decide_eq_decide.mpr (by omega)
    rw [List.foldl_cons, previous, Drawing.step]
    by_cases same : pixel = first
    · rw [same, isLit_toggle_self, List.count_cons_self, ← same, odd]
      cases drawing.screen.isLit pixel <;> simp
    · rw [isLit_toggle_other _ same, List.count_cons_of_ne (Ne.symm same)]

theorem isLit_invert (pixels : List Pixel) (pixel : Pixel) :
    (screen.invert pixels).screen.isLit pixel =
      (screen.isLit pixel ^^ decide (pixels.count pixel % 2 = 1)) :=
  isLit_foldl_step _ _ _

/-- Of pixels that are all different, each is inverted. -/
theorem isLit_invert_ne_iff (different : pixels.Nodup) (pixel : Pixel) :
    (screen.invert pixels).screen.isLit pixel ≠ screen.isLit pixel ↔ pixel ∈ pixels := by
  have once : pixels.count pixel % 2 = 1 ↔ pixel ∈ pixels := by
    rw [different.count]
    split <;> simp_all
  rw [isLit_invert, ← once]
  cases screen.isLit pixel <;> simp

/-- Inverting pixels that are all different erases if one of them was lit at first. -/
theorem erased_invert (different : pixels.Nodup) :
    (screen.invert pixels).erased = pixels.any screen.isLit := by
  have erased (drawing : Drawing) :
      (pixels.foldl Drawing.step drawing).erased =
        (drawing.erased || pixels.any drawing.screen.isLit) := by
    induction pixels generalizing drawing with
    | nil => simp
    | cons first rest previous =>
      obtain ⟨absent, others⟩ := List.nodup_cons.mp different
      have untouched : rest.any (drawing.screen.toggle first).isLit =
          rest.any drawing.screen.isLit := by
        rw [Bool.eq_iff_iff, List.any_eq_true, List.any_eq_true]
        refine exists_congr fun pixel => and_congr_right fun member => ?_
        have other : pixel ≠ first := fun same => absent (same ▸ member)
        rw [isLit_toggle_other _ other]
      rw [List.foldl_cons, previous others, Drawing.step, untouched, List.any_cons, Bool.or_assoc]
  exact (erased _).trans (Bool.false_or _)

/-! ### The pixels of a sprite -/

section

variable {x y : Nat} {rows : List UInt8}

theorem mem_spriteRow {row : UInt8} {pixel : Pixel} :
    pixel ∈ spriteRow x y row ↔
      ∃ column < 8, spriteBit row column = true ∧ pixel = Pixel.wrap (x + column) y := by
  simp only [spriteRow, List.mem_map, List.mem_filter, List.mem_range, and_assoc, eq_comm]

/-- The pixels of a sprite are those for which a bit is set in one of its rows. -/
theorem mem_spritePixels {pixel : Pixel} :
    pixel ∈ spritePixels x y rows ↔
      ∃ row bits, rows[row]? = some bits ∧ ∃ column < 8,
        spriteBit bits column = true ∧ pixel = Pixel.wrap (x + column) (y + row) := by
  induction rows generalizing y with
  | nil => simp [spritePixels]
  | cons first rest previous =>
    rw [spritePixels, List.mem_append, mem_spriteRow, previous]
    constructor
    · rintro (here | ⟨row, bits, found, later⟩)
      · exact ⟨0, first, rfl, here⟩
      · exact ⟨row + 1, bits, found, by rwa [Nat.add_right_comm, Nat.add_assoc] at later⟩
    · rintro ⟨row | row, bits, found, inside⟩
      · obtain rfl := Option.some.inj found
        exact .inl inside
      · exact .inr ⟨row, bits, found, by rwa [Nat.add_right_comm, Nat.add_assoc]⟩

theorem val_wrap (column row : Nat) :
    (Pixel.wrap column row).val = (column + 64 * row) % 2048 := by
  rw [Nat.mul_comm]
  rfl

/-- Places of a sprite, which has eight columns and at most as many rows as the screen, do not
meet when they wrap around. -/
theorem eq_of_wrap_eq {row column row' column' : Nat} (inColumns : column < 8)
    (inColumns' : column' < 8) (inRows : row < 32) (inRows' : row' < 32)
    (same : Pixel.wrap (x + column) (y + row) = Pixel.wrap (x + column') (y + row')) :
    row = row' ∧ column = column' := by
  have values := congrArg Fin.val same
  rw [val_wrap, val_wrap] at values
  -- Two places of a sprite are at most 7 columns and 31 rows apart, and 7 + 64 * 31 is below 2048.
  omega

/-- The pixels of a sprite are all different. -/
theorem nodup_spritePixels (low : rows.length ≤ 32) : (spritePixels x y rows).Nodup := by
  induction rows generalizing y with
  | nil => exact .nil
  | cons first rest previous =>
    rw [List.length_cons] at low
    have row : (spriteRow x y first).Nodup := by
      refine (List.nodup_range.filter _).map_on fun column member column' member' same => ?_
      have inside := List.mem_range.mp (List.mem_filter.mp member).1
      have inside' := List.mem_range.mp (List.mem_filter.mp member').1
      exact (@eq_of_wrap_eq x y 0 _ 0 _ inside inside' (by decide) (by decide) same).2
    refine List.nodup_append'.mpr ⟨row, previous (by omega), fun pixel here later => ?_⟩
    obtain ⟨column, inside, -, rfl⟩ := mem_spriteRow.mp here
    obtain ⟨below, bits, found, column', inside', -, same⟩ := mem_spritePixels.mp later
    have short : below < rest.length := (List.getElem?_eq_some_iff.mp found).1
    rw [Nat.add_assoc] at same
    have rows := (@eq_of_wrap_eq x y 0 _ _ _ inside inside' (by decide) (by omega) same).1
    omega

/-- Places that come to the same along the whole screen are those of one sprite. -/
theorem spritePixels_congr {x' y' : Nat} (same : (x + 64 * y) % 2048 = (x' + 64 * y') % 2048) :
    spritePixels x y rows = spritePixels x' y' rows := by
  induction rows generalizing y y' with
  | nil => rfl
  | cons first rest previous =>
    have wrapped (column : Nat) : Pixel.wrap (x + column) y = Pixel.wrap (x' + column) y' := by
      refine Fin.ext ?_
      rw [val_wrap, val_wrap]
      omega
    have row : spriteRow x y first = spriteRow x' y' first :=
      List.map_congr_left fun column _ => wrapped column
    have below : (x + 64 * (y + 1)) % 2048 = (x' + 64 * (y' + 1)) % 2048 := by omega
    rw [spritePixels, spritePixels, row, previous below]

end

end Framebuffer

namespace Machine

variable {machine : Machine} {word : Word}

/-! ### What a word draws -/

/-- A machine is about to draw: it runs, its next word says so, and the rows of the sprite lie in
memory. -/
structure Draws (machine : Machine) (word : Word) : Prop where
  running : machine.halted = false
  awake : machine.awaiting = none
  fetched : machine.fetch = .ok word
  fits : word.fits "DXYN" = true
  inside : machine.index.toNat + word.n ≤ 4096

/-- The coordinate that a register gives, which is zero for the flag. -/
def coordinate (machine : Machine) (register : Register) : Nat :=
  if register = Register.flag then 0 else (machine.registers.read register).toNat

/-- Whether a bit of the sprite that a word draws falls on a pixel. -/
def Covers (machine : Machine) (word : Word) (pixel : Pixel) : Prop :=
  ∃ row < word.n.val, ∃ column < 8,
    (machine.memory.read (machine.index.toNat + row)).toNat.testBit (7 - column) = true ∧
      pixel.val =
        (machine.coordinate word.x + column + 64 * (machine.coordinate word.y + row)) % 2048

/-- The rows of the sprite that a word draws. -/
def rows (machine : Machine) (word : Word) : List UInt8 :=
  machine.memory.slice machine.index.toNat word.n

/-- The pixels of the sprite that a word draws. -/
def sprite (machine : Machine) (word : Word) : List Pixel :=
  Framebuffer.spritePixels (machine.coordinate word.x) (machine.coordinate word.y)
    (machine.rows word)

/-- The pixels of a sprite are those that it covers. -/
theorem mem_sprite_iff {pixel : Pixel} :
    pixel ∈ machine.sprite word ↔ machine.Covers word pixel := by
  rw [sprite, Framebuffer.mem_spritePixels]
  have covered (row : Nat) (bits : UInt8) :
      (machine.rows word)[row]? = some bits ↔
        row < word.n.val ∧ machine.memory.read (machine.index.toNat + row) = bits := by
    rw [rows, Memory.slice, List.getElem?_map, Option.map_eq_some_iff]
    simp [List.getElem?_eq_some_iff]
  constructor
  · rintro ⟨row, bits, found, column, inside, set, same⟩
    obtain ⟨below, rfl⟩ := (covered row bits).mp found
    exact ⟨row, below, column, inside, set, by rw [same, Framebuffer.val_wrap]⟩
  · rintro ⟨row, below, column, inside, set, same⟩
    refine ⟨row, _, (covered row _).mpr ⟨below, rfl⟩, column, inside, set, Fin.ext ?_⟩
    rw [same, Framebuffer.val_wrap]

instance (pixel : Pixel) : Decidable (machine.Covers word pixel) :=
  decidable_of_iff _ mem_sprite_iff

theorem nodup_sprite : (machine.sprite word).Nodup := by
  refine Framebuffer.nodup_spritePixels ?_
  rw [rows, Memory.length_slice]
  omega

theorem Draws.word_eq (draws : machine.Draws word) : machine.pc ≤ 0xFFE ∧ machine.word = word := by
  have fetched := draws.fetched
  rw [fetch_eq] at fetched
  split at fetched
  case isTrue inside => exact ⟨inside, Except.ok.inj fetched⟩
  case isFalse => contradiction

theorem Draws.decode (draws : machine.Draws word) :
    Instruction.decode word = some (.draw word.x word.y word.n) :=
  Instruction.decode_of_fits draws.fits ⟨rfl, rfl, rfl⟩

/-- With the flag cleared, registers give the coordinates. -/
theorem toNat_read_cleared (machine : Machine) (register : Register) :
    ((machine.registers.write Register.flag 0).read register).toNat =
      machine.coordinate register := by
  unfold coordinate
  split
  case isTrue same => rw [same, Registers.read_write_self]; rfl
  case isFalse other => rw [Registers.read_write_other _ _ other]

/-- A cycle that draws inverts the pixels of the sprite, says in the flag whether one of them was
lit, and goes on to the next word. -/
theorem Draws.cycle (draws : machine.Draws word) :
    machine.cycle.result = .ok .draw ∧
      machine.cycle.machine =
        { machine with
          pc := machine.pc + 2
          screen := (machine.screen.invert (machine.sprite word)).screen
          registers := (machine.registers.write Register.flag 0).setFlag
            ((machine.sprite word).any machine.screen.isLit) } := by
  obtain ⟨inside, same⟩ := draws.word_eq
  have decoded : Instruction.decode machine.word = some (.draw word.x word.y word.n) := by
    rw [same]
    exact draws.decode
  have succeeded : machine.advance.execute machine.pc (.draw word.x word.y word.n) =
      .ok { machine := machine.advance.drawSprite word.x word.y word.n, flow := .draw } :=
    if_pos draws.inside
  have drawing : machine.screen.draw
      ((machine.registers.write Register.flag 0).read word.x).toNat
      ((machine.registers.write Register.flag 0).read word.y).toNat
      (machine.memory.slice machine.index.toNat word.n) =
        machine.screen.invert (machine.sprite word) := by
    rw [toNat_read_cleared, toNat_read_cleared]
    rfl
  rw [cycle_of_executed draws.running draws.awake inside decoded succeeded]
  refine ⟨rfl, ?_⟩
  rw [drawSprite]
  simp only [advance, drawing, machine.screen.erased_invert nodup_sprite]
  rfl

theorem Draws.screen (draws : machine.Draws word) :
    machine.cycle.machine.screen = (machine.screen.invert (machine.sprite word)).screen :=
  congrArg Machine.screen draws.cycle.2

theorem Draws.flag (draws : machine.Draws word) :
    machine.cycle.machine.registers.read Register.flag =
      Registers.flagByte ((machine.sprite word).any machine.screen.isLit) := by
  rw [draws.cycle.2]
  exact Registers.read_write_self _ _ _

/-- Drawing writes no register but the flag. -/
theorem Draws.read_other (draws : machine.Draws word) {register : Register}
    (other : register ≠ Register.flag) :
    machine.cycle.machine.registers.read register = machine.registers.read register := by
  rw [draws.cycle.2]
  exact (Registers.read_setFlag_other _ _ other).trans (Registers.read_write_other _ _ other)

/-- The pixels that change are those of the sprite. -/
theorem Draws.changed_iff (draws : machine.Draws word) (pixel : Pixel) :
    machine.cycle.machine.screen.isLit pixel ≠ machine.screen.isLit pixel ↔
      machine.Covers word pixel := by
  rw [draws.screen, ← mem_sprite_iff]
  exact machine.screen.isLit_invert_ne_iff nodup_sprite pixel

/-- A machine that draws a sprite ends the cycle by drawing. The places of the sprite are all
different, however they wrap around the screen, and exactly those change that a bit of the sprite
falls on. The flag tells whether one of these was lit before. Apart from the screen, the flag and
the program counter nothing changes. What falls off the screen on the right goes on in the next
row, so a column beyond the screen stands for one further down. -/
theorem sprite_is_drawn_exactly (machine : Machine) (word : Word) (draws : machine.Draws word) :
    let x := machine.coordinate word.x
    let y := machine.coordinate word.y
    let place (row column : Nat) : Nat := (x + column + 64 * (y + row)) % 2048
    let after := machine.cycle.machine
    (∀ row < word.n.val, ∀ column < 8, ∀ row' < word.n.val, ∀ column' < 8,
      place row column = place row' column' → row = row' ∧ column = column') ∧
    machine.cycle.result = .ok .draw ∧
    (∀ pixel, after.screen.isLit pixel ≠ machine.screen.isLit pixel ↔
      ∃ row < word.n.val, ∃ column < 8,
        (machine.memory.read (machine.index.toNat + row)).toNat.testBit (7 - column) = true ∧
          pixel.val = place row column) ∧
    after.registers.read Register.flag =
      (if ∃ pixel, after.screen.isLit pixel ≠ machine.screen.isLit pixel ∧
        machine.screen.isLit pixel = true then 1 else 0) ∧
    (∀ register, register ≠ Register.flag →
      after.registers.read register = machine.registers.read register) ∧
    after = { machine with
      pc := machine.pc + 2, screen := after.screen, registers := after.registers } ∧
    ∀ (machine' : Machine) (word' : Word), machine'.Draws word' →
      machine'.screen = machine.screen → machine'.rows word' = machine.rows word →
      machine'.coordinate word'.x = x % 64 → machine'.coordinate word'.y = (y + x / 64) % 32 →
      machine'.cycle.machine.screen = after.screen ∧
        machine'.cycle.machine.registers.read Register.flag =
          after.registers.read Register.flag := by
  intro x y place after
  obtain ⟨result, drawn⟩ := draws.cycle
  have whole : after = { machine with
      pc := machine.pc + 2, screen := after.screen, registers := after.registers } := by
    simp only [after, drawn]
  refine ⟨?_, result, draws.changed_iff, ?_, fun register other => draws.read_other other, whole,
    ?_⟩
  · intro row inRows column inColumns row' inRows' column' inColumns' same
    have low := word.n.isLt
    refine @Framebuffer.eq_of_wrap_eq x y _ _ _ _ inColumns inColumns' (by omega) (by omega) ?_
    exact Fin.ext (by rw [Framebuffer.val_wrap, Framebuffer.val_wrap]; exact same)
  · rw [draws.flag, Registers.flagByte]
    refine if_congr ?_ rfl rfl
    rw [List.any_eq_true]
    exact exists_congr fun pixel =>
      and_congr_left' (mem_sprite_iff.trans (draws.changed_iff pixel).symm)
  · intro machine' word' draws' sameScreen sameRows column row
    have sprites : machine'.sprite word' = machine.sprite word := by
      rw [sprite, sprite, sameRows]
      exact Framebuffer.spritePixels_congr (by rw [column, row]; omega)
    refine ⟨?_, ?_⟩
    · rw [draws'.screen, sprites, sameScreen, ← draws.screen]
    · rw [draws'.flag, sprites, sameScreen, ← draws.flag]

/-- A machine that draws one pixel, which is the only one that is lit, by an instruction and
registers as given. -/
def erasing (low : UInt8) (registers : Registers) : Machine :=
  { blank {} (RandomSource.start fun _ => 0) with
    memory := Memory.zero.overwrite 0x200 [0xD0, low, 0x80]
    index := 0x202
    registers := registers
    screen := Framebuffer.blank.toggle ⟨200, by decide⟩ }

section Erasing

variable (low : UInt8) (registers : Registers)

theorem draws_erasing (word : Word) (same : word = Word.ofBytes 0xD0 low)
    (fits : word.fits "DXYN" = true) (height : word.n = 1) :
    (erasing low registers).Draws word where
  running := rfl
  awake := rfl
  fetched := by
    have written : (erasing low registers).word = Word.ofBytes 0xD0 low :=
      word_of_written [0xD0, low, 0x80] 0 rfl rfl (Nat.le_of_ble_eq_true rfl)
        (Nat.le_of_ble_eq_true rfl)
    rw [fetch_eq, if_pos (Nat.le_of_ble_eq_true rfl), written, same]
  fits := fits
  inside := by
    rw [height]
    exact Nat.le_of_ble_eq_true rfl

theorem read_erasing : (erasing low registers).memory.read (0x202 + 0) = 0x80 :=
  Memory.read_overwrite_self Memory.zero 0x200 2 [0xD0, low, 0x80] (Nat.le_of_ble_eq_true rfl)
    (Nat.le_of_ble_eq_true rfl)

theorem rows_erasing (word : Word) (height : word.n = 1) :
    (erasing low registers).rows word = [0x80] := by
  rw [rows, height]
  exact congrArg (fun byte => [byte]) (read_erasing low registers)

theorem isLit_erasing : (erasing low registers).screen.isLit ⟨200, by decide⟩ = true := by
  show (Framebuffer.blank.toggle _).isLit _ = true
  rw [Framebuffer.isLit_toggle_self, Framebuffer.isLit_blank]
  rfl

end Erasing

/-- A column beyond the screen, with a row that the flag would give if it were not cleared, is the
same place as a column and row on the screen. -/
theorem sprite_is_drawn_exactly_erasing :
    let far := erasing 0xF1 ((Registers.zero.write 0 200).write Register.flag 9)
    let near := erasing 0x11 ((Registers.zero.write 0 8).write 1 3)
    far.Draws 0xD0F1 ∧ near.Draws 0xD011 ∧ far.cycle.result = .ok .draw ∧
      far.cycle.machine.screen.isLit ⟨200, by decide⟩ = false ∧
      far.cycle.machine.registers.read Register.flag = 1 ∧
      near.cycle.machine.screen = far.cycle.machine.screen ∧
      near.cycle.machine.registers.read Register.flag = 1 := by
  intro far near
  have farDraws : far.Draws 0xD0F1 := draws_erasing _ _ _ rfl (by decide) rfl
  have nearDraws : near.Draws 0xD011 := draws_erasing _ _ _ rfl (by decide) rfl
  have rows : near.rows 0xD011 = far.rows 0xD0F1 := by
    rw [rows_erasing _ _ _ rfl, rows_erasing _ _ _ rfl]
  obtain ⟨-, result, changed, flag, -, -, alike⟩ := sprite_is_drawn_exactly far 0xD0F1 farDraws
  have column : near.coordinate (Word.x 0xD011) = far.coordinate (Word.x 0xD0F1) % 64 := by decide
  have row : near.coordinate (Word.y 0xD011) =
      (far.coordinate (Word.y 0xD0F1) + far.coordinate (Word.x 0xD0F1) / 64) % 32 := by decide
  obtain ⟨screen, flag'⟩ := alike near 0xD011 nearDraws rfl rows column row
  have lit : far.screen.isLit ⟨200, by decide⟩ = true := isLit_erasing _ _
  have erased : far.cycle.machine.screen.isLit ⟨200, by decide⟩ ≠
      far.screen.isLit ⟨200, by decide⟩ := by
    refine (changed _).mpr ⟨0, by decide, 0, by decide, ?_, by decide⟩
    have row : far.memory.read (far.index.toNat + 0) = 0x80 := read_erasing _ _
    rw [row]
    decide
  rw [if_pos ⟨_, erased, lit⟩] at flag
  rw [lit] at erased
  exact ⟨farDraws, nearDraws, result, Bool.eq_false_iff.mpr erased, flag, screen, flag'.trans flag⟩

end Machine

end ChipEight
