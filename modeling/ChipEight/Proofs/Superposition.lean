/-
This file proves that sprites which are drawn one after the other lie on top of each other in no
particular order.

A sprite is drawn by inverting its pixels, and which these are does not change by drawing: the
memory and the index stay as they are, and the flag, which does change, counts for nothing as a
coordinate. So a pixel ends up inverted if an odd number of sprites cover it. How the sprites are
ordered does not matter for that, and of equal ones only whether they are odd or even in number. In
particular, a sprite that is drawn twice is gone.
-/

import ChipEight.Proofs.Sprite
import Mathlib.Algebra.BigOperators.Group.Finset.Basic

namespace ChipEight

/-! ### Code -/

namespace Word

/-- The bytes of a word, the high byte first. -/
def bytes (word : Word) : List UInt8 := [UInt8.ofNat (word.toNat / 256), word.lowByte]

theorem ofBytes_bytes (word : Word) :
    ofBytes (UInt8.ofNat (word.toNat / 256)) word.lowByte = word := by
  have bound := word.toNat_lt
  rw [← UInt16.toNat_inj, toNat_ofBytes, lowByte, UInt8.toNat_ofNat', UInt8.toNat_ofNat']
  omega

/-- The bytes of words, one behind the other. -/
def code (words : List Word) : List UInt8 := words.flatMap bytes

theorem length_code (words : List Word) : (code words).length = 2 * words.length := by
  rw [code, List.length_flatMap]
  simp [bytes, Nat.mul_comm]

theorem getElem?_code {words : List Word} {position : Nat} {word : Word}
    (found : words[position]? = some word) :
    (code words)[2 * position]? = some (UInt8.ofNat (word.toNat / 256)) ∧
      (code words)[2 * position + 1]? = some word.lowByte := by
  induction words generalizing position with
  | nil => contradiction
  | cons first rest previous =>
    cases position with
    | zero =>
      obtain rfl := Option.some.inj found
      exact ⟨rfl, rfl⟩
    | succ position => exact previous found

end Word

namespace Framebuffer

/-- Inverting some pixels and then others is inverting all of them. -/
theorem screen_invert_append (screen : Framebuffer) (first second : List Pixel) :
    (screen.invert (first ++ second)).screen =
      ((screen.invert first).screen.invert second).screen := by
  refine ext_isLit fun pixel => ?_
  rw [isLit_invert, isLit_invert, isLit_invert, List.count_append, Bool.xor_assoc]
  refine congrArg _ ?_
  rcases Nat.mod_two_eq_zero_or_one (first.count pixel) with even | odd <;>
    rcases Nat.mod_two_eq_zero_or_one (second.count pixel) with even' | odd' <;>
    simp [Nat.add_mod, *]

/-- Inverting pixels twice changes nothing. -/
theorem screen_invert_invert (screen : Framebuffer) (pixels : List Pixel) :
    ((screen.invert pixels).screen.invert pixels).screen = screen := by
  rw [← screen_invert_append]
  refine ext_isLit fun pixel => ?_
  have even : (pixels.count pixel + pixels.count pixel) % 2 ≠ 1 := by omega
  rw [isLit_invert, List.count_append, decide_eq_false even, Bool.xor_false]

/-- Only the parity matters of the times that each pixel comes up. -/
theorem screen_invert_congr (screen : Framebuffer) {pixels pixels' : List Pixel}
    (same : ∀ pixel, pixels'.count pixel % 2 = pixels.count pixel % 2) :
    (screen.invert pixels').screen = (screen.invert pixels).screen := by
  refine ext_isLit fun pixel => ?_
  rw [isLit_invert, isLit_invert, same]

end Framebuffer

/-- Only the parity matters of the times that each word comes up in a list to the parity of the
times that a pixel comes up in what the words stand for. -/
theorem count_flatMap_mod_two (pixelsOf : Word → List Pixel) {words words' : List Word}
    (same : ∀ word, words'.count word % 2 = words.count word % 2) (pixel : Pixel) :
    (words'.flatMap pixelsOf).count pixel % 2 = (words.flatMap pixelsOf).count pixel % 2 := by
  let all := words.toFinset ∪ words'.toFinset
  have total (list : List Word) (within : list.toFinset ⊆ all) :
      (list.flatMap pixelsOf).count pixel =
        ∑ word ∈ all, list.count word * (pixelsOf word).count pixel := by
    rw [List.count_flatMap, Finset.sum_list_map_count]
    refine Finset.sum_subset within fun word _ absent => ?_
    rw [List.count_eq_zero_of_not_mem fun member => absent (List.mem_toFinset.mpr member),
      zero_nsmul]
  rw [total words Finset.subset_union_left, total words' Finset.subset_union_right]
  calc (∑ word ∈ all, words'.count word * (pixelsOf word).count pixel) % 2
      = (∑ word ∈ all, words'.count word * (pixelsOf word).count pixel % 2) % 2 :=
        Finset.sum_nat_mod ..
    _ = (∑ word ∈ all, words.count word * (pixelsOf word).count pixel % 2) % 2 := by
        refine congrArg (· % 2) (Finset.sum_congr rfl fun word _ => ?_)
        rw [Nat.mul_mod, same, ← Nat.mul_mod]
    _ = (∑ word ∈ all, words.count word * (pixelsOf word).count pixel) % 2 :=
        (Finset.sum_nat_mod ..).symm

namespace Machine

/-! ### Drawing one sprite after the other -/

/-- A machine runs, words say to draw sprites that lie in memory, and there is room for the words
from the program counter on. -/
structure Drawable (machine : Machine) (words : List Word) : Prop where
  running : machine.halted = false
  awake : machine.awaiting = none
  draws : ∀ word ∈ words, word.fits "DXYN" = true ∧ machine.index.toNat + word.n ≤ 4096
  room : machine.pc + 2 * words.length ≤ 4096

/-- A machine is about to draw as words say that lie at its program counter, one behind the
other. -/
structure Ready (machine : Machine) (words : List Word) : Prop extends
    machine.Drawable words where
  code : ∀ position word, words[position]? = some word →
    Word.ofBytes (machine.memory.read (machine.pc + 2 * position))
      (machine.memory.read (machine.pc + 2 * position + 1)) = word

section Sequences

variable {machine : Machine} {word : Word} {words : List Word}

theorem Ready.first (ready : machine.Ready (word :: words)) : machine.Draws word where
  running := ready.running
  awake := ready.awake
  fetched := by
    have room := ready.room
    rw [List.length_cons] at room
    have here : machine.word = word := ready.code 0 word rfl
    rw [fetch_eq, if_pos (by omega), here]
  fits := (ready.draws word List.mem_cons_self).1
  inside := (ready.draws word List.mem_cons_self).2

/-- Drawing a sprite leaves all sprites as they are. -/
theorem Draws.sprite_next (draws : machine.Draws word) :
    machine.cycle.machine.sprite = machine.sprite := by
  funext other
  have coordinates (register : Register) :
      machine.cycle.machine.coordinate register = machine.coordinate register := by
    unfold coordinate
    split
    case isTrue => rfl
    case isFalse different => rw [draws.read_other different]
  have rows : machine.cycle.machine.rows other = machine.rows other := by
    rw [draws.cycle.2]
    rfl
  rw [sprite, coordinates, coordinates, rows]
  rfl

theorem Ready.next (ready : machine.Ready (word :: words)) : machine.cycle.machine.Ready words := by
  have room := ready.room
  rw [List.length_cons] at room
  rw [ready.first.cycle.2]
  refine ⟨⟨ready.running, ready.awake,
    fun other member => ready.draws other (List.mem_cons_of_mem _ member), ?_⟩, ?_⟩
  · show machine.pc + 2 + 2 * words.length ≤ 4096
    omega
  · intro position other found
    have code := ready.code (position + 1) other found
    rwa [Nat.mul_add, Nat.add_comm (2 * position), ← Nat.add_assoc] at code

/-- Each of the words is drawn in its turn, and in the end the pixels of all sprites are
inverted. -/
theorem Ready.cycles (ready : machine.Ready words) :
    (∀ position word, words[position]? = some word → (machine.cycles position).Draws word) ∧
      (machine.cycles words.length).screen =
        (machine.screen.invert (words.flatMap machine.sprite)).screen := by
  induction words generalizing machine with
  | nil => exact ⟨nofun, rfl⟩
  | cons first rest previous =>
    obtain ⟨each, screen⟩ := previous ready.next
    refine ⟨fun position word found => ?_, ?_⟩
    · cases position with
      | zero =>
        obtain rfl := Option.some.inj found
        exact ready.first
      | succ position => exact each position word found
    · rw [List.flatMap_cons, Framebuffer.screen_invert_append, List.length_cons, Machine.cycles,
        screen, ready.first.sprite_next, ready.first.screen]

end Sequences

/-! ### Code at the program counter -/

/-- The machine with words in memory from the program counter on. -/
def holding (machine : Machine) (words : List Word) : Machine :=
  { machine with memory := machine.memory.overwrite machine.pc (Word.code words) }

/-- A machine can draw as words say once they are at its program counter. The place for them is
outside the fifteen bytes that can be part of a sprite. -/
structure CanDraw (machine : Machine) (words : List Word) : Prop extends
    machine.Drawable words where
  apart : machine.pc + 2 * words.length ≤ machine.index.toNat ∨
    machine.index.toNat + 15 ≤ machine.pc

section Holding

variable {machine : Machine} {words words' : List Word}

theorem CanDraw.perm (can : machine.CanDraw words) (order : words'.Perm words) :
    machine.CanDraw words' where
  running := can.running
  awake := can.awake
  draws word member := can.draws word (order.mem_iff.mp member)
  room := by rw [order.length_eq]; exact can.room
  apart := by rw [order.length_eq]; exact can.apart

theorem CanDraw.ready (can : machine.CanDraw words) : (machine.holding words).Ready words where
  running := can.running
  awake := can.awake
  draws := can.draws
  room := can.room
  code position word found := by
    obtain ⟨high, low⟩ := Word.getElem?_code found
    obtain ⟨highInside, highSame⟩ := List.getElem?_eq_some_iff.mp high
    obtain ⟨lowInside, lowSame⟩ := List.getElem?_eq_some_iff.mp low
    have fits : machine.pc + (Word.code words).length ≤ memorySize := by
      rw [Word.length_code]
      exact can.room
    have first : (machine.holding words).memory.read (machine.pc + 2 * position) = _ :=
      (Memory.read_overwrite_self _ _ _ _ highInside fits).trans highSame
    have second : (machine.holding words).memory.read (machine.pc + (2 * position + 1)) = _ :=
      (Memory.read_overwrite_self _ _ _ _ lowInside fits).trans lowSame
    have pc : (machine.holding words).pc = machine.pc := rfl
    rw [pc, first, Nat.add_assoc, second, Word.ofBytes_bytes]

/-- Code away from the sprites leaves them as they are. -/
theorem CanDraw.sprite_holding (can : machine.CanDraw words) :
    (machine.holding words).sprite = machine.sprite := by
  funext word
  have low : word.n.val ≤ 15 := Nat.le_of_lt_succ word.n.isLt
  have apart := can.apart
  have rows : (machine.holding words).rows word = machine.rows word := by
    have outside : machine.index.toNat + word.n.val ≤ machine.pc ∨
        machine.pc + (Word.code words).length ≤ machine.index.toNat := by
      rw [Word.length_code]
      omega
    exact machine.memory.slice_overwrite_other machine.pc (Word.code words) outside
  rw [sprite, rows]
  rfl

/-- The screen once a machine has drawn the sprites that words say. -/
def screenAfter (machine : Machine) (words : List Word) : Framebuffer :=
  ((machine.holding words).cycles words.length).screen

theorem CanDraw.screenAfter_eq (can : machine.CanDraw words) :
    machine.screenAfter words =
      (machine.screen.invert (words.flatMap machine.sprite)).screen := by
  rw [screenAfter, can.ready.cycles.2, can.sprite_holding]
  rfl

theorem CanDraw.screenAfter_congr (can : machine.CanDraw words) (can' : machine.CanDraw words')
    (same : ∀ word, words'.count word % 2 = words.count word % 2) :
    machine.screenAfter words' = machine.screenAfter words := by
  rw [can.screenAfter_eq, can'.screenAfter_eq]
  exact machine.screen.screen_invert_congr (count_flatMap_mod_two machine.sprite same)

end Holding

/-- Words that draw sprites, one behind the other and away from the sprites, are all executed, each
ending its cycle by drawing. The screen after them is the same in every order of the words, and for
any other such words that hold each word as often up to an even number. A sprite that is drawn a
second time is gone from the screen, and the flag then tells whether one of its pixels was off
before the first time. -/
theorem draws_commute_and_cancel (machine : Machine) :
    (∀ words, machine.CanDraw words → ∀ position word, words[position]? = some word →
      let reached := (machine.holding words).cycles position
      reached.fetch = .ok word ∧ reached.cycle.result = .ok .draw) ∧
    (∀ words order, machine.CanDraw words → order.Perm words →
      machine.screenAfter order = machine.screenAfter words) ∧
    (∀ words words', machine.CanDraw words → machine.CanDraw words' →
      (∀ word, words'.count word % 2 = words.count word % 2) →
      machine.screenAfter words' = machine.screenAfter words) ∧
    ∀ word, machine.Draws word → machine.cycle.machine.Draws word →
      let twice := machine.cycle.machine.cycle.machine
      twice.screen = machine.screen ∧
      twice.registers.read Register.flag =
        if ∃ pixel, machine.Covers word pixel ∧ machine.screen.isLit pixel = false then 1
        else 0 := by
  refine ⟨fun words can position word found => ?_, fun words order can permuted => ?_,
    fun words words' can can' same => can.screenAfter_congr can' same, fun word draws again => ?_⟩
  · have drawn := can.ready.cycles.1 position word found
    exact ⟨drawn.fetched, drawn.cycle.1⟩
  · exact can.screenAfter_congr (can.perm permuted) fun word => by rw [permuted.count_eq]
  · intro twice
    refine ⟨?_, ?_⟩
    · rw [again.screen, draws.sprite_next, draws.screen]
      exact machine.screen.screen_invert_invert _
    · rw [again.flag, draws.sprite_next, Registers.flagByte]
      refine if_congr ?_ rfl rfl
      rw [List.any_eq_true]
      refine exists_congr fun pixel => ?_
      rw [mem_sprite_iff]
      refine and_congr_right fun covers => ?_
      -- The first time has changed the pixel, so it is lit now if it was off.
      rw [Bool.eq_not.mpr ((draws.changed_iff pixel).mpr covers), Bool.not_eq_true']

/-- A machine with nothing in memory but the font, at the first digit of which the index is. -/
def withFont : Machine :=
  { (blank {} (RandomSource.start fun _ => 0)).loadFont with
    registers := Registers.zero.write Register.offset 30 }

/-- Two copies of the digit in a column and row that a register gives cancel out, whatever their
order with one in the corner, where the flag puts it. Two copies in the corner leave the screen
blank, and the flag tells that the first one was drawn where nothing was. -/
theorem draws_commute_and_cancel_withFont :
    let words : List Word := [0xD005, 0xDFF5, 0xD005]
    let order : List Word := [0xDFF5, 0xD005, 0xD005]
    let corner := withFont.holding [0xDFF5, 0xDFF5]
    let twice := corner.cycle.machine.cycle.machine
    withFont.CanDraw words ∧ order.Perm words ∧ withFont.CanDraw [0xDFF5] ∧
      (∀ word, words.count word % 2 = [(0xDFF5 : Word)].count word % 2) ∧
      ((withFont.holding words).cycles 2).cycle.result = .ok .draw ∧
      withFont.screenAfter order = withFont.screenAfter words ∧
      withFont.screenAfter words = withFont.screenAfter [0xDFF5] ∧
      corner.Draws 0xDFF5 ∧ corner.cycle.machine.Draws 0xDFF5 ∧
      twice.screen = Framebuffer.blank ∧ twice.registers.read Register.flag = 1 := by
  intro words order corner twice
  have draws (word : Word) (known : word = 0xD005 ∨ word = 0xDFF5) :
      word.fits "DXYN" = true ∧ withFont.index.toNat + word.n ≤ 4096 := by
    rcases known with rfl | rfl <;> exact ⟨by decide, by decide⟩
  have can (words : List Word) (short : words.length ≤ 3)
      (known : ∀ word ∈ words, word = 0xD005 ∨ word = 0xDFF5) : withFont.CanDraw words := by
    have room : 0x200 + 2 * words.length ≤ 4096 := by omega
    exact ⟨⟨rfl, rfl, fun word member => draws word (known word member), room⟩, .inr (by decide)⟩
  have canWords : withFont.CanDraw words := can _ (by decide) (by simp [words])
  have canOne : withFont.CanDraw [0xDFF5] := can _ (by decide) (by simp)
  have canTwo : withFont.CanDraw [0xDFF5, 0xDFF5] := can _ (by decide) (by simp)
  have permuted : order.Perm words := by decide
  have parity (word : Word) : words.count word % 2 = [(0xDFF5 : Word)].count word % 2 := by
    simp only [words, List.count_cons, List.count_nil]
    split_ifs <;> rfl
  obtain ⟨each, commute, cancel, -⟩ := draws_commute_and_cancel withFont
  obtain ⟨-, -, -, gone⟩ := draws_commute_and_cancel corner
  have first : corner.Draws 0xDFF5 := canTwo.ready.cycles.1 0 _ rfl
  have second : corner.cycle.machine.Draws 0xDFF5 := canTwo.ready.cycles.1 1 _ rfl
  obtain ⟨screen, flag⟩ := gone 0xDFF5 first second
  have off : corner.screen.isLit ⟨0, by decide⟩ = false := Framebuffer.isLit_blank _
  have covers : corner.Covers 0xDFF5 ⟨0, by decide⟩ := by
    refine ⟨0, by decide, 0, by decide, ?_, by decide⟩
    have read : corner.memory.read (corner.index.toNat + 0) = 0xF0 := by
      show ((Memory.zero.overwrite 0 Font.bytes).overwrite 0x200 _).read (0 + 0) = 0xF0
      rw [Memory.read_overwrite_other _ _ _ _ (.inl (by decide)),
        Memory.read_overwrite_self _ _ _ _ (by decide) (by decide)]
      rfl
    rw [read]
    decide
  exact ⟨canWords, permuted, canOne, parity, (each words canWords 2 _ rfl).2,
    commute words order canWords permuted, cancel _ _ canOne canWords parity, first, second, screen,
    flag.trans (if_pos ⟨_, covers, off⟩)⟩

end Machine

end ChipEight
