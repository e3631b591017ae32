/-
This file holds the keypad: sixteen keys, each pressed or released.

The outside world names a key by a byte. Only the bytes below sixteen name one,
so an event carries the byte as it came and the key is looked up when the event
is applied. A byte that names no key is never pressed.
-/

import ChipEight.Numeral

namespace ChipEight

/-- A key of the keypad. -/
abbrev Key := Fin 16

namespace Key

/-- The key a byte names, if it names one. -/
def ofByte? (index : UInt8) : Option Key :=
  if below : index.toNat < 16 then some ⟨index.toNat, below⟩ else none

def toByte (key : Key) : UInt8 := UInt8.ofNat key

/-- The name of a key: the letter `k` and its digit. -/
def name (key : Key) : String := String.ofList ['k', Numeral.lowerDigit key]

def all : List Key := List.finRange 16

end Key

/-- A key going down or up, named by a byte that is not yet checked. -/
inductive KeyEvent
  | down (index : UInt8)
  | up (index : UInt8)
  deriving DecidableEq, Repr

namespace KeyEvent

def index : KeyEvent → UInt8
  | down index => index
  | up index => index

def isPress : KeyEvent → Bool
  | down _ => true
  | up _ => false

def text : KeyEvent → String
  | down index => "Down(" ++ Numeral.decimal 1 index.toNat ++ ")"
  | up index => "Up(" ++ Numeral.decimal 1 index.toNat ++ ")"

end KeyEvent

/-- The bit that stands for a key in a mask. -/
def Key.bit (key : Key) : UInt16 := 1 <<< UInt16.ofNat key

/-- The keys as a mask, in which the bit of a key is set while the key is pressed. -/
structure Keypad where
  mask : UInt16
  deriving DecidableEq, Repr

namespace Keypad

def released : Keypad := ⟨0⟩

def isPressed (keypad : Keypad) (key : Key) : Bool := 0 < keypad.mask &&& key.bit

def isPressedAt (keypad : Keypad) (index : UInt8) : Bool :=
  match Key.ofByte? index with
  | some key => keypad.isPressed key
  | none => false

def update (keypad : Keypad) (key : Key) (pressed : Bool) : Keypad :=
  if pressed then ⟨keypad.mask ||| key.bit⟩ else ⟨keypad.mask &&& ~~~key.bit⟩

/-- Whether any key is pressed. -/
def isAnyPressed (keypad : Keypad) : Bool := 0 < keypad.mask

def pressed (keypad : Keypad) : List Key := Key.all.filter keypad.isPressed

/-- The pressed keys by name, or nothing at all when none is. -/
def text (keypad : Keypad) : String :=
  if keypad.isAnyPressed then "keys: " ++ String.join (keypad.pressed.map Key.name) else ""

theorem toBitVec_bit (key : Key) : key.bit.toBitVec = BitVec.twoPow 16 key := by
  decide +revert

/-- A key is pressed if its bit is set in the mask. -/
theorem isPressed_eq_getLsbD (keypad : Keypad) (key : Key) :
    keypad.isPressed key = keypad.mask.toBitVec.getLsbD key := by
  have tested : (keypad.mask &&& key.bit).toBitVec =
      if keypad.mask.toBitVec.getLsbD key then BitVec.twoPow 16 key else 0#16 := by
    rw [UInt16.toBitVec_and, toBitVec_bit, BitVec.and_twoPow]
  have filled : ∀ key : Key, BitVec.twoPow 16 key ≠ 0#16 := by decide
  rw [isPressed, Bool.eq_iff_iff, decide_eq_true_iff, UInt16.pos_iff_ne_zero, Ne,
    UInt16.eq_iff_toBitVec_eq, tested]
  split
  case isTrue set => exact iff_of_true (filled key) set
  case isFalse clear => exact iff_of_false (not_not_intro rfl) clear

/-- Keypads on which the same keys are pressed are equal. -/
theorem ext_isPressed {left right : Keypad}
    (same : ∀ key, left.isPressed key = right.isPressed key) : left = right := by
  obtain ⟨mask⟩ := left
  obtain ⟨mask'⟩ := right
  refine congrArg mk (UInt16.eq_of_toBitVec_eq (BitVec.eq_of_getLsbD_eq fun place small => ?_))
  rw [← isPressed_eq_getLsbD ⟨mask⟩ ⟨place, small⟩, same, isPressed_eq_getLsbD]

@[simp] theorem isPressed_released (key : Key) : released.isPressed key = false := by
  decide +revert

/-- Of the keys only the one that went down or up is changed, and it is as the event left it. -/
theorem isPressed_update (keypad : Keypad) (changed key : Key) (pressed : Bool) :
    (keypad.update changed pressed).isPressed key =
      if key = changed then pressed else keypad.isPressed key := by
  have place : (BitVec.twoPow 16 changed).getLsbD key = decide (key = changed) := by
    decide +revert
  rw [isPressed_eq_getLsbD, isPressed_eq_getLsbD, update]
  cases pressed with
  | true =>
    show (keypad.mask ||| changed.bit).toBitVec.getLsbD key = _
    rw [UInt16.toBitVec_or, BitVec.getLsbD_or, toBitVec_bit, place]
    by_cases same : key = changed <;> simp [same]
  | false =>
    show (keypad.mask &&& ~~~changed.bit).toBitVec.getLsbD key = _
    rw [UInt16.toBitVec_and, UInt16.toBitVec_not, BitVec.getLsbD_and, BitVec.getLsbD_not,
      toBitVec_bit, place]
    by_cases same : key = changed <;> simp [same]

@[simp] theorem isPressed_update_self (keypad : Keypad) (key : Key) (pressed : Bool) :
    (keypad.update key pressed).isPressed key = pressed := by
  rw [isPressed_update, if_pos rfl]

theorem isPressed_update_other (keypad : Keypad) {changed other : Key} (pressed : Bool)
    (different : other ≠ changed) :
    (keypad.update changed pressed).isPressed other = keypad.isPressed other := by
  rw [isPressed_update, if_neg different]

/-- A key is pressed if any is. -/
theorem isAnyPressed_iff (keypad : Keypad) :
    keypad.isAnyPressed = true ↔ ∃ key, keypad.isPressed key = true := by
  rw [isAnyPressed, decide_eq_true_iff, UInt16.pos_iff_ne_zero]
  constructor
  · intro filled
    refine Classical.byContradiction fun none => filled ?_
    have same : keypad = released := ext_isPressed fun key => by
      rw [isPressed_released, ← Bool.not_eq_true]
      exact fun pressed => none ⟨key, pressed⟩
    rw [same]
    rfl
  · rintro ⟨key, pressed⟩ empty
    obtain ⟨mask⟩ := keypad
    obtain rfl : mask = 0 := empty
    rw [show (⟨0⟩ : Keypad) = released from rfl, isPressed_released] at pressed
    contradiction

end Keypad

end ChipEight
