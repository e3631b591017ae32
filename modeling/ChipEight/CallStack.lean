/-
This file holds the call stack: sixteen slots for return addresses and the number
of them in use.

Leaving a call only lowers the depth. The slot keeps its address, out of reach
until the next call at that depth overwrites it, so the live stack is the slots
below the depth and nothing else about the slots can ever show.
-/

namespace ChipEight

def stackSize : Nat := 16

/-- The slots for return addresses and how many of them are in use. -/
structure CallStack where
  slots : Vector UInt16 stackSize
  depth : Nat
  deriving DecidableEq, Repr

namespace CallStack

def empty : CallStack := ⟨Vector.replicate stackSize 0, 0⟩

/-- The stack with one more return address, if a slot is left. -/
def push? (stack : CallStack) (address : UInt16) : Option CallStack :=
  if free : stack.depth < stackSize then
    some ⟨stack.slots.set stack.depth address, stack.depth + 1⟩
  else none

/-- The most recent return address and the stack without it, if a call is open. -/
def pop? (stack : CallStack) : Option (UInt16 × CallStack) :=
  match stack.depth with
  | 0 => none
  | depth + 1 => some (stack.slots[depth]?.getD 0, { stack with depth := depth })

/-- The return addresses in use, the oldest first. -/
def live (stack : CallStack) : List UInt16 := stack.slots.toList.take stack.depth

@[simp] theorem live_empty : empty.live = [] := rfl

/-- Pushing adds the address behind those in use. -/
theorem live_of_push? {stack pushed : CallStack} {address : UInt16}
    (success : stack.push? address = some pushed) :
    pushed.live = stack.live ++ [address] := by
  unfold push? at success
  split at success
  case isFalse => contradiction
  case isTrue free =>
    obtain rfl := Option.some.inj success
    have room : stack.depth < stack.slots.toList.length := by simpa using free
    simp only [live, Vector.toList_set]
    rw [List.take_add_one, List.getElem?_set_self room, List.take_set_of_le (Nat.le_refl _)]
    rfl

/-- Popping takes the last of those in use, whenever the depth is one the slots have. -/
theorem live_of_pop? {stack popped : CallStack} {address : UInt16}
    (success : stack.pop? = some (address, popped)) (bounded : stack.depth ≤ stackSize) :
    stack.live = popped.live ++ [address] := by
  unfold pop? at success
  split at success
  case h_1 => contradiction
  case h_2 depth found =>
    obtain ⟨rfl, rfl⟩ := Prod.mk.inj (Option.some.inj success)
    have inside : depth < stackSize := by omega
    have room : depth < stack.slots.toList.length := by simpa using inside
    simp only [live, found]
    rw [List.take_add_one, List.getElem?_eq_getElem room]
    simp [inside]

theorem depth_of_push? {stack pushed : CallStack} {address : UInt16}
    (success : stack.push? address = some pushed) :
    stack.depth < stackSize ∧ pushed.depth = stack.depth + 1 := by
  unfold push? at success
  split at success
  case isFalse => contradiction
  case isTrue free =>
    obtain rfl := Option.some.inj success
    exact ⟨free, rfl⟩

theorem depth_of_pop? {stack popped : CallStack} {address : UInt16}
    (success : stack.pop? = some (address, popped)) : stack.depth = popped.depth + 1 := by
  unfold pop? at success
  split at success
  case h_1 => contradiction
  case h_2 depth found =>
    obtain ⟨rfl, rfl⟩ := Prod.mk.inj (Option.some.inj success)
    exact found

/-- The depth counts the return addresses in use, whenever it is one the slots have. -/
theorem length_live {stack : CallStack} (bounded : stack.depth ≤ stackSize) :
    stack.live.length = stack.depth := by
  rw [live, List.length_take, Vector.length_toList]
  exact Nat.min_eq_left bounded

end CallStack

end ChipEight
