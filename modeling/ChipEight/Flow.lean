/-
This file holds how a cycle of the machine ends when nothing goes wrong, and what
that means for whoever runs the cycles: whether the screen has to be shown again,
and whether running further cycles would do nothing.
-/

namespace ChipEight

/-- How a cycle ended. -/
inductive Flow
  /-- The next instruction follows. -/
  | next
  /-- Execution continues at another address. -/
  | jump
  /-- The screen was written. -/
  | draw
  /-- The machine waits for a key. -/
  | keyWait
  /-- The machine has stopped. -/
  | halt
  deriving DecidableEq, Repr

namespace Flow

/-- Whether the screen has to be shown again. -/
def isDirty : Flow → Bool
  | draw => true
  | _ => false

/-- Whether running more cycles would do nothing. -/
def isBlocked : Flow → Bool
  | keyWait => true
  | halt => true
  | _ => false

end Flow

end ChipEight
