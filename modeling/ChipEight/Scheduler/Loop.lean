/-
This file holds one of the two loops of the scheduler: whether it is active, when
it is due next and how long it rests between two bodies.

Instants are natural numbers of nanoseconds. A loop that ran late does not catch
up: its next body comes one interval after the instant it ran at, and not one
interval after the instant it was due at.
-/

namespace ChipEight

/-- A loop and the instant it is due next. -/
structure Loop where
  active : Bool
  next : Nat
  interval : Nat
  deriving DecidableEq, Repr

namespace Loop

/-- A loop that is not active yet. -/
def idle (interval now : Nat) : Loop := ⟨false, now, interval⟩

/-- Whether the body of the loop runs at an instant. -/
def isDue (loop : Loop) (now : Nat) : Bool := loop.active && decide (loop.next ≤ now)

/-- The instant the loop is due next, if it is active. -/
def deadline? (loop : Loop) : Option Nat := if loop.active then some loop.next else none

def setActive (loop : Loop) (active : Bool) : Loop := { loop with active := active }

/-- The loop with its activity as given and due at an instant. -/
def start (loop : Loop) (active : Bool) (now : Nat) : Loop :=
  { loop with active := active, next := now }

def rest (loop : Loop) (now : Nat) : Loop := { loop with next := now + loop.interval }

end Loop

end ChipEight
