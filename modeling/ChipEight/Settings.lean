/-
This file holds the settings of a machine: how fast its two loops run, how many
instructions make a batch, and what its random numbers start from.

Times are natural numbers of nanoseconds.
-/

namespace ChipEight

/-- The settings of a machine. -/
structure Settings where
  /-- The pause between batches of instructions, in milliseconds. Zero means none. -/
  tickrate : UInt64 := 0
  /-- The number of instructions in a batch. -/
  cyclesPerTick : UInt64 := 10
  /-- How many times a second the timers count down. -/
  timerFrequency : UInt64 := 60
  /-- What random numbers start from. Without it they start from chance. -/
  seed : Option UInt64 := none
  deriving DecidableEq, Repr

namespace Settings

def cpuInterval (settings : Settings) : Nat := settings.tickrate.toNat * 1000000

/-- The time between timer ticks, rounded down. A frequency of zero gives no time at all. -/
def timerInterval (settings : Settings) : Nat := 1000000000 / settings.timerFrequency.toNat

end Settings

end ChipEight
