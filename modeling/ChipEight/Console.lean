/-
This file holds the devices of the command line: a display that only counts the
screens shown to it, and a buzzer that reports when it switches on or off.

The buzzer reports changes alone, so its notices alternate. Everything else the
scheduler does passes through unchanged and in its place.
-/

import ChipEight.Scheduler.Basic

namespace ChipEight

/-- The devices of the command line. -/
structure Console where
  /-- How many screens were shown. -/
  frames : Nat := 0
  /-- Whether the tone sounds. -/
  buzzing : Bool := false
  deriving DecidableEq, Repr

namespace Console

/-- Switch the buzzer, reporting it if that is a change. -/
def switchBuzzer (console : Console) (on : Bool) : Console × List Notice :=
  if console.buzzing = on then (console, []) else ({ console with buzzing := on }, [.buzzer on])

def observe (console : Console) : Activity → Console × List Notice
  | .notice notice => (console, [notice])
  | .flush _ => ({ console with frames := console.frames + 1 }, [])
  | .startTone => console.switchBuzzer true
  | .stopTone => console.switchBuzzer false

/-- Take part in activities in order. The notices are those of the scheduler and the buzzer
together. -/
def observeAll (console : Console) : List Activity → Console × List Notice
  | [] => (console, [])
  | activity :: rest =>
    let (next, notices) := console.observe activity
    let (last, later) := next.observeAll rest
    (last, notices ++ later)

end Console

end ChipEight
