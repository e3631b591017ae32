/-
This file holds what the command line can ask for and how its arguments say it.

Arguments are read from left to right. The option for a settings file takes the
argument after it, whatever that is; every other argument counts by its position.
When the option is given more than once the last one holds. Positions beyond
those a command needs are passed over.
-/

import ChipEight.Numeral.Reading

namespace ChipEight.CommandLine

/-- What the command line is asked to do. -/
inductive Request
  /-- Run a program for a number of seconds, with settings from a file if one is named. -/
  | run (file : String) (seconds : UInt64) (config : Option String)
  /-- List a program in assembly. -/
  | list (file : String)
  deriving DecidableEq, Repr

def configOption : String := "--config"

/-- How many seconds a program runs if nothing else is asked for. -/
def defaultSeconds : UInt64 := 5

/-- Arguments with the option taken out of them. -/
structure Sorted where
  positional : List String
  config : Option String
  deriving DecidableEq, Repr

namespace Sorted

/-- Arguments with one more in front that counts by its position. -/
def withPositional (sorted : Sorted) (argument : String) : Sorted :=
  { sorted with positional := argument :: sorted.positional }

/-- Arguments with one more option in front, which holds only if no other follows. -/
def withConfig (sorted : Sorted) (file : String) : Sorted :=
  { sorted with config := some (sorted.config.getD file) }

end Sorted

/-- Take the option out of the arguments, unless its value is missing. -/
def sort : List String → Option Sorted
  | [] => some ⟨[], none⟩
  | argument :: rest =>
    if argument = configOption then
      match rest with
      | [] => none
      | file :: rest => (sort rest).map fun sorted => sorted.withConfig file
    else (sort rest).map fun sorted => sorted.withPositional argument

/-- The number of seconds that the third position gives. -/
def secondsOf? : List String → Option UInt64
  | [] => some defaultSeconds
  | text :: _ => Numeral.readUnsigned64? text

/-- The request that sorted arguments make, if they make one. -/
def requestOf? (sorted : Sorted) : Option Request :=
  match sorted.positional with
  | command :: file :: rest =>
    if command = "run" then
      (secondsOf? rest).map fun seconds => .run file seconds sorted.config
    else if command = "dis" then some (.list file)
    else none
  | _ => none

/-- The request that arguments make, if they make one. -/
def parse (arguments : List String) : Option Request := (sort arguments).bind requestOf?

end ChipEight.CommandLine
