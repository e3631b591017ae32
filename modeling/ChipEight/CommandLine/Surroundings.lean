/-
This file holds the command line program as a function: from its surroundings, the
readings of the clock and the arguments to an exit status and what is printed.

The surroundings are the files there are and what the program takes from
elsewhere, the reader of settings files and the generator of random bytes.

Everything that can fail is tried before anything is printed, so a failure prints
nothing, except that a run whose machine failed still shows how it ended.
-/

import ChipEight.CommandLine.Arguments
import ChipEight.Console
import ChipEight.Machine.Dump
import ChipEight.Scheduler.Run
import ChipEight.Settings.File

namespace ChipEight.CommandLine

def version : String := "0.4.0"

def usage : String :=
  "\nusage: chip8 CMD FILE [SECONDS] [--config CONF]\n\ncommands:\n"
    ++ "    run     Run the target ROM file headless for a number of seconds (default 5),\n"
    ++ "            then print the display and registers\n"
    ++ "    dis     Disassemble the the target ROM into readable assembly\n\noptions:\n"
    ++ "    --config CONF   YAML file with interpreter settings\n\nexamples:\n"
    ++ "    chip8 run breakout.rom\n"
    ++ "    chip8 run breakout.rom 10 --config slow.yaml\n"
    ++ "    chip8 dis breakout.rom\n"

/-- What is printed when the arguments make no request. -/
def help : String := "Chip8 v" ++ version ++ "\n" ++ usage ++ "\n"

/-- How the program ends: its exit status and what it prints. -/
structure Exit where
  status : UInt8
  output : String
  deriving DecidableEq, Repr

namespace Exit

/-- The end of a program that was asked for nothing it knows. -/
def misused : Exit := ⟨64, help⟩

/-- The end of a program that failed before it printed anything. -/
def failed : Exit := ⟨1, ""⟩

/-- The end of a program that did what it was asked for. -/
def succeeded (output : String) : Exit := ⟨0, output⟩

end Exit

/-- The files there are, by name. -/
abbrev Files := String → Option (List UInt8)

/-- What the program works with. -/
structure Surroundings where
  files : Files
  reader : Settings.Reader
  generator : Generator

/-- What is printed of a machine at the end of a run. -/
def report (machine : Machine) : String :=
  machine.screenText ++ "\n" ++ machine.registersText ++ "\n"

/-- The end of a run of the loops. A machine that failed is shown all the same. -/
def conclude (scheduler : Scheduler) (result : Except Error Unit) : Exit :=
  ⟨match result with
    | .ok _ => 0
    | .error _ => 1,
    report scheduler.destroy.scheduler.machine⟩

/-- The instant a run is over, given the instant it started. -/
def deadline (now : Nat) (seconds : UInt64) : Nat := now + seconds.toNat * 1000000000

namespace Surroundings

/-- The text of a file, if it can be read as UTF-8. -/
def readText (surroundings : Surroundings) (name : String) : Except Error String :=
  let decoded :=
    (surroundings.files name).bind fun bytes => String.fromUTF8? (ByteArray.mk bytes.toArray)
  match decoded with
  | some text => .ok text
  | none => .error (.system ("cannot read " ++ name))

def readBytes (surroundings : Surroundings) (name : String) : Except Error (List UInt8) :=
  match surroundings.files name with
  | some bytes => .ok bytes
  | none => .error (.system ("cannot read " ++ name))

/-- The settings in a file, or the defaults if no file is named. -/
def readSettings (surroundings : Surroundings) : Option String → Except Error Settings
  | some name => do
    let text ← surroundings.readText name
    (Settings.ofText surroundings.reader text).mapError fun words =>
      .settings (name ++ ": " ++ words)
  | none => .ok {}

/-- The scheduler of a run, with its program loaded and its loops still idle. -/
def prepare (surroundings : Surroundings) (now : Nat) (file : String) (config : Option String) :
    Except Error Scheduler := do
  let settings ← surroundings.readSettings config
  let program ← surroundings.readBytes file
  let machine := Machine.create settings surroundings.generator
  let (result, turn) := (Scheduler.create machine now).load program
  result
  return turn.scheduler

/-- Run a program until its time is over. The clock is read once to start with and then once
for each poll; when it cannot be read often enough there is no end to tell of. -/
def runProgram (surroundings : Surroundings) (now : Nat) (readings : List Nat) (file : String)
    (seconds : UInt64) (config : Option String) : Option Exit :=
  match surroundings.prepare now file config with
  | .error _ => some Exit.failed
  | .ok scheduler =>
    let run := scheduler.runUntil (some (deadline now seconds)) now readings
    run.ended.map (conclude run.turn.scheduler)

def listProgram (surroundings : Surroundings) (file : String) : Exit :=
  match surroundings.readBytes file with
  | .ok bytes => Exit.succeeded (Listing.text bytes)
  | .error _ => Exit.failed

/-- The whole program. -/
def perform (surroundings : Surroundings) (now : Nat) (readings : List Nat)
    (arguments : List String) : Option Exit :=
  match parse arguments with
  | none => some Exit.misused
  | some (.list file) => some (surroundings.listProgram file)
  | some (.run file seconds config) => surroundings.runProgram now readings file seconds config

end Surroundings

end ChipEight.CommandLine
