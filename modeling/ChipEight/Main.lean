/-
This file is the program itself: it reads the files, follows the real clock and
prints. Everything that it decides is decided elsewhere.
-/

import ChipEight.CommandLine.Program

namespace ChipEight.CommandLine

def namedFiles : Option Request → List String
  | some (.run file _ config) => file :: config.toList
  | some (.list file) => [file]
  | none => []

/-- The bytes of a file on disk, if it can be read. -/
def readFromDisk (name : String) : IO (Option (List UInt8)) := do
  try
    return some (← IO.FS.readBinFile name).toList
  catch _ =>
    return none

def gather (names : List String) : IO Files := do
  let found ← names.mapM fun name => do return (name, ← readFromDisk name)
  return fun name => (found.lookup name).join

def chanceKey : IO KeystreamKey := do
  let bytes ← IO.getRandomBytes 32
  return Vector.ofFn fun position =>
    (List.range 4).foldr
      (fun offset word => word * 256 + (bytes[4 * position.val + offset]?.getD 0).toUInt32)
      0

def waitUntil (instant now : Nat) : IO Unit := do
  if now < instant then
    IO.sleep (UInt32.ofNat ((instant - now) / 1000000))

/-- Poll a scheduler by the real clock until its run is over. -/
partial def follow (last : Nat) (turn : Turn) : IO Exit := do
  let now ← IO.monoNanosNow
  let run := Scheduler.pollThrough (some last) [now] { turn with activity := #[] }
  match run.ended with
  | some result => return conclude run.turn.scheduler result
  | none =>
    waitUntil (min last ((run.turn.scheduler.deadline?).getD last)) now
    follow last run.turn

def execute (arguments : List String) : IO Exit := do
  let request := parse arguments
  let files ← gather (namedFiles request)
  let surroundings := shipped files (← chanceKey)
  let now ← IO.monoNanosNow
  match request with
  | some (.run file seconds config) =>
    match surroundings.prepare now file config with
    | .error _ => return Exit.failed
    | .ok scheduler => follow (deadline now seconds) (scheduler.activate now)
  | _ => return ((surroundings.perform now [] arguments).getD Exit.failed)

end ChipEight.CommandLine

def main (arguments : List String) : IO UInt32 := do
  let exit ← ChipEight.CommandLine.execute arguments
  IO.print exit.output
  return exit.status.toUInt32
