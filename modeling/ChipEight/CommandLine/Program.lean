/-
This file completes the program with the reader of settings files and the
generator of random bytes that it comes with.
-/

import ChipEight.CommandLine.Surroundings
import ChipEight.Keystream
import ChipEight.Yaml.Reader

namespace ChipEight

/-- The settings that the text of a file stands for, or the error it is. -/
def Settings.read (text : String) : Except Error Settings :=
  (ofText Yaml.reader text).mapError Error.settings

namespace CommandLine

/-- Surroundings with the given files, in which the key gives the random bytes of machines
without a seed. -/
def shipped (files : Files) (key : KeystreamKey) : Surroundings :=
  ⟨files, Yaml.reader, Keystream.generator key⟩

/-- The program as it comes. -/
def perform (files : Files) (key : KeystreamKey) (now : Nat) (readings : List Nat)
    (arguments : List String) : Option Exit :=
  (shipped files key).perform now readings arguments

end CommandLine

end ChipEight
