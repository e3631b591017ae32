/-
This file reads settings from a file.

A settings file is a mapping from the names of settings to numbers. What it does
not mention keeps its default, and the value of a name that is no setting is
passed over.

How the text of a file becomes entries and an entry a number is not decided here
but by a reader, and so is whether a name may come again. The entries are taken
in the order of the file, and the first thing that the reader refuses makes the
file an error, in the words of the reader.
-/

import ChipEight.Settings

namespace ChipEight

namespace Settings

/-- What reads the text of a file. -/
structure Reader where
  /-- What stands behind a name. -/
  Value : Type
  /-- The names of a mapping with what stands behind them, in the order of the text. -/
  entries : String → Except String (List (String × Value))
  /-- Whether a name may stand in a record behind those that were given before. -/
  allow : List String → String → Except String Unit
  /-- An unsigned number of 64 bits. -/
  unsigned : Value → Except String UInt64
  /-- An unsigned number of 64 bits, or nothing. -/
  optional : Value → Except String (Option UInt64)

/-- The name of a setting. -/
inductive Field
  | tickrate
  | cyclesPerTick
  | timerFrequency
  | seed
  deriving DecidableEq, Repr

namespace Field

def all : List Field := [tickrate, cyclesPerTick, timerFrequency, seed]

def name : Field → String
  | tickrate => "tickrate_ms"
  | cyclesPerTick => "cycles_per_tick"
  | timerFrequency => "timer_frequency"
  | seed => "seed"

def ofName? (name : String) : Option Field := all.find? fun field => field.name = name

end Field

/-- The settings with one of them given a value, if the value fits it. -/
def set (reader : Reader) (settings : Settings) (field : Field) (value : reader.Value) :
    Except String Settings :=
  match field with
  | .tickrate =>
    (reader.unsigned value).map fun number => { settings with tickrate := number }
  | .cyclesPerTick =>
    (reader.unsigned value).map fun number => { settings with cyclesPerTick := number }
  | .timerFrequency =>
    (reader.unsigned value).map fun number => { settings with timerFrequency := number }
  | .seed => (reader.optional value).map fun number => { settings with seed := number }

/-- The settings with what stands behind a name put in, if the name is that of a setting. -/
def setNamed (reader : Reader) (settings : Settings) (name : String) (value : reader.Value) :
    Except String Settings :=
  match Field.ofName? name with
  | some field => settings.set reader field value
  | none => .ok settings

/-- The settings after the entries of a mapping, of which some names were given before. -/
def setAll (reader : Reader) (given : List String) (settings : Settings) :
    List (String × reader.Value) → Except String Settings
  | [] => .ok settings
  | (name, value) :: rest => do
    reader.allow given name
    let changed ← settings.setNamed reader name value
    changed.setAll reader (name :: given) rest

/-- The settings that the text of a file stands for. -/
def ofText (reader : Reader) (text : String) : Except String Settings := do
  setAll reader [] {} (← reader.entries text)

end Settings

end ChipEight
