/-
This file holds the reader of settings files that the program comes with. Nothing
but the outermost layer depends on it.

A file is a YAML mapping whose keys are scalars, or has no content at all. Only
the part of YAML that such files are written in is read: block and flow mappings
and sequences, and plain and quoted scalars. Tags, anchors, aliases, directives
and block scalars are refused wherever they stand.

A number is a plain scalar: decimal digits, or digits behind `0x`, `0o` or `0b`,
with a plus sign in front or not. Decimal digits with a zero in front are refused,
since that notation does not mean the same everywhere. Where a number may be left
out, an empty scalar or one of the ways to write null leaves it out. A name that
comes again is refused if it is the name of a setting.
-/

import ChipEight.Numeral.Reading
import ChipEight.Settings.File
import ChipEight.Yaml.Node

namespace ChipEight.Yaml

/-! ### Numbers -/

/-- Whether digits start with a zero that other digits follow. -/
def hasLeadingZero : List Char → Bool
  | '0' :: second :: rest => (second :: rest).all Char.isDigit
  | _ => false

def readDecimal? (chars : List Char) : Option UInt64 :=
  if hasLeadingZero chars then none else Numeral.readBase64? 10 chars

def readInteger? (text : String) : Option UInt64 :=
  match Numeral.dropPlus text.toList with
  | '0' :: 'x' :: rest => Numeral.readBase64? 16 rest
  | '0' :: 'o' :: rest => Numeral.readBase64? 8 rest
  | '0' :: 'b' :: rest => Numeral.readBase64? 2 rest
  | chars => readDecimal? chars

/-- Whether a plain scalar stands for nothing. -/
def isNull (text : String) : Bool :=
  text = "" || text = "~" || text = "null" || text = "Null" || text = "NULL"

/-! ### Entries -/

/-- A value as such, or the words of why there is none. -/
def orRefuse {Value : Type} (words : String) : Option Value → Except String Value
  | some value => .ok value
  | none => .error words

namespace Node

/-- The number that a node stands for, if it is a plain scalar. -/
def number? : Node → Option UInt64
  | .scalar .plain text => readInteger? text
  | _ => none

/-- The number that a node stands for, or nothing if it stands for nothing. -/
def optional? : Node → Option (Option UInt64)
  | .scalar .plain text => if isNull text then some none else (readInteger? text).map some
  | _ => none

/-- The name that a node is. -/
def name? : Node → Option String
  | .scalar _ text => some text
  | _ => none

/-- The entries of a mapping, by name. A document without content has none. -/
def entries? : Node → Option (List (String × Node))
  | .scalar .plain text => if text = "" then some [] else none
  | .mapping entries => entries.mapM fun entry => entry.1.name?.map fun name => (name, entry.2)
  | _ => none

end Node

/-- The reader of settings files in YAML. -/
def reader : Settings.Reader where
  Value := Node
  entries text := orRefuse "not a mapping" ((Node.ofText? text).bind Node.entries?)
  allow given name :=
    if name ∈ given ∧ (Settings.Field.ofName? name).isSome then
      .error ("duplicate field " ++ name)
    else .ok ()
  unsigned value := orRefuse "not an unsigned number of 64 bits" value.number?
  optional value := orRefuse "not an unsigned number of 64 bits" value.optional?

end ChipEight.Yaml
