/-
This file reads the scalars of a YAML text: plain ones, which end where the text
stops looking like one, and quoted ones, which end at their closing quote.

A scalar may run over several lines. Blanks around a line break do not belong to
it, one break reads as a space, and of several breaks all but the first are kept.
What lies between two words of a scalar is its gap. In a plain scalar the gap
after the last word is dropped; in a quoted one it is kept.

Each reader goes through the characters one by one and gives back the text of the
scalar and what follows it, or nothing if the text is malformed.
-/

import ChipEight.Yaml.Source

namespace ChipEight.Yaml

/-! ### Gaps -/

/-- The blanks and line breaks since the last word. -/
structure Gap where
  /-- The blanks before any break, the last one first. -/
  blanks : List Char := []
  /-- Whether there was a break. -/
  broken : Bool := false
  /-- Whether the first break reads as a space if it stays alone. An escaped one does not. -/
  folds : Bool := false
  /-- The number of breaks after the first. -/
  more : Nat := 0
  deriving DecidableEq, Repr

namespace Gap

def isEmpty (gap : Gap) : Bool := gap.blanks.isEmpty && !gap.broken

/-- The gap after one more blank. Blanks after a break do not count. -/
def addBlank (gap : Gap) (char : Char) : Gap :=
  if gap.broken then gap else { gap with blanks := char :: gap.blanks }

def addBreak (gap : Gap) : Gap :=
  if gap.broken then { gap with more := gap.more + 1 }
  else { blanks := [], broken := true, folds := true, more := 0 }

/-- The gap that an escaped line break starts. -/
def escapedBreak : Gap := { blanks := [], broken := true, folds := false, more := 0 }

/-- What a gap adds to a scalar, the last character first. -/
def text (gap : Gap) : List Char :=
  if !gap.broken then gap.blanks
  else if gap.folds && gap.more = 0 then [' ']
  else List.replicate gap.more '\n'

end Gap

/-- A scalar while it is read: its text with the last character first, and the gap since. -/
structure Draft where
  text : List Char := []
  gap : Gap := {}
  deriving DecidableEq, Repr

namespace Draft

def addBlank (draft : Draft) (char : Char) : Draft :=
  { draft with gap := draft.gap.addBlank char }

def addBreak (draft : Draft) : Draft := { draft with gap := draft.gap.addBreak }

def closeGap (draft : Draft) : Draft := ⟨draft.gap.text ++ draft.text, {}⟩

def addChar (draft : Draft) (char : Char) : Draft :=
  let closed := draft.closeGap
  { closed with text := char :: closed.text }

def result (draft : Draft) : String := String.ofList draft.text.reverse

end Draft

/-- A scalar that was read, and what follows it. -/
structure Lexeme where
  text : String
  /-- Whether the scalar was followed by a line break that went with it. -/
  endedLine : Bool
  rest : Remainder
  deriving DecidableEq, Repr

/-! ### Plain scalars -/

/-- Whether a character belongs to the notation of flow collections. -/
def isFlowIndicator (char : Char) : Bool :=
  char = ',' || char = '[' || char = ']' || char = '{' || char = '}'

/-- Whether a word of a plain scalar ends before a character with the given text after it. -/
def endsPlain (inFlow : Bool) (char : Char) (rest : List Char) : Bool :=
  (char = ':' && atWordEnd rest) || (inFlow && isFlowIndicator char)

/-- Whether a plain scalar ends at the start of a word that follows a gap: at a line that is
not indented enough, at a document marker or at a comment. -/
def endsAfterGap (inFlow : Bool) (indent : Nat) (here : Remainder) : Bool :=
  (!inFlow && here.place.column < indent) || here.atMarker '-' || here.atMarker '.'
    || here.chars.head? = some '#'

/-- Whether a colon in a flow collection stands before notation, which is refused. -/
def isColonBeforeFlow (inFlow : Bool) (char : Char) (rest : List Char) : Bool :=
  inFlow && char = ':' && rest.head?.any fun next => isFlowIndicator next || next = '?'

/-- The scalar that a draft of a plain scalar has become. -/
def endPlain (draft : Draft) (rest : Remainder) : Lexeme :=
  ⟨draft.result, draft.gap.broken, rest⟩

/-- Read a plain scalar. Lines after the first must be indented by at least `indent`, and not
with tabs, except in a flow collection. -/
def readPlain (inFlow : Bool) (indent : Nat) : Draft → Place → List Char → Option Lexeme
  | draft, place, [] => some (endPlain draft ⟨place, []⟩)
  | draft, place, char :: rest =>
    if isBlank char then
      if char = '\t' && draft.gap.broken && place.column < indent then none
      else readPlain inFlow indent (draft.addBlank char) (place.after char) rest
    else if char = '\n' then
      readPlain inFlow indent draft.addBreak (place.after char) rest
    else if !draft.gap.isEmpty && endsAfterGap inFlow indent ⟨place, char :: rest⟩ then
      some (endPlain draft ⟨place, char :: rest⟩)
    else if isColonBeforeFlow inFlow char rest then none
    else if endsPlain inFlow char rest then
      some (endPlain draft ⟨place, char :: rest⟩)
    else readPlain inFlow indent (draft.addChar char) (place.after char) rest

/-! ### Quoted scalars -/

/-- Whether a quoted scalar meets a document marker, which it must not. -/
def meetsMarker (place : Place) (chars : List Char) : Bool :=
  let here : Remainder := ⟨place, chars⟩
  here.atMarker '-' || here.atMarker '.'

/-- The scalar that a draft of a quoted scalar has become. Its gap is part of it. -/
def endQuoted (draft : Draft) (rest : Remainder) : Lexeme :=
  ⟨draft.closeGap.result, false, rest⟩

/-- Read a scalar in single quotes, from behind the opening quote. Two quotes stand for one. -/
def readSingle : Draft → Place → List Char → Option Lexeme
  | _, _, [] => none
  | draft, place, char :: rest =>
    if meetsMarker place (char :: rest) then none
    else if isBlank char then readSingle (draft.addBlank char) (place.after char) rest
    else if char = '\n' then readSingle draft.addBreak (place.after char) rest
    else if char = '\x27' then
      match rest with
      | '\x27' :: more =>
        readSingle (draft.addChar char) ((place.after char).after char) more
      | _ => some (endQuoted draft ⟨place.after char, rest⟩)
    else readSingle (draft.addChar char) (place.after char) rest

/-- What the reader of a scalar in double quotes expects. -/
inductive Expectation
  /-- The next character stands for itself. -/
  | char
  /-- A backslash came just before. -/
  | escape
  /-- As many hexadecimal digits are missing from a code point of which the first digits had
  the given value. -/
  | digits (missing value : Nat)
  deriving DecidableEq, Repr

/-- The character that an escape of one letter stands for. -/
def escaped? (letter : Char) : Option Char :=
  match letter with
  | '0' => some (Char.ofNat 0)
  | 'a' => some (Char.ofNat 7)
  | 'b' => some (Char.ofNat 8)
  | 't' => some '\t'
  | '\t' => some '\t'
  | 'n' => some '\n'
  | 'v' => some (Char.ofNat 11)
  | 'f' => some (Char.ofNat 12)
  | 'r' => some '\r'
  | 'e' => some (Char.ofNat 27)
  | ' ' => some ' '
  | '\x22' => some '\x22'
  | '/' => some '/'
  | '\x5c' => some '\x5c'
  | 'N' => some (Char.ofNat 0x85)
  | '_' => some (Char.ofNat 0xA0)
  | 'L' => some (Char.ofNat 0x2028)
  | 'P' => some (Char.ofNat 0x2029)
  | _ => none

/-- The number of hexadecimal digits that an escape letter asks for. -/
def digitCount? (letter : Char) : Option Nat :=
  match letter with
  | 'x' => some 2
  | 'u' => some 4
  | 'U' => some 8
  | _ => none

def hexValue? (char : Char) : Option Nat :=
  let code := char.toNat
  if 48 ≤ code && code ≤ 57 then some (code - 48)
  else if 65 ≤ code && code ≤ 70 then some (code - 55)
  else if 97 ≤ code && code ≤ 102 then some (code - 87)
  else none

/-- The character with a code point, if the code point is one. -/
def charOfCode? (code : Nat) : Option Char :=
  if code.isValidChar then some (Char.ofNat code) else none

/-- Read a scalar in double quotes, from behind the opening quote. -/
def readDouble : Expectation → Draft → Place → List Char → Option Lexeme
  | _, _, _, [] => none
  | .char, draft, place, char :: rest =>
    if meetsMarker place (char :: rest) then none
    else if isBlank char then readDouble .char (draft.addBlank char) (place.after char) rest
    else if char = '\n' then readDouble .char draft.addBreak (place.after char) rest
    else if char = '\x22' then some (endQuoted draft ⟨place.after char, rest⟩)
    else if char = '\x5c' then readDouble .escape draft.closeGap (place.after char) rest
    else readDouble .char (draft.addChar char) (place.after char) rest
  | .escape, draft, place, char :: rest =>
    if char = '\n' then
      readDouble .char { draft with gap := Gap.escapedBreak } (place.after char) rest
    else
      match escaped? char, digitCount? char with
      | some meant, _ => readDouble .char (draft.addChar meant) (place.after char) rest
      | none, some count => readDouble (.digits count 0) draft (place.after char) rest
      | none, none => none
  | .digits missing value, draft, place, char :: rest =>
    match hexValue? char with
    | none => none
    | some digit =>
      let total := 16 * value + digit
      if missing ≤ 1 then
        match charOfCode? total with
        | some meant => readDouble .char (draft.addChar meant) (place.after char) rest
        | none => none
      else readDouble (.digits (missing - 1) total) draft (place.after char) rest

end ChipEight.Yaml
