/-
This file holds the characters of a YAML text: which are allowed, how line breaks
are written, and where in the text a character stands.

Control characters are not allowed at all. The line breaks that YAML knows are
all read as one line feed, so what reads the text further on sees only those.
-/

namespace ChipEight.Yaml

def isAllowed (char : Char) : Bool :=
  let code := char.toNat
  code = 0x09 || code = 0x0A || code = 0x0D || (0x20 ≤ code && code ≤ 0x7E) || code = 0x85
    || (0xA0 ≤ code && code ≤ 0xD7FF) || (0xE000 ≤ code && code ≤ 0xFFFD) || 0x10000 ≤ code

/-- Whether a character ends a line by itself: carriage return, line feed, next line, line
separator and paragraph separator. -/
def isLineEnd (char : Char) : Bool :=
  let code := char.toNat
  code = 0x0D || code = 0x0A || code = 0x85 || code = 0x2028 || code = 0x2029

/-- The text with every line break written as a line feed. A carriage return and the line
feed after it are one break. -/
def unifyBreaks : List Char → List Char
  | [] => []
  | [last] => [if isLineEnd last then '\n' else last]
  | first :: second :: rest =>
    if first = '\r' ∧ second = '\n' then '\n' :: unifyBreaks rest
    else (if isLineEnd first then '\n' else first) :: unifyBreaks (second :: rest)

/-- The characters of a text with its line breaks unified, if all of them are allowed. -/
def source? (text : String) : Option (List Char) :=
  if text.toList.all isAllowed then some (unifyBreaks text.toList) else none

def isBlank (char : Char) : Bool := char = ' ' || char = '\t'

/-- Whether a text is at the end of a word: at a blank, at a line break or at its end. -/
def atWordEnd : List Char → Bool
  | [] => true
  | char :: _ => isBlank char || char = '\n'

/-- Whether a text starts with a document marker: three times the character and then the end
of a word. -/
def startsMarker (char : Char) : List Char → Bool
  | first :: second :: third :: rest =>
    first = char && second = char && third = char && atWordEnd rest
  | _ => false

/-- A place in a text. Lines and columns count from zero. -/
structure Place where
  /-- How many bytes of UTF-8 stand before the place. -/
  offset : Nat
  line : Nat
  /-- How many characters stand before the place on its line. -/
  column : Nat
  deriving DecidableEq, Repr

namespace Place

def start : Place := ⟨0, 0, 0⟩

def after (place : Place) (char : Char) : Place :=
  if char = '\n' then ⟨place.offset + char.utf8Size, place.line + 1, 0⟩
  else ⟨place.offset + char.utf8Size, place.line, place.column + 1⟩

end Place

/-- The rest of a text that is still to be read, and where it stands. -/
structure Remainder where
  place : Place
  chars : List Char
  deriving DecidableEq, Repr

namespace Remainder

/-- Whether a document marker of the character stands here, which it does only at the start
of a line. -/
def atMarker (remainder : Remainder) (char : Char) : Bool :=
  remainder.place.column = 0 && startsMarker char remainder.chars

def skip (remainder : Remainder) : Nat → Remainder
  | 0 => remainder
  | count + 1 =>
    match remainder.chars with
    | [] => remainder
    | char :: rest => skip ⟨remainder.place.after char, rest⟩ count

end Remainder

end ChipEight.Yaml
