/-
This file holds the tokens of a YAML text and reads a text into them.

Block collections show in the text only by their columns, so the reader keeps the
columns of those that are open and makes tokens for where they start and end. A
mapping key shows only by the colon behind it. So each place where a key could
start is kept in mind, and when the colon comes, the key token goes in there, in
front of tokens that have been made already. A key has to be followed by its
colon on its own line and not too far away; in a block mapping a line that starts
where the keys are must have one.
-/

import ChipEight.Yaml.Scalar

namespace ChipEight.Yaml

/-- How a scalar is written. -/
inductive ScalarStyle
  | plain
  | quoted
  deriving DecidableEq, Repr

/-- A token of a text. -/
inductive Token
  | documentStart
  | documentEnd
  | blockSequenceStart
  | blockMappingStart
  | blockEnd
  | blockEntry
  | flowSequenceStart
  | flowSequenceEnd
  | flowMappingStart
  | flowMappingEnd
  | flowEntry
  | key
  | value
  | scalar (style : ScalarStyle) (text : String)
  deriving DecidableEq, Repr

/-- A place where a key could have started. -/
structure KeyMark where
  /-- How many tokens stood before the place. -/
  tokenCount : Nat
  place : Place
  /-- Whether a key has to be there. -/
  required : Bool
  deriving DecidableEq, Repr

namespace KeyMark

/-- How many bytes of UTF-8 may stand between the start of a key and its colon. -/
def reach : Nat := 1024

/-- Whether a colon at a place still belongs to the key. -/
def reaches (mark : KeyMark) (place : Place) : Bool :=
  mark.place.line = place.line && place.offset ≤ mark.place.offset + reach

end KeyMark

/-- The reader of tokens in the middle of its work. -/
structure Lexer where
  rest : Remainder
  /-- The tokens so far, the last one first. -/
  tokens : List Token
  /-- The columns of the open block collections, the innermost first. -/
  columns : List Nat
  /-- The mark of the innermost collection. -/
  mark : Option KeyMark
  /-- The marks of what encloses each open flow collection, the innermost first. -/
  outer : List (Option KeyMark)
  /-- Whether a key may start here. -/
  keyAllowed : Bool
  deriving DecidableEq, Repr

namespace Lexer

def start (chars : List Char) : Lexer := ⟨⟨Place.start, chars⟩, [], [], none, [], true⟩

def inFlow (lexer : Lexer) : Bool := !lexer.outer.isEmpty

/-- The least column of a line that belongs to what the innermost block collection holds. -/
def indent (lexer : Lexer) : Nat :=
  match lexer.columns with
  | [] => 0
  | column :: _ => column + 1

def column (lexer : Lexer) : Nat := lexer.rest.place.column

def push (lexer : Lexer) (token : Token) : Lexer :=
  { lexer with tokens := token :: lexer.tokens }

def skip (lexer : Lexer) (count : Nat) : Lexer :=
  { lexer with rest := lexer.rest.skip count }

def allowKey (lexer : Lexer) (allowed : Bool) : Lexer := { lexer with keyAllowed := allowed }

/-! ### Space between tokens -/

/-- Skip blanks, comments and line breaks, starting inside a comment or not. A line break
allows keys, and where keys are allowed tabs are not blank. One byte order mark at the start of
a line is blank too. -/
def skipSpace (inFlow : Bool) : Bool → Bool → Place → List Char → Bool × Remainder
  | _, allowed, place, [] => (allowed, ⟨place, []⟩)
  | comment, allowed, place, char :: rest =>
    if char = '\n' then skipSpace inFlow false (allowed || !inFlow) (place.after char) rest
    else if comment then skipSpace inFlow true allowed (place.after char) rest
    else if char = ' ' || (char = '\t' && (inFlow || !allowed)) then
      skipSpace inFlow false allowed (place.after char) rest
    else if char = '#' then skipSpace inFlow true allowed (place.after char) rest
    else if char = '\uFEFF' && place.column = 0 then
      skipSpace inFlow false allowed (place.after char) rest
    else (allowed, ⟨place, char :: rest⟩)

def toNext (lexer : Lexer) : Lexer :=
  let (allowed, rest) :=
    skipSpace lexer.inFlow false lexer.keyAllowed lexer.rest.place lexer.rest.chars
  { lexer with rest := rest, keyAllowed := allowed }

/-! ### Block collections -/

/-- End the block collections that stand further right than a column, given as one more than
the last column that stays. -/
def closeBlocks (limit : Nat) : List Nat → List Token → List Nat × List Token
  | [], tokens => ([], tokens)
  | column :: columns, tokens =>
    if limit ≤ column then closeBlocks limit columns (.blockEnd :: tokens)
    else (column :: columns, tokens)

/-- End block collections, unless a flow collection is open. -/
def close (lexer : Lexer) (limit : Nat) : Lexer :=
  if lexer.inFlow then lexer
  else
    let (columns, tokens) := closeBlocks limit lexer.columns lexer.tokens
    { lexer with columns := columns, tokens := tokens }

/-- Whether a block collection has to be opened for something that stands at a column. -/
def opensAt (lexer : Lexer) (column : Nat) : Bool := !lexer.inFlow && lexer.indent ≤ column

/-- Open a block collection at a column if one has to be. -/
def openBlock (lexer : Lexer) (column : Nat) (token : Token) : Lexer :=
  if lexer.opensAt column then
    { lexer.push token with columns := column :: lexer.columns }
  else lexer

/-! ### Keys -/

/-- Give up the mark of the innermost collection, which must not be required. -/
def dropMark (lexer : Lexer) : Option Lexer :=
  match lexer.mark with
  | some mark => if mark.required then none else some { lexer with mark := none }
  | none => some lexer

/-- Remember that a key could start here, if one is allowed to. In a block mapping a line that
starts where the keys are has to be one. -/
def markKey (lexer : Lexer) : Option Lexer :=
  if lexer.keyAllowed then
    (lexer.dropMark).map fun dropped =>
      { dropped with
        mark := some
          { tokenCount := lexer.tokens.length
            place := lexer.rest.place
            required := !lexer.inFlow && lexer.columns.head? = some lexer.column } }
  else some lexer

/-- Put tokens in at an earlier place. The tokens are given in the order of the text. -/
def insertAt (tokens : List Token) (count : Nat) (inserted : List Token) : List Token :=
  let later := tokens.length - count
  tokens.take later ++ inserted.reverse ++ tokens.drop later

/-- Turn what stands at a mark into a key, opening a block mapping for it if one has to be. -/
def makeKey (lexer : Lexer) (mark : KeyMark) : Lexer :=
  let column := mark.place.column
  if lexer.opensAt column then
    { lexer with
      tokens := insertAt lexer.tokens mark.tokenCount [.blockMappingStart, .key]
      columns := column :: lexer.columns
      mark := none }
  else
    { lexer with
      tokens := insertAt lexer.tokens mark.tokenCount [.key]
      mark := none }

/-! ### Tokens -/

/-- Read a document marker. It ends all block collections. -/
def readMarker (lexer : Lexer) (token : Token) : Option Lexer :=
  ((lexer.close 0).dropMark).map fun dropped => ((dropped.allowKey false).push token).skip 3

/-- Read the opening bracket of a flow collection. A key may start with it. -/
def readFlowStart (lexer : Lexer) (token : Token) : Option Lexer :=
  lexer.markKey.map fun marked =>
    { (marked.push token).skip 1 with
      outer := marked.mark :: marked.outer
      mark := none
      keyAllowed := true }

def readFlowEnd (lexer : Lexer) (token : Token) : Option Lexer :=
  lexer.dropMark.map fun dropped =>
    let closed := ((dropped.allowKey false).push token).skip 1
    match dropped.outer with
    | [] => closed
    | mark :: outer => { closed with mark := mark, outer := outer }

/-- Read the comma between the entries of a flow collection. -/
def readFlowEntry (lexer : Lexer) : Option Lexer :=
  lexer.dropMark.map fun dropped => ((dropped.allowKey true).push .flowEntry).skip 1

def readBlockEntry (lexer : Lexer) : Option Lexer :=
  if lexer.inFlow || lexer.keyAllowed then
    (lexer.openBlock lexer.column .blockSequenceStart).dropMark.map fun dropped =>
      ((dropped.allowKey true).push .blockEntry).skip 1
  else none

def readKey (lexer : Lexer) : Option Lexer :=
  if lexer.inFlow || lexer.keyAllowed then
    (lexer.openBlock lexer.column .blockMappingStart).dropMark.map fun dropped =>
      ((dropped.allowKey (!dropped.inFlow)).push .key).skip 1
  else none

/-- Read a colon that belongs to no mark. -/
def readLoneValue (lexer : Lexer) : Option Lexer :=
  if lexer.inFlow || lexer.keyAllowed then
    let opened := lexer.openBlock lexer.column .blockMappingStart
    some (((opened.allowKey (!opened.inFlow)).push .value).skip 1)
  else none

def readValue (lexer : Lexer) : Option Lexer :=
  match lexer.mark with
  | some mark =>
    if mark.reaches lexer.rest.place then
      some ((((lexer.makeKey mark).allowKey false).push .value).skip 1)
    else if mark.required then none
    else { lexer with mark := none }.readLoneValue
  | none => lexer.readLoneValue

def readScalar (lexer : Lexer) (style : ScalarStyle) (lexeme : Option Lexeme) : Option Lexer :=
  match lexer.markKey, lexeme with
  | some marked, some lexeme =>
    some
      { marked.push (.scalar style lexeme.text) with
        rest := lexeme.rest
        keyAllowed := lexeme.endedLine }
  | _, _ => none

def readPlainScalar (lexer : Lexer) : Option Lexer :=
  lexer.readScalar .plain
    (readPlain lexer.inFlow lexer.indent {} lexer.rest.place lexer.rest.chars)

def readQuotedScalar (lexer : Lexer) (read : Place → List Char → Option Lexeme) :
    Option Lexer :=
  let inside := lexer.rest.skip 1
  lexer.readScalar .quoted (read inside.place inside.chars)

def startsNothing (char : Char) : Bool :=
  isBlank char || char = '#' || char = '&' || char = '*' || char = '!' || char = '|'
    || char = '>' || char = '%' || char = '@' || char.toNat = 0x60

def readAt (lexer : Lexer) (char : Char) (after : List Char) : Option Lexer :=
  if lexer.rest.atMarker '-' then lexer.readMarker .documentStart
  else if lexer.rest.atMarker '.' then lexer.readMarker .documentEnd
  else if char = '[' then lexer.readFlowStart .flowSequenceStart
  else if char = '{' then lexer.readFlowStart .flowMappingStart
  else if char = ']' then lexer.readFlowEnd .flowSequenceEnd
  else if char = '}' then lexer.readFlowEnd .flowMappingEnd
  else if char = ',' then lexer.readFlowEntry
  else if char = '-' && atWordEnd after then lexer.readBlockEntry
  else if char = '?' && (lexer.inFlow || atWordEnd after) then lexer.readKey
  else if char = ':' && (lexer.inFlow || atWordEnd after) then lexer.readValue
  else if char = '\x27' then lexer.readQuotedScalar (readSingle {})
  else if char = '\x22' then lexer.readQuotedScalar (readDouble .char {})
  else if startsNothing char then none
  else lexer.readPlainScalar

def finish (lexer : Lexer) : Option (List Token) :=
  ((lexer.close 0).dropMark).map fun dropped => dropped.tokens.reverse

/-- Read the tokens of the rest of a text. Each token takes at least one character, so there
are no more steps than characters. -/
def readAll : Nat → Lexer → Option (List Token)
  | 0, _ => none
  | steps + 1, lexer =>
    let next := lexer.toNext
    match next.rest.chars with
    | [] => next.finish
    | char :: after =>
      match (next.close (next.column + 1)).readAt char after with
      | some read => readAll steps read
      | none => none

end Lexer

def tokens? (text : String) : Option (List Token) :=
  match source? text with
  | some chars => Lexer.readAll (chars.length + 1) (Lexer.start chars)
  | none => none

end ChipEight.Yaml
