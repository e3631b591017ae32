/-
This file holds the content of a YAML document as a tree, and builds the tree from
tokens.

A text holds at most one document here: a second one is refused. Where a value is
missing its place is taken by an empty plain scalar. Each function below gives
back a tree and the tokens behind it. They call each other as collections nest,
and every call that goes deeper takes one step from a supply that starts larger
than the number of tokens.
-/

import ChipEight.Yaml.Token

namespace ChipEight.Yaml

/-- The content of a document. -/
inductive Node
  | scalar (style : ScalarStyle) (text : String)
  | sequence (items : List Node)
  | mapping (entries : List (Node × Node))

namespace Node

/-- What stands where a value is missing. -/
def empty : Node := .scalar .plain ""

/-- Where a node may stand, which decides what it may be. -/
inductive Position
  /-- Inside a flow collection: no block collection. -/
  | flow
  /-- An item of a block sequence, or a whole document. -/
  | block
  /-- A key or value of a block mapping. A sequence here may go without indentation. -/
  | entry
  deriving DecidableEq, Repr

/-- Whether a token ends the place of a node without being a node, in a block mapping. -/
def endsEntry : List Token → Bool
  | .key :: _ => true
  | .value :: _ => true
  | .blockEnd :: _ => true
  | _ => false

/-- Whether a token ends the place of a node without being a node, in a block sequence. -/
def endsItem : List Token → Bool
  | .blockEntry :: _ => true
  | .blockEnd :: _ => true
  | _ => false

/-- Whether a token ends the place of a node without being a node, in a sequence without
indentation. -/
def endsLooseItem (tokens : List Token) : Bool := endsItem tokens || endsEntry tokens

/-- Whether a token ends the place of a node without being a node, in a flow collection with
the given end. -/
def endsFlowPart (last : Token) : List Token → Bool
  | .value :: _ => true
  | .flowEntry :: _ => true
  | token :: _ => token = last
  | [] => false

mutual

def build : Nat → Position → List Token → Option (Node × List Token)
  | 0, _, _ => none
  | steps + 1, position, tokens =>
    match tokens, position with
    | .scalar style text :: rest, _ => some (.scalar style text, rest)
    | .flowSequenceStart :: rest, _ =>
      (buildFlowItems steps true rest).map fun built => (.sequence built.1, built.2)
    | .flowMappingStart :: rest, _ =>
      (buildFlowEntries steps true rest).map fun built => (.mapping built.1, built.2)
    | .blockEntry :: _, .entry =>
      (buildLooseItems steps tokens).map fun built => (.sequence built.1, built.2)
    | _, .flow => none
    | .blockSequenceStart :: rest, _ =>
      (buildItems steps rest).map fun built => (.sequence built.1, built.2)
    | .blockMappingStart :: rest, _ =>
      (buildEntries steps rest).map fun built => (.mapping built.1, built.2)
    | _, _ => none

/-- Build the node that comes next, or an empty one if its place has ended. -/
def buildUnless : Nat → Bool → Position → List Token → Option (Node × List Token)
  | 0, _, _, _ => none
  | steps + 1, ended, position, tokens =>
    if ended then some (empty, tokens) else build steps position tokens

/-- Build the entries of a block mapping, with the end of the mapping. Each entry needs its
key token; a value alone is no entry. -/
def buildEntries : Nat → List Token → Option (List (Node × Node) × List Token)
  | 0, _ => none
  | steps + 1, tokens =>
    match tokens with
    | .blockEnd :: rest => some ([], rest)
    | .key :: rest => do
      let (key, behindKey) ← buildUnless steps (endsEntry rest) .entry rest
      buildEntry steps key behindKey
    | _ => none

/-- Build the value that belongs to a key in a block mapping, and the entries behind it. -/
def buildEntry : Nat → Node → List Token → Option (List (Node × Node) × List Token)
  | 0, _, _ => none
  | steps + 1, key, tokens => do
    let (value, behindValue) ←
      match tokens with
      | .value :: rest => buildUnless steps (endsEntry rest) .entry rest
      | _ => some (empty, tokens)
    let (entries, behind) ← buildEntries steps behindValue
    some ((key, value) :: entries, behind)

/-- Build the items of a block sequence, with the end of the sequence. -/
def buildItems : Nat → List Token → Option (List Node × List Token)
  | 0, _ => none
  | steps + 1, tokens =>
    match tokens with
    | .blockEnd :: rest => some ([], rest)
    | .blockEntry :: rest => do
      let (item, behindItem) ← buildUnless steps (endsItem rest) .block rest
      let (items, behind) ← buildItems steps behindItem
      some (item :: items, behind)
    | _ => none

/-- Build the items of a sequence without indentation, which ends where no item follows. -/
def buildLooseItems : Nat → List Token → Option (List Node × List Token)
  | 0, _ => none
  | steps + 1, tokens =>
    match tokens with
    | .blockEntry :: rest => do
      let (item, behindItem) ← buildUnless steps (endsLooseItem rest) .block rest
      let (items, behind) ← buildLooseItems steps behindItem
      some (item :: items, behind)
    | _ => some ([], tokens)

/-- Build the items of a flow sequence, with its end. Between two items stands a comma, and
one may stand behind the last. -/
def buildFlowItems : Nat → Bool → List Token → Option (List Node × List Token)
  | 0, _, _ => none
  | steps + 1, first, tokens =>
    match tokens, first with
    | .flowSequenceEnd :: rest, _ => some ([], rest)
    | .flowEntry :: .flowSequenceEnd :: rest, false => some ([], rest)
    | .flowEntry :: rest, false => buildFlowItem steps rest
    | _, true => buildFlowItem steps tokens
    | _, false => none

/-- Build one item of a flow sequence and those behind it. An item with a key is a mapping of
one entry. A key mark with no key behind it takes the token that follows as the place of the
key, so a comma or a bracket there does not end the item. -/
def buildFlowItem : Nat → List Token → Option (List Node × List Token)
  | 0, _ => none
  | steps + 1, tokens => do
    let (item, behindItem) ←
      match tokens with
      | .key :: rest => do
        let ended := endsFlowPart .flowSequenceEnd rest
        let (key, behindKey) ← buildUnless steps ended .flow rest
        let (value, behindValue) ←
          buildFlowValue steps .flowSequenceEnd (if ended then behindKey.drop 1 else behindKey)
        some (.mapping [(key, value)], behindValue)
      | _ => build steps .flow tokens
    let (items, behind) ← buildFlowItems steps false behindItem
    some (item :: items, behind)

/-- Build the value behind a key in a flow collection with the given end. -/
def buildFlowValue : Nat → Token → List Token → Option (Node × List Token)
  | 0, _, _ => none
  | steps + 1, last, tokens =>
    match tokens with
    | .value :: rest => buildUnless steps (endsFlowPart last rest) .flow rest
    | _ => some (empty, tokens)

/-- Build the entries of a flow mapping, with its end. Between two entries stands a comma, and
one may stand behind the last. -/
def buildFlowEntries : Nat → Bool → List Token → Option (List (Node × Node) × List Token)
  | 0, _, _ => none
  | steps + 1, first, tokens =>
    match tokens, first with
    | .flowMappingEnd :: rest, _ => some ([], rest)
    | .flowEntry :: .flowMappingEnd :: rest, false => some ([], rest)
    | .flowEntry :: rest, false => buildFlowEntry steps rest
    | _, true => buildFlowEntry steps tokens
    | _, false => none

/-- Build one entry of a flow mapping and those behind it. An entry without a key token is a
key without a value. -/
def buildFlowEntry : Nat → List Token → Option (List (Node × Node) × List Token)
  | 0, _ => none
  | steps + 1, tokens => do
    let (entry, behindEntry) ←
      match tokens with
      | .key :: rest => do
        let (key, behindKey) ←
          buildUnless steps (endsFlowPart .flowMappingEnd rest) .flow rest
        let (value, behindValue) ← buildFlowValue steps .flowMappingEnd behindKey
        some ((key, value), behindValue)
      | _ => (build steps .flow tokens).map fun built => ((built.1, empty), built.2)
    let (entries, behind) ← buildFlowEntries steps false behindEntry
    some (entry :: entries, behind)

end

/-- Whether nothing but ends of the document follow. -/
def onlyEnds (tokens : List Token) : Bool := tokens.all (· = .documentEnd)

/-- Whether the document has ended, and with it the place of its content. -/
def endsDocument : List Token → Bool
  | [] => true
  | .documentStart :: _ => true
  | .documentEnd :: _ => true
  | _ => false

/-- The content of the document that tokens stand for. -/
def ofTokens? (tokens : List Token) : Option Node :=
  let steps := 4 * tokens.length + 4
  let built :=
    match tokens with
    | [] => some (empty, [])
    | .documentStart :: rest => buildUnless steps (endsDocument rest) .block rest
    | _ => build steps .block tokens
  match built with
  | some (node, rest) => if onlyEnds rest then some node else none
  | none => none

/-- The content of the document that a text holds. A text without a document holds an empty
one. -/
def ofText? (text : String) : Option Node := (tokens? text).bind ofTokens?

end Node

end ChipEight.Yaml
