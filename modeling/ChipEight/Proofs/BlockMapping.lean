/-
This file proves that a block mapping of plain words is read as what it says.

The lines of such a mapping are a name, a colon, a blank and a value each. A word has no
character that means anything to the reader of tokens, so each line takes the reader three
steps: the name, the colon and the value with the line break behind it. The colon turns the name
into a key, and the first colon opens the mapping as well. Between two lines the reader is always
in the same state but for its tokens and its place, which carries the induction.
-/

import ChipEight.Yaml.Node

namespace ChipEight.Yaml

/-! ### Words -/

/-- Digits, letters, underscores and dashes mean nothing in a plain scalar but themselves. -/
def isWordChar (char : Char) : Bool :=
  let code := char.toNat
  (48 ≤ code && code ≤ 57) || (65 ≤ code && code ≤ 90) || (97 ≤ code && code ≤ 122)
    || char = '_' || char = '-'

theorem ne_of_isWordChar {char special : Char} (word : isWordChar char = true)
    (other : isWordChar special = false) : char ≠ special := by
  rintro rfl
  rw [word] at other
  contradiction

theorem not_isBlank_of_isWordChar {char : Char} (word : isWordChar char = true) :
    isBlank char = false := by
  have space := ne_of_isWordChar word (show isWordChar ' ' = false by decide)
  have tab := ne_of_isWordChar word (show isWordChar '\t' = false by decide)
  simp [isBlank, space, tab]

/-- A word is at least one such character, and not a dash alone. -/
structure IsWord (chars : List Char) : Prop where
  all : ∀ char ∈ chars, isWordChar char = true
  filled : chars ≠ []
  not_dash : chars ≠ ['-']

/-- A line of a block mapping: a name and a value, both words. The name does not start like a
document marker, and its colon is near enough for a key. -/
structure Entry where
  name : List Char
  value : List Char
  name_isWord : IsWord name
  name_start : name.head? ≠ some '-'
  name_short : 4 * name.length ≤ KeyMark.reach
  value_isWord : IsWord value

namespace Entry

def chars (entry : Entry) : List Char := entry.name ++ ':' :: ' ' :: entry.value

/-- The place of the value of a line, given the place of the line. -/
def valuePlace (entry : Entry) (place : Place) : Place :=
  ((entry.name.foldl Place.after place).after ':').after ' '

def tokens (entry : Entry) : List Token :=
  [.key, .scalar .plain (String.ofList entry.name), .value,
    .scalar .plain (String.ofList entry.value)]

end Entry

/-- What follows the first line of a block mapping, whose last line may have a line break. -/
def laterChars : List Entry → Bool → List Char
  | [], ended => if ended then ['\n'] else []
  | entry :: rest, ended => '\n' :: (entry.chars ++ laterChars rest ended)

/-! ### Reading a word -/

section Words

variable {word : List Char} (whole : ∀ char ∈ word, isWordChar char = true)

include whole

theorem line_foldl_after (place : Place) : (word.foldl Place.after place).line = place.line := by
  induction word generalizing place with
  | nil => rfl
  | cons char rest previous =>
    obtain ⟨here, later⟩ := List.forall_mem_cons.mp whole
    have kept : char ≠ '\n' := ne_of_isWordChar here (by decide)
    rw [List.foldl_cons, previous later, Place.after, if_neg kept]

theorem offset_foldl_after_le (place : Place) :
    (word.foldl Place.after place).offset ≤ place.offset + 4 * word.length := by
  induction word generalizing place with
  | nil => exact Nat.le_refl _
  | cons char rest previous =>
    obtain ⟨here, later⟩ := List.forall_mem_cons.mp whole
    have kept : char ≠ '\n' := ne_of_isWordChar here (by decide)
    have bound := previous later (place.after char)
    have size := char.utf8Size_le_four
    rw [List.foldl_cons, List.length_cons]
    rw [Place.after, if_neg kept] at bound ⊢
    simp only at bound
    omega

/-- A word goes into the scalar as it is. -/
theorem readPlain_word (indent : Nat) (text : List Char) (place : Place) (rest : List Char) :
    readPlain false indent ⟨text, {}⟩ place (word ++ rest) =
      readPlain false indent ⟨word.reverse ++ text, {}⟩ (word.foldl Place.after place) rest := by
  induction word generalizing text place with
  | nil => rfl
  | cons char others previous =>
    obtain ⟨here, later⟩ := List.forall_mem_cons.mp whole
    have blank := not_isBlank_of_isWordChar here
    have lineFeed : char ≠ '\n' := ne_of_isWordChar here (by decide)
    have colon : char ≠ ':' := ne_of_isWordChar here (by decide)
    have step : readPlain false indent ⟨text, {}⟩ place (char :: others ++ rest) =
        readPlain false indent ⟨char :: text, {}⟩ (place.after char) (others ++ rest) := by
      rw [List.cons_append, readPlain]
      simp [blank, lineFeed, colon, isColonBeforeFlow, endsPlain, Gap.isEmpty, Draft.addChar,
        Draft.closeGap, Gap.text]
    rw [step, previous later]
    simp

end Words

/-- A name ends at its colon. -/
theorem readPlain_name {name : List Char} (whole : ∀ char ∈ name, isWordChar char = true)
    (indent : Nat) (place : Place) (behind : List Char) :
    readPlain false indent {} place (name ++ ':' :: ' ' :: behind) =
      some ⟨String.ofList name, false,
        ⟨name.foldl Place.after place, ':' :: ' ' :: behind⟩⟩ := by
  have read := readPlain_word whole indent [] place (':' :: ' ' :: behind)
  rw [show ({} : Draft) = ⟨[], {}⟩ from rfl, read, readPlain]
  simp [isBlank, Gap.isEmpty, isColonBeforeFlow, endsPlain, atWordEnd, endPlain, Draft.result]

/-- A value ends at the end of the text. -/
theorem readPlain_last {value : List Char} (whole : ∀ char ∈ value, isWordChar char = true)
    (indent : Nat) (place : Place) :
    readPlain false indent {} place value =
      some ⟨String.ofList value, false, ⟨value.foldl Place.after place, []⟩⟩ := by
  have read := readPlain_word whole indent [] place []
  rw [List.append_nil] at read
  rw [show ({} : Draft) = ⟨[], {}⟩ from rfl, read, readPlain]
  simp [endPlain, Draft.result]

/-- A value ends at a line break behind which there is no blank, as nothing that is not indented
goes on with it. -/
theorem readPlain_value {value : List Char} (whole : ∀ char ∈ value, isWordChar char = true)
    (place : Place) {behind : List Char}
    (next : ∀ char, behind.head? = some char → isWordChar char = true) :
    readPlain false 1 {} place (value ++ '\n' :: behind) =
      some ⟨String.ofList value, true,
        ⟨(value.foldl Place.after place).after '\n', behind⟩⟩ := by
  have read := readPlain_word whole 1 [] place ('\n' :: behind)
  rw [show ({} : Draft) = ⟨[], {}⟩ from rfl, read, readPlain]
  have lineBreak : isBlank '\n' = false := rfl
  cases behind with
  | nil => simp [lineBreak, readPlain, endPlain, Draft.result, Draft.addBreak, Gap.addBreak]
  | cons char rest =>
    have here := next char rfl
    have blank := not_isBlank_of_isWordChar here
    have lineFeed : char ≠ '\n' := ne_of_isWordChar here (by decide)
    simp [lineBreak, readPlain, endPlain, Draft.result, Draft.addBreak, Gap.addBreak, blank,
      lineFeed, Gap.isEmpty, endsAfterGap, Place.after]

/-! ### Reading a line -/

namespace Lexer

/-- One step of the reader, with the space before the token skipped already. -/
theorem readAll_succ {lexer next read : Lexer} {char : Char} {after : List Char} (steps : Nat)
    (skipped : lexer.toNext = next) (chars : next.rest.chars = char :: after)
    (success : (next.close (next.column + 1)).readAt char after = some read) :
    readAll (steps + 1) lexer = readAll steps read := by
  rw [readAll, skipped]
  simp only [chars, success]

/-- Nothing is skipped before a character that is no space. -/
theorem toNext_of_chars {lexer : Lexer} {char : Char} {rest : List Char}
    (chars : lexer.rest.chars = char :: rest) (lineFeed : char ≠ '\n')
    (blank : isBlank char = false) (comment : char ≠ '#') (mark : char ≠ '\uFEFF') :
    lexer.toNext = lexer := by
  obtain ⟨⟨place, text⟩, tokens, columns, marked, outer, allowed⟩ := lexer
  obtain rfl : text = char :: rest := chars
  have space : char ≠ ' ' := fun same => by simp [isBlank, same] at blank
  have tab : char ≠ '\t' := fun same => by simp [isBlank, same] at blank
  simp [toNext, skipSpace, lineFeed, comment, mark, space, tab]

/-- A block that starts in the first column stays open behind it. -/
theorem close_of_columns {lexer : Lexer} (shallow : lexer.columns = [] ∨ lexer.columns = [0])
    (limit : Nat) : lexer.close (limit + 1) = lexer := by
  obtain ⟨rest, tokens, columns, mark, outer, allowed⟩ := lexer
  rcases shallow with rfl | rfl <;> cases outer <;> simp [close, inFlow, closeBlocks]

theorem startsMarker_of_ne {marker char : Char} (other : char ≠ marker) (rest : List Char) :
    startsMarker marker (char :: rest) = false := by
  match rest with
  | [] => rfl
  | [_] => rfl
  | _ :: _ :: _ => simp [startsMarker, other]

/-- A word starts a plain scalar. A dash does so only where it cannot start a document marker
and does not stand alone. -/
theorem readAt_word {lexer : Lexer} {char : Char} {after : List Char}
    (chars : lexer.rest.chars = char :: after) (word : isWordChar char = true)
    (dash : char = '-' → lexer.rest.place.column ≠ 0 ∧ atWordEnd after = false) :
    lexer.readAt char after = lexer.readPlainScalar := by
  have other (special : Char) (means : isWordChar special = false) : char ≠ special :=
    ne_of_isWordChar word means
  have noMarker (marker : Char) (apart : char = marker → lexer.rest.place.column ≠ 0) :
      lexer.rest.atMarker marker = false := by
    rw [Remainder.atMarker, chars]
    by_cases same : char = marker
    · simp [apart same]
    · simp [startsMarker_of_ne same]
  have noItem : (char = '-' && atWordEnd after) = false := by
    by_cases same : char = '-'
    · simp [(dash same).2]
    · simp [same]
  have backtick : char.toNat ≠ 0x60 := by
    intro code
    refine other (Char.ofNat 0x60) (by decide) ?_
    rw [← code, Char.ofNat_toNat]
  have nothing : startsNothing char = false := by
    simp [startsNothing, not_isBlank_of_isWordChar word, backtick, other '#' (by decide),
      other '&' (by decide), other '*' (by decide), other '!' (by decide), other '|' (by decide),
      other '>' (by decide), other '%' (by decide), other '@' (by decide)]
  rw [readAt, noMarker '-' fun same => (dash same).1,
    noMarker '.' fun same => absurd same (other '.' (by decide)), noItem, nothing]
  simp [other '[' (by decide), other ']' (by decide), other '{' (by decide),
    other '}' (by decide), other ',' (by decide), other '?' (by decide), other ':' (by decide),
    other '\x27' (by decide), other '\x22' (by decide)]

/-- A colon at the end of a word stands before a value. -/
theorem readAt_colon {lexer : Lexer} {after : List Char} (chars : lexer.rest.chars = ':' :: after)
    (wordEnd : atWordEnd after = true) : lexer.readAt ':' after = lexer.readValue := by
  have noMarker (marker : Char) (other : ':' ≠ marker) : lexer.rest.atMarker marker = false := by
    rw [Remainder.atMarker, chars, startsMarker_of_ne other, Bool.and_false]
  rw [readAt, noMarker '-' (by decide), noMarker '.' (by decide), wordEnd]
  simp

/-- Nothing is skipped before a word. -/
theorem toNext_of_isWordChar {lexer : Lexer} {char : Char} {rest : List Char}
    (chars : lexer.rest.chars = char :: rest) (word : isWordChar char = true) :
    lexer.toNext = lexer :=
  toNext_of_chars chars (ne_of_isWordChar word (by decide)) (not_isBlank_of_isWordChar word)
    (ne_of_isWordChar word (by decide)) (ne_of_isWordChar word (by decide))

/-- What opens a mapping, unless it is open already. -/
def opening (columns : List Nat) : List Token :=
  if columns = [] then [.blockMappingStart] else []

theorem reverse_opening (columns : List Nat) : (opening columns).reverse = opening columns := by
  unfold opening
  split <;> rfl

section Lines

variable (entry : Entry) {place : Place} {columns : List Nat} (tokens : List Token)
  (behind : List Char) (steps : Nat)

/-- The name of a line is read as a scalar, and marked as a possible key. -/
theorem readAll_name (lineStart : place.column = 0)
    (shallow : columns = [] ∨ columns = [0]) :
    readAll (steps + 1)
        ⟨⟨place, entry.name ++ ':' :: ' ' :: behind⟩, tokens, columns, none, [], true⟩ =
      readAll steps
        ⟨⟨entry.name.foldl Place.after place, ':' :: ' ' :: behind⟩,
          .scalar .plain (String.ofList entry.name) :: tokens, columns,
          some ⟨tokens.length, place, columns.head? = some 0⟩, [], false⟩ := by
  obtain ⟨char, rest, spelled⟩ := List.exists_cons_of_ne_nil entry.name_isWord.filled
  have whole := entry.name_isWord.all
  have word : isWordChar char = true := whole char (spelled ▸ List.mem_cons_self)
  have notDash : char ≠ '-' := fun same => entry.name_start (by rw [spelled, same]; rfl)
  have chars : entry.name ++ ':' :: ' ' :: behind = char :: (rest ++ ':' :: ' ' :: behind) := by
    rw [spelled, List.cons_append]
  refine readAll_succ steps (toNext_of_isWordChar chars word) chars ?_
  rw [close_of_columns shallow, readAt_word chars word fun same => absurd same notDash]
  unfold readPlainScalar readScalar markKey
  simp [dropMark, push, inFlow, column, lineStart, readPlain_name whole]

/-- The colon of a line makes its name a key, which opens the mapping if it is the first. -/
theorem readAll_colon (name : String) {colon : Place} (lineStart : place.column = 0)
    (line : colon.line = place.line) (offset : colon.offset ≤ place.offset + KeyMark.reach)
    (shallow : columns = [] ∨ columns = [0]) (required : Bool) :
    readAll (steps + 1)
        ⟨⟨colon, ':' :: ' ' :: behind⟩, .scalar .plain name :: tokens, columns,
          some ⟨tokens.length, place, required⟩, [], false⟩ =
      readAll steps
        ⟨⟨colon.after ':', ' ' :: behind⟩,
          .value :: .scalar .plain name :: .key :: (opening columns ++ tokens), [0], none, [],
          false⟩ := by
  refine readAll_succ steps
    (toNext_of_chars rfl (by decide) (by decide) (by decide) (by decide)) rfl ?_
  rw [close_of_columns shallow]
  have reaches : KeyMark.reaches ⟨tokens.length, place, required⟩ colon = true := by
    simp [KeyMark.reaches, line, offset]
  have skipped : Remainder.skip ⟨colon, ':' :: ' ' :: behind⟩ 1 =
      ⟨colon.after ':', ' ' :: behind⟩ := rfl
  rw [readAt_colon rfl rfl]
  rcases shallow with rfl | rfl
  all_goals
    simp [readValue, reaches, makeKey, lineStart, opensAt, indent, inFlow, insertAt, allowKey, push,
      skip, skipped, opening]

/-- The value of a line is read as a scalar. A dash it starts with does not stand alone, and is
not at the start of the line. -/
theorem readAll_scalar {lexeme : Lexeme}
    (read : readPlain false 1 {} (place.after ' ') (entry.value ++ behind) = some lexeme) :
    readAll (steps + 1) ⟨⟨place, ' ' :: (entry.value ++ behind)⟩, tokens, [0], none, [], false⟩ =
      readAll steps
        ⟨lexeme.rest, .scalar .plain lexeme.text :: tokens, [0], none, [], lexeme.endedLine⟩ := by
  obtain ⟨char, rest, spelled⟩ := List.exists_cons_of_ne_nil entry.value_isWord.filled
  have whole := entry.value_isWord.all
  have word : isWordChar char = true := whole char (spelled ▸ List.mem_cons_self)
  have chars : entry.value ++ behind = char :: (rest ++ behind) := by
    rw [spelled, List.cons_append]
  have inside : (place.after ' ').column ≠ 0 := Nat.succ_ne_zero place.column
  have dash (same : char = '-') : (place.after ' ').column ≠ 0 ∧
      atWordEnd (rest ++ behind) = false := by
    refine ⟨inside, ?_⟩
    cases rest with
    | nil => exact absurd (by rw [spelled, same]) entry.value_isWord.not_dash
    | cons second others =>
      have next : isWordChar second = true := whole second (by rw [spelled]; simp)
      have lineFeed : second ≠ '\n' := ne_of_isWordChar next (by decide)
      simp [atWordEnd, not_isBlank_of_isWordChar next, lineFeed]
  let skipped : Lexer :=
    ⟨⟨place.after ' ', entry.value ++ behind⟩, tokens, [0], none, [], false⟩
  have toValue :
      toNext ⟨⟨place, ' ' :: (entry.value ++ behind)⟩, tokens, [0], none, [], false⟩ =
        skipped := by
    -- The blank is skipped first, which leaves the same to skip as without it.
    have stopped : skipped.toNext = skipped := toNext_of_isWordChar chars word
    exact stopped
  refine readAll_succ steps toValue chars ?_
  rw [close_of_columns (.inr rfl), readAt_word chars word dash]
  simp [readPlainScalar, readScalar, markKey, push, inFlow, indent, skipped, read]

/-- A line takes three steps. -/
theorem readAll_line (lineStart : place.column = 0) (shallow : columns = [] ∨ columns = [0])
    {endedLine : Bool} {rest : Remainder}
    (read : readPlain false 1 {} (entry.valuePlace place) (entry.value ++ behind) =
      some ⟨String.ofList entry.value, endedLine, rest⟩) :
    readAll (steps + 3) ⟨⟨place, entry.chars ++ behind⟩, tokens, columns, none, [], true⟩ =
      readAll steps
        ⟨rest, entry.tokens.reverse ++ (opening columns ++ tokens), [0], none, [], endedLine⟩ := by
  have whole := entry.name_isWord.all
  have offset : (entry.name.foldl Place.after place).offset ≤ place.offset + KeyMark.reach :=
    Nat.le_trans (offset_foldl_after_le whole place) (Nat.add_le_add_left entry.name_short _)
  rw [Entry.chars, List.append_assoc]
  show readAll (steps + 2 + 1)
    ⟨⟨place, entry.name ++ ':' :: ' ' :: (entry.value ++ behind)⟩, _, _, _, _, _⟩ = _
  rw [readAll_name entry tokens _ _ lineStart shallow,
    readAll_colon tokens _ _ _ lineStart (line_foldl_after whole place) offset shallow,
    readAll_scalar entry _ _ _ read]
  rfl

end Lines

/-- At the end of the text the mapping is closed. -/
theorem readAll_end (place : Place) (tokens : List Token) (allowed : Bool) (steps : Nat) :
    readAll (steps + 1) ⟨⟨place, []⟩, tokens, [0], none, [], allowed⟩ =
      some (tokens.reverse ++ [.blockEnd]) := by
  simp [readAll, toNext, skipSpace, finish, close, inFlow, closeBlocks, dropMark]

theorem isWordChar_of_head?_chars (entry : Entry) (behind : List Char) :
    ∀ char, (entry.chars ++ behind).head? = some char → isWordChar char = true := by
  obtain ⟨first, rest, spelled⟩ := List.exists_cons_of_ne_nil entry.name_isWord.filled
  intro char head
  obtain rfl : first = char := by simpa [Entry.chars, spelled] using head
  exact entry.name_isWord.all first (by rw [spelled]; exact List.mem_cons_self)

/-- The lines of a block mapping are read one after the other. -/
theorem readAll_lines (entry : Entry) (rest : List Entry) (ended : Bool) {place : Place}
    {columns : List Nat} (tokens : List Token) (steps : Nat) (lineStart : place.column = 0)
    (shallow : columns = [] ∨ columns = [0]) :
    readAll (steps + 3 * rest.length + 1 + 3)
        ⟨⟨place, entry.chars ++ laterChars rest ended⟩, tokens, columns, none, [], true⟩ =
      some (tokens.reverse ++ opening columns ++
        (entry :: rest).flatMap Entry.tokens ++ [.blockEnd]) := by
  induction rest generalizing entry place columns tokens with
  | nil =>
    have whole := entry.value_isWord.all
    have last : ∃ behind, readPlain false 1 {} (entry.valuePlace place)
        (entry.value ++ laterChars [] ended) =
          some ⟨String.ofList entry.value, ended, ⟨behind, []⟩⟩ := by
      cases ended with
      | false =>
        rw [laterChars, if_neg Bool.false_ne_true, List.append_nil]
        exact ⟨_, readPlain_last whole 1 (entry.valuePlace place)⟩
      | true => exact ⟨_, readPlain_value whole (entry.valuePlace place) nofun⟩
    obtain ⟨behind, read⟩ := last
    rw [readAll_line entry tokens _ _ lineStart shallow read, readAll_end]
    simp [reverse_opening]
  | cons next rest previous =>
    have read := readPlain_value entry.value_isWord.all (entry.valuePlace place)
      (isWordChar_of_head?_chars next (laterChars rest ended))
    have count : steps + 3 * (next :: rest).length + 1 = steps + 3 * rest.length + 1 + 3 := by
      rw [List.length_cons]
      omega
    rw [count, laterChars, readAll_line entry tokens _ _ lineStart shallow read,
      previous next _ rfl (.inr rfl)]
    simp [reverse_opening, show opening [0] = [] from rfl]

end Lexer

/-! ### The text of a mapping -/

/-- Printable ASCII and line feeds are read as they are. -/
def isPrintable (char : Char) : Bool :=
  char = '\n' || (0x20 ≤ char.toNat && char.toNat ≤ 0x7E)

theorem isAllowed_of_isPrintable {char : Char} (printable : isPrintable char = true) :
    isAllowed char = true := by
  rcases Bool.or_eq_true_iff.mp printable with lineFeed | visible
  · rw [of_decide_eq_true lineFeed]
    decide
  · simp only [isAllowed, visible, Bool.or_true, Bool.true_or]

theorem unified_of_isPrintable {char : Char} (printable : isPrintable char = true) :
    (if isLineEnd char then '\n' else char) = char := by
  rcases Bool.or_eq_true_iff.mp printable with lineFeed | visible
  · rw [of_decide_eq_true lineFeed]
    split <;> rfl
  · have range : 0x20 ≤ char.toNat ∧ char.toNat ≤ 0x7E := by simpa using visible
    have inLine : isLineEnd char = false := by
      simp only [isLineEnd, Bool.or_eq_false_iff, decide_eq_false_iff_not]
      omega
    rw [inLine]
    rfl

theorem unifyBreaks_of_isPrintable {chars : List Char}
    (printable : ∀ char ∈ chars, isPrintable char = true) : unifyBreaks chars = chars := by
  fun_induction unifyBreaks chars with
  | case1 => rfl
  | case2 last => rw [unified_of_isPrintable (printable last List.mem_cons_self)]
  | case3 first second rest return_ previous =>
    have carriage := printable first List.mem_cons_self
    rw [return_.1] at carriage
    contradiction
  | case4 first second rest apart previous =>
    obtain ⟨here, later⟩ := List.forall_mem_cons.mp printable
    rw [unified_of_isPrintable here, previous later]

theorem source?_of_isPrintable {text : String}
    (printable : ∀ char ∈ text.toList, isPrintable char = true) :
    source? text = some text.toList := by
  have allowed : text.toList.all isAllowed = true :=
    List.all_eq_true.mpr fun char member => isAllowed_of_isPrintable (printable char member)
  rw [source?, if_pos allowed, unifyBreaks_of_isPrintable printable]

theorem isPrintable_of_isWordChar {char : Char} (word : isWordChar char = true) :
    isPrintable char = true := by
  have range : 0x20 ≤ char.toNat ∧ char.toNat ≤ 0x7E := by
    simp only [isWordChar, Bool.or_eq_true, Bool.and_eq_true, decide_eq_true_eq] at word
    rcases word with (((digit | capital) | small) | rfl) | rfl
    · omega
    · omega
    · omega
    · decide
    · decide
  simp [isPrintable, range]

theorem isPrintable_chars (entry : Entry) : ∀ char ∈ entry.chars, isPrintable char = true := by
  intro char member
  simp only [Entry.chars, List.mem_append, List.mem_cons] at member
  rcases member with name | rfl | rfl | value
  · exact isPrintable_of_isWordChar (entry.name_isWord.all char name)
  · rfl
  · rfl
  · exact isPrintable_of_isWordChar (entry.value_isWord.all char value)

theorem isPrintable_laterChars (entries : List Entry) (ended : Bool) :
    ∀ char ∈ laterChars entries ended, isPrintable char = true := by
  induction entries with
  | nil => cases ended <;> simp [laterChars, isPrintable]
  | cons entry rest previous =>
    intro char member
    simp only [laterChars, List.mem_cons, List.mem_append] at member
    rcases member with rfl | here | later
    · rfl
    · exact isPrintable_chars entry char here
    · exact previous char later

theorem three_mul_length_le_length_laterChars (entries : List Entry) (ended : Bool) :
    3 * entries.length ≤ (laterChars entries ended).length := by
  induction entries with
  | nil => exact Nat.zero_le _
  | cons entry rest previous =>
    simp only [laterChars, Entry.chars, List.length_cons, List.length_append]
    omega

/-- The tokens of a block mapping are those of its lines, between its start and its end. -/
theorem tokens?_mapping {text : String} {entry : Entry} {rest : List Entry} {ended : Bool}
    (chars : text.toList = entry.chars ++ laterChars rest ended) :
    tokens? text =
      some (.blockMappingStart :: (entry :: rest).flatMap Entry.tokens ++ [.blockEnd]) := by
  have printable : ∀ char ∈ text.toList, isPrintable char = true := by
    rw [chars]
    exact List.forall_mem_append.mpr ⟨isPrintable_chars entry, isPrintable_laterChars rest ended⟩
  have enough : 3 * rest.length + 3 ≤ text.toList.length := by
    have first : 3 ≤ entry.chars.length := by
      have name := List.length_pos_iff.mpr entry.name_isWord.filled
      simp only [Entry.chars, List.length_append, List.length_cons]
      omega
    have later := three_mul_length_le_length_laterChars rest ended
    rw [chars, List.length_append]
    omega
  obtain ⟨more, count⟩ := Nat.exists_eq_add_of_le enough
  have steps : text.toList.length + 1 = more + 3 * rest.length + 1 + 3 := by omega
  rw [tokens?, source?_of_isPrintable printable]
  show Lexer.readAll (text.toList.length + 1) (Lexer.start text.toList) = _
  rw [steps, chars]
  exact Lexer.readAll_lines entry rest ended [] more rfl (.inl rfl)

/-! ### The tree of a mapping -/

namespace Node

/-- The entry that a line stands for. -/
def ofEntry (entry : Entry) : Node × Node :=
  (.scalar .plain (String.ofList entry.name), .scalar .plain (String.ofList entry.value))

theorem build_scalar (position : Position) (text : String) (behind : List Token) (steps : Nat) :
    build (steps + 1) position (.scalar .plain text :: behind) =
      some (.scalar .plain text, behind) := by
  rw [build]

theorem buildUnless_scalar (position : Position) (text : String) (behind : List Token)
    (steps : Nat) :
    buildUnless (steps + 2) false position (.scalar .plain text :: behind) =
      some (.scalar .plain text, behind) := by
  rw [buildUnless, if_neg Bool.false_ne_true, build_scalar]

/-- The tokens of a line are built into its entry, two calls deeper. -/
theorem buildEntries_line (entry : Entry) (behind : List Token) (steps : Nat) :
    buildEntries (steps + 4) (entry.tokens ++ behind) =
      (buildEntries (steps + 2) behind).map fun built => (ofEntry entry :: built.1, built.2) := by
  have name := buildUnless_scalar .entry (String.ofList entry.name)
    (.value :: .scalar .plain (String.ofList entry.value) :: behind) (steps + 1)
  have value := buildUnless_scalar .entry (String.ofList entry.value) behind steps
  have built : buildEntries (steps + 4) (entry.tokens ++ behind) =
      buildEntry (steps + 3) (.scalar .plain (String.ofList entry.name))
        (.value :: .scalar .plain (String.ofList entry.value) :: behind) := by
    rw [buildEntries.eq_def]
    simp [Entry.tokens, endsEntry, name]
  rw [built, buildEntry]
  simp [endsEntry, value, ofEntry]
  cases buildEntries (steps + 2) behind <;> rfl

/-- The entries of a block mapping are built one after the other. -/
theorem buildEntries_lines (entries : List Entry) (behind : List Token) (more : Nat) :
    buildEntries (more + 2 * entries.length + 2)
        (entries.flatMap Entry.tokens ++ .blockEnd :: behind) =
      some (entries.map ofEntry, behind) := by
  induction entries with
  | nil => rw [List.flatMap_nil, List.nil_append, buildEntries]; rfl
  | cons entry rest previous =>
    rw [List.flatMap_cons, List.append_assoc]
    show buildEntries (more + 2 * rest.length + 4) _ = _
    rw [buildEntries_line, previous]
    rfl

theorem build_mapping (entries : List Entry) {steps : Nat}
    (enough : 2 * entries.length + 3 ≤ steps) :
    build steps .block (.blockMappingStart :: entries.flatMap Entry.tokens ++ [.blockEnd]) =
      some (.mapping (entries.map ofEntry), []) := by
  obtain ⟨more, rfl⟩ := Nat.exists_eq_add_of_le enough
  have count : 2 * entries.length + 3 + more = more + 2 * entries.length + 2 + 1 := by omega
  rw [count, List.cons_append, build, buildEntries_lines]
  · rfl
  · nofun

theorem length_tokens (entries : List Entry) :
    (entries.flatMap Entry.tokens).length = 4 * entries.length := by
  induction entries with
  | nil => rfl
  | cons entry rest previous =>
    rw [List.flatMap_cons, List.length_append, previous, List.length_cons, Entry.tokens]
    simp only [List.length_cons, List.length_nil]
    omega

/-- A block mapping of words has the entries that its lines stand for. -/
theorem ofText?_mapping {text : String} {entry : Entry} {rest : List Entry} {ended : Bool}
    (chars : text.toList = entry.chars ++ laterChars rest ended) :
    ofText? text = some (.mapping ((entry :: rest).map ofEntry)) := by
  have enough : 2 * (entry :: rest).length + 3 ≤ 4 * (Token.blockMappingStart ::
      (entry :: rest).flatMap Entry.tokens ++ [Token.blockEnd]).length + 4 := by
    simp only [List.cons_append, List.length_cons, List.length_append, length_tokens]
    omega
  rw [ofText?, tokens?_mapping chars, Option.bind_some, ofTokens?]
  · rw [build_mapping (entry :: rest) enough]
    rfl
  · nofun
  · nofun

end Node

end ChipEight.Yaml
