/-
This file proves that the reader of settings files that the program comes with is as assumed of
such a reader.

A file with one setting to a line is a block mapping of words: the names of settings and decimal
numbers. What is left are the numbers. One without a zero in front is read as itself as long as
it has 64 bits, and one with a minus sign never is.
-/

import ChipEight.Proofs.BlockMapping
import ChipEight.Proofs.SettingsLines
import ChipEight.Yaml.Reader
import Mathlib.Data.List.Basic

namespace ChipEight

/-! ### Numbers -/

namespace Numeral

theorem readBase64?_toDigits (number : Nat) :
    readBase64? 10 (Nat.toDigits 10 number) = fit64? number := by
  have written : (decimal 0 number).toList = Nat.toDigits 10 number := by
    rw [decimal, String.toList_ofList, List.leftpad, Nat.zero_sub, List.replicate_zero,
      List.nil_append]
  rw [readBase64?, ← written, readDigits?_decimal]
  rfl

theorem head?_toDigits_ne_zero {number : Nat} (pos : 0 < number) :
    (Nat.toDigits 10 number).head? ≠ some '0' := by
  induction number using Nat.strongRecOn with
  | ind number previous =>
    by_cases small : number < 10
    · have each : ∀ digit : Fin 10, 0 < digit.val → Nat.digitChar digit ≠ '0' := by decide
      rw [Nat.toDigits_of_lt_base small]
      simpa using each ⟨number, small⟩ pos
    · rw [Nat.toDigits_of_base_le (by decide) (by omega),
        List.head?_append_of_ne_nil _ Nat.toDigits_ne_nil]
      exact previous (number / 10) (by omega) (by omega)

end Numeral

namespace Yaml

theorem hasLeadingZero_toDigits (number : Nat) :
    hasLeadingZero (Nat.toDigits 10 number) = false := by
  rcases Nat.eq_zero_or_pos number with rfl | pos
  · rfl
  · have first := Numeral.head?_toDigits_ne_zero pos
    unfold hasLeadingZero
    split
    case h_1 spelled => exact absurd (by rw [spelled]; rfl) first
    case h_2 => rfl

theorem readInteger?_of_not_mem {text : String} (plus : '+' ∉ text.toList) (x : 'x' ∉ text.toList)
    (o : 'o' ∉ text.toList) (b : 'b' ∉ text.toList) :
    readInteger? text = readDecimal? text.toList := by
  have kept : Numeral.dropPlus text.toList = text.toList :=
    Numeral.dropPlus_of_head? fun first => plus (List.mem_of_mem_head? first)
  rw [readInteger?, kept]
  split
  case h_1 spelled => exact absurd (by simp [spelled]) x
  case h_2 spelled => exact absurd (by simp [spelled]) o
  case h_3 spelled => exact absurd (by simp [spelled]) b
  case h_4 => rfl

theorem toList_toString (number : Int) :
    (toString number).toList =
      if 0 ≤ number then Nat.toDigits 10 number.toNat
      else '-' :: Nat.toDigits 10 (-number).toNat := by
  rw [Int.toString_eq_repr, Int.repr_eq_if]
  split
  · exact Nat.toList_repr
  · rw [String.toList_append, Nat.toList_repr]
    rfl

theorem isDigit_or_eq_of_mem_toString {number : Int} :
    ∀ char ∈ (toString number).toList, char.isDigit = true ∨ char = '-' := by
  intro char member
  rw [toList_toString] at member
  split at member
  · exact .inl (Nat.isDigit_of_mem_toDigits (by decide) (by decide) member)
  · rcases List.mem_cons.mp member with rfl | digit
    · exact .inr rfl
    · exact .inl (Nat.isDigit_of_mem_toDigits (by decide) (by decide) digit)

theorem not_mem_toString {char : Char} (other : char.isDigit = false) (noSign : char ≠ '-')
    (number : Int) : char ∉ (toString number).toList := by
  intro member
  rcases isDigit_or_eq_of_mem_toString char member with digit | sign
  · rw [other] at digit
    contradiction
  · exact noSign sign

/-- A number is read as itself, if it fits. -/
theorem readInteger?_toString_eq_some_iff {number : Int} {read : UInt64} :
    readInteger? (toString number) = some read ↔
      Settings.Fits number ∧ read = UInt64.ofNat number.toNat := by
  rw [readInteger?_of_not_mem (not_mem_toString rfl (by decide) number)
    (not_mem_toString rfl (by decide) number) (not_mem_toString rfl (by decide) number)
    (not_mem_toString rfl (by decide) number), readDecimal?, toList_toString]
  by_cases positive : 0 ≤ number
  · have small : number < 2 ^ 64 ↔ number.toNat < UInt64.size := by
      rw [UInt64.size]
      omega
    rw [if_pos positive, hasLeadingZero_toDigits, if_neg Bool.false_ne_true,
      Numeral.readBase64?_toDigits, Numeral.fit64?, Settings.Fits, small]
    simp [positive, eq_comm]
  · have signed : Numeral.readDigits? 10 ('-' :: Nat.toDigits 10 (-number).toNat) = none := rfl
    rw [if_neg positive, Numeral.readBase64?, signed]
    simp [hasLeadingZero, Settings.Fits, positive]

theorem toList_toString_ne_nil (number : Int) : (toString number).toList ≠ [] := by
  rw [toList_toString]
  split
  · exact Nat.toDigits_ne_nil
  · exact List.cons_ne_nil _ _

theorem isNull_toString (number : Int) : isNull (toString number) = false := by
  have noLetter (letter : Char) (other : letter.isDigit = false) (noSign : letter ≠ '-')
      (word : String) (member : letter ∈ word.toList) : toString number ≠ word := by
    rintro rfl
    exact not_mem_toString other noSign number member
  have empty : toString number ≠ "" := fun same =>
    toList_toString_ne_nil number (by rw [same]; rfl)
  have tilde := noLetter '~' rfl (by decide) "~" (by simp)
  have null := noLetter 'u' rfl (by decide) "null" (by simp)
  have capital := noLetter 'u' rfl (by decide) "Null" (by simp)
  have capitals := noLetter 'U' rfl (by decide) "NULL" (by simp)
  simp only [isNull, empty, tilde, null, capital, capitals, decide_false, Bool.or_false]

/-! ### Lines -/

theorem isWord_name (field : Settings.Field) : IsWord field.name.toList where
  all := List.all_eq_true.mp (by cases field <;> rfl)
  filled := by cases field <;> exact List.cons_ne_nil _ _
  not_dash := by cases field <;> exact fun dash => nomatch dash

theorem isWord_toString (number : Int) : IsWord (toString number).toList where
  all char member := by
    rcases isDigit_or_eq_of_mem_toString char member with digit | rfl
    · have range : 48 ≤ char.toNat ∧ char.toNat ≤ 57 := Char.isDigit_iff_toNat.mp digit
      simp [isWordChar, range]
    · rfl
  filled := toList_toString_ne_nil number
  not_dash := by
    rw [toList_toString]
    split
    · intro dash
      have digit : '-'.isDigit = true := Nat.isDigit_of_mem_toDigits (by decide) (by decide)
        (dash ▸ List.mem_cons_self)
      contradiction
    · intro dash
      exact Nat.toDigits_ne_nil (List.cons.inj dash).2

/-- The entry of a mapping that a line is. -/
def Entry.ofLine (line : Settings.Line) : Entry where
  name := line.1.name.toList
  value := (toString line.2).toList
  name_isWord := isWord_name line.1
  name_start := by cases line.1 <;> simp [Settings.Field.name]
  name_short := by cases line.1 <;> simp [Settings.Field.name, KeyMark.reach]
  value_isWord := isWord_toString line.2

theorem toList_fileText_cons (line : Settings.Line) (rest : List Settings.Line) (ended : Bool) :
    (Settings.fileText (line :: rest) ended).toList =
      (Entry.ofLine line).chars ++ laterChars (rest.map Entry.ofLine) ended := by
  induction rest generalizing line with
  | nil =>
    cases ended <;>
      simp [Settings.fileText, Settings.Line.text, Entry.ofLine, Entry.chars, laterChars]
  | cons next rest previous =>
    have joined : Settings.fileText (line :: next :: rest) ended =
        line.text ++ "\n" ++ Settings.fileText (next :: rest) ended := by
      simp only [Settings.fileText, List.map_cons, String.intercalate_cons_cons,
        String.append_assoc]
    rw [joined, String.toList_append, previous]
    simp [Settings.Line.text, Entry.ofLine, Entry.chars, laterChars]

/-- The entries of a mapping of words are its names with their values. -/
theorem entries?_mapping (entries : List Entry) :
    (Node.mapping (entries.map Node.ofEntry)).entries? =
      some (entries.map fun entry =>
        (String.ofList entry.name, .scalar .plain (String.ofList entry.value))) := by
  rw [Node.entries?]
  induction entries with
  | nil => rfl
  | cons entry rest previous =>
    rw [List.map_cons, List.mapM_cons, previous]
    rfl

/-- A file has an entry for each of its lines. -/
theorem entries_fileText (lines : List Settings.Line) (ended : Bool) :
    reader.entries (Settings.fileText lines ended) =
      .ok (lines.map fun line => (line.1.name, Node.scalar .plain (toString line.2))) := by
  cases lines with
  | nil => cases ended <;> rfl
  | cons line rest =>
    have names (lines : List Settings.Line) :
        ((lines.map Entry.ofLine).map fun entry =>
          (String.ofList entry.name, Node.scalar .plain (String.ofList entry.value))) =
        lines.map fun line => (line.1.name, Node.scalar .plain (toString line.2)) := by
      rw [List.map_map]
      refine List.map_congr_left fun line _ => ?_
      simp only [Function.comp_apply, Entry.ofLine, String.ofList_toList]
    simp only [reader, Node.ofText?_mapping (toList_fileText_cons line rest ended),
      Option.bind_some, ← List.map_cons, entries?_mapping, names]
    rfl

/-- The reader of settings files in YAML is as assumed. -/
theorem readsLines : reader.ReadsLines (Node.scalar .plain) where
  entries := entries_fileText
  allows given field new := if_neg fun again => new again.1
  repeats given field again :=
    ⟨_, if_pos ⟨again, by rw [Settings.Field.ofName?_name]; rfl⟩⟩
  unsigned number fits := by
    have read := readInteger?_toString_eq_some_iff.mpr ⟨fits, rfl⟩
    exact congrArg (orRefuse _) read
  outside number other := by
    have refused : readInteger? (toString number) = none :=
      Option.eq_none_iff_forall_ne_some.mpr fun read found =>
        other (readInteger?_toString_eq_some_iff.mp found).1
    exact ⟨_, congrArg (orRefuse _) refused⟩
  optional number := by
    show orRefuse _ (Node.optional? (.scalar .plain (toString number))) =
      (orRefuse _ (readInteger? (toString number))).map some
    rw [Node.optional?, isNull_toString, if_neg Bool.false_ne_true]
    cases readInteger? (toString number) <;> rfl

end Yaml

end ChipEight
