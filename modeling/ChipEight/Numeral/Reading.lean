/-
This file reads numbers: digits in a base, and unsigned 64-bit numbers as the
command line and the settings accept them.

A number that needs more than 64 bits is refused, never cut off. Only the ASCII
digits count as digits.
-/

import ChipEight.Numeral

namespace ChipEight.Numeral

/-- The value of a digit, with letters of either case from ten on. -/
def digitValue? (char : Char) : Option Nat :=
  let code := char.toNat
  if 48 ≤ code && code ≤ 57 then some (code - 48)
  else if 65 ≤ code && code ≤ 90 then some (code - 55)
  else if 97 ≤ code && code ≤ 122 then some (code - 87)
  else none

def digitIn? (base : Nat) (char : Char) : Option Nat :=
  (digitValue? char).filter fun value => value < base

/-- The number that a text of at least one digit stands for. -/
def readDigits? (base : Nat) (chars : List Char) : Option Nat :=
  if chars.isEmpty then none
  else
    (chars.mapM (digitIn? base)).map fun digits =>
      digits.foldl (fun total digit => base * total + digit) 0

def fit64? (number : Nat) : Option UInt64 :=
  if number < UInt64.size then some (UInt64.ofNat number) else none

/-- The 64-bit number that a text of digits stands for. -/
def readBase64? (base : Nat) (chars : List Char) : Option UInt64 :=
  (readDigits? base chars).bind fit64?

def dropPlus : List Char → List Char
  | '+' :: rest => rest
  | chars => chars

/-- The 64-bit number that decimal digits stand for, which may follow a plus sign. -/
def readUnsigned64? (text : String) : Option UInt64 := readBase64? 10 (dropPlus text.toList)

theorem dropPlus_of_head? {chars : List Char} (first : chars.head? ≠ some '+') :
    dropPlus chars = chars := by
  unfold dropPlus
  split
  case h_1 => exact absurd rfl first
  case h_2 => rfl

/-! ### What is written reads back -/

theorem digitValue?_upperDigit {digit : Nat} (small : digit < 16) :
    digitValue? (upperDigit digit) = some digit := by
  have each : ∀ digit : Fin 16, digitValue? (upperDigit digit) = some digit.val := by decide
  exact each ⟨digit, small⟩

theorem digitIn?_upperDigit {base digit : Nat} (bound : base ≤ 16) (small : digit < base) :
    digitIn? base (upperDigit digit) = some digit := by
  rw [digitIn?, digitValue?_upperDigit (Nat.lt_of_lt_of_le small bound)]
  simp [small]

/-- Decimal digits are no letters, so they are their own capitals. -/
theorem map_toUpper_toDigits_ten (number : Nat) :
    (Nat.toDigits 10 number).map Char.toUpper = Nat.toDigits 10 number := by
  have same : ∀ char ∈ Nat.toDigits 10 number, char.toUpper = id char := by
    intro char member
    have digit := Nat.isDigit_of_mem_toDigits (by decide) (by decide) member
    have code : char.toNat ≤ 57 := (Char.isDigit_iff_toNat.mp digit).2
    have noLetter : ¬ ('a'.val ≤ char.val ∧ char.val ≤ 'z'.val) := fun letter => by
      have above : 97 ≤ char.toNat := UInt32.le_iff_toNat_le.mp letter.1
      omega
    exact dif_neg noLetter
  rw [List.map_congr_left same, List.map_id]

/-- Only digits are read. -/
theorem not_mem_of_readDigits? {base number : Nat} {chars : List Char}
    (read : readDigits? base chars = some number) {char : Char}
    (other : digitValue? char = none) : char ∉ chars := by
  intro member
  unfold readDigits? at read
  split at read
  case isTrue => exact nomatch read
  case isFalse filled =>
    obtain ⟨digits, found, -⟩ := Option.map_eq_some_iff.mp read
    clear read filled
    induction chars generalizing digits with
    | nil => exact absurd member List.not_mem_nil
    | cons first rest previous =>
      simp only [List.mapM_cons, bind, Option.bind_eq_some_iff] at found
      obtain ⟨digit, here, others, later, -⟩ := found
      rcases List.mem_cons.mp member with rfl | member
      · exact nomatch other.symm.trans (Option.filter_eq_some_iff.mp here).1
      · exact previous member others later

section Written

variable {base : Nat} (two_le : 2 ≤ base) (bound : base ≤ 16) (width number : Nat)

include two_le bound

theorem exists_mapM_digitIn?_toDigits :
    ∃ digits, ((Nat.toDigits base number).map Char.toUpper).mapM (digitIn? base) = some digits ∧
      digits.foldl (fun total digit => base * total + digit) 0 = number := by
  induction number using Nat.strongRecOn with
  | ind number previous =>
    have single {digit : Nat} (small : digit < base) :
        [(Nat.digitChar digit).toUpper].mapM (digitIn? base) = some [digit] := by
      rw [List.mapM_cons, ← upperDigit, digitIn?_upperDigit bound small]
      rfl
    by_cases small : number < base
    · refine ⟨[number], ?_, by simp⟩
      rw [Nat.toDigits_of_lt_base small, List.map_singleton, single small]
    · have last : number % base < base := Nat.mod_lt _ (by omega)
      obtain ⟨front, read, total⟩ :=
        previous (number / base) (Nat.div_lt_self (by omega) (by omega))
      refine ⟨front ++ [number % base], ?_, ?_⟩
      · rw [Nat.toDigits_of_base_le (by omega) (by omega), List.map_append, List.mapM_append,
          read, List.map_singleton, single last]
        rfl
      · rw [List.foldl_append, total]
        exact Nat.div_add_mod number base

/-- Reading what is written gives the number, whatever zeros stand in front of it. -/
theorem readDigits?_leftpad :
    readDigits? base (((Nat.toDigits base number).map Char.toUpper).leftpad width '0') =
      some number := by
  obtain ⟨digits, read, total⟩ := exists_mapM_digitIn?_toDigits two_le bound number
  have zeros (count : Nat) :
      (List.replicate count '0' ++ (Nat.toDigits base number).map Char.toUpper).mapM
        (digitIn? base) = some (List.replicate count 0 ++ digits) := by
    induction count with
    | zero => exact read
    | succ count previous =>
      have zero : digitIn? base '0' = some 0 := digitIn?_upperDigit bound (show 0 < base by omega)
      rw [List.replicate_succ, List.cons_append, List.mapM_cons, zero, previous]
      rfl
  have value (count : Nat) : (List.replicate count 0 ++ digits).foldl
      (fun total digit => base * total + digit) 0 = number := by
    induction count with
    | zero => exact total
    | succ count previous => exact previous
  rw [List.leftpad, readDigits?, if_neg (by simp [Nat.toDigits_ne_nil]), zeros, Option.map_some,
    value]

end Written

@[simp] theorem readDigits?_hexadecimal (width number : Nat) :
    readDigits? 16 (hexadecimal width number).toList = some number := by
  rw [hexadecimal, String.toList_ofList]
  exact readDigits?_leftpad (by decide) (by decide) width number

@[simp] theorem readDigits?_decimal (width number : Nat) :
    readDigits? 10 (decimal width number).toList = some number := by
  rw [decimal, String.toList_ofList, ← map_toUpper_toDigits_ten]
  exact readDigits?_leftpad (by decide) (by decide) width number

/-- A character that is no digit is not written. -/
theorem not_mem_hexadecimal (width number : Nat) {char : Char} (other : digitValue? char = none) :
    char ∉ (hexadecimal width number).toList :=
  not_mem_of_readDigits? (readDigits?_hexadecimal width number) other

theorem not_mem_decimal (width number : Nat) {char : Char} (other : digitValue? char = none) :
    char ∉ (decimal width number).toList :=
  not_mem_of_readDigits? (readDigits?_decimal width number) other

/-- Two numbers that are written alike at one width are equal. -/
theorem hexadecimal_inj {width left right : Nat} :
    hexadecimal width left = hexadecimal width right ↔ left = right := by
  refine ⟨fun same => ?_, congrArg (hexadecimal width)⟩
  have read := readDigits?_hexadecimal width left
  rw [same, readDigits?_hexadecimal] at read
  exact (Option.some.inj read).symm

theorem decimal_inj {width left right : Nat} :
    decimal width left = decimal width right ↔ left = right := by
  refine ⟨fun same => ?_, congrArg (decimal width)⟩
  have read := readDigits?_decimal width left
  rw [same, readDigits?_decimal] at read
  exact (Option.some.inj read).symm

end ChipEight.Numeral
