/-
This file holds the written form of numbers: digits in a base, padded with zeros
to a least width.

Every number the library prints goes through `hexadecimal` or `decimal`. Both
take a least width and grow beyond it when the number needs more digits, so no
digit is ever lost and two numbers written at one width have one text only if
they are equal.
-/

namespace ChipEight.Numeral

/-- The character of a digit below sixteen, with capital letters from ten on. -/
def upperDigit (digit : Nat) : Char := (Nat.digitChar digit).toUpper

/-- The character of a digit below sixteen, with small letters from ten on. -/
def lowerDigit (digit : Nat) : Char := Nat.digitChar digit

/-- A number in base sixteen with capital letters, of at least `width` digits. -/
def hexadecimal (width value : Nat) : String :=
  String.ofList (((Nat.toDigits 16 value).map Char.toUpper).leftpad width '0')

/-- A number in base ten, of at least `width` digits. -/
def decimal (width value : Nat) : String :=
  String.ofList ((Nat.toDigits 10 value).leftpad width '0')

/-- A number that has room in a width is written with exactly that many digits. -/
theorem length_hexadecimal {number width : Nat} (pos : 0 < width)
    (small : number < Nat.pow 16 width) : (hexadecimal width number).toList.length = width := by
  rw [hexadecimal, String.toList_ofList, List.length_leftpad, List.length_map]
  exact Nat.max_eq_left ((Nat.length_toDigits_le_iff (by decide) pos).mpr small)

/-- The last digit of a number written out stands behind the others. -/
theorem toList_hexadecimal_succ {width : Nat} (pos : 0 < width) (number : Nat) :
    (hexadecimal (width + 1) number).toList =
      (hexadecimal width (number / 16)).toList ++ [upperDigit (number % 16)] := by
  simp only [hexadecimal, String.toList_ofList]
  by_cases small : number < 16
  · obtain ⟨more, rfl⟩ := Nat.exists_eq_add_of_le pos
    have zero : (Nat.digitChar 0).toUpper = '0' := rfl
    rw [Nat.div_eq_of_lt small, Nat.mod_eq_of_lt small, Nat.toDigits_of_lt_base small,
      Nat.toDigits_of_lt_base (by decide)]
    simp [List.leftpad, zero, upperDigit, Nat.add_comm 1 more, List.replicate_succ']
  · rw [Nat.toDigits_of_base_le (by decide) (by omega)]
    simp [List.leftpad, List.append_assoc, upperDigit]

theorem toList_hexadecimal_two {number : Nat} (small : number < 256) :
    (hexadecimal 2 number).toList = [upperDigit (number / 16), upperDigit (number % 16)] := by
  rw [toList_hexadecimal_succ (by decide), hexadecimal, String.toList_ofList,
    Nat.toDigits_of_lt_base (by omega)]
  rfl

/-- A number of two bytes is written like the one and then the other. -/
theorem hexadecimal_pair {low : Nat} (high : Nat) (small : low < 256) :
    hexadecimal 4 (256 * high + low) = hexadecimal 2 high ++ hexadecimal 2 low := by
  have front : (256 * high + low) / 16 / 16 = high := by omega
  have middle : (256 * high + low) / 16 % 16 = low / 16 := by omega
  have last : (256 * high + low) % 16 = low % 16 := by omega
  refine String.toList_inj.mp ?_
  rw [String.toList_append, toList_hexadecimal_succ (by decide),
    toList_hexadecimal_succ (by decide), toList_hexadecimal_two small, front, middle, last,
    List.append_assoc]
  rfl

/-- A number below a hundred is written with one decimal digit or two. -/
theorem toList_decimal_of_lt {number : Nat} (small : number < 100) :
    (decimal 1 number).toList =
      if number < 10 then [Nat.digitChar number]
      else [Nat.digitChar (number / 10), Nat.digitChar (number % 10)] := by
  rw [decimal, String.toList_ofList, Nat.toDigits_eq_if (by decide)]
  split
  case isTrue below => rfl
  case isFalse above => rw [Nat.toDigits_of_lt_base (by omega)]; rfl

end ChipEight.Numeral
