/-
This file proves which arguments the command line accepts and what it takes from them.

Arguments are scanned from left to right, and the only thing to remember on the way is whether
the last argument was an option that has not got its value yet. The parser finds the options
from the right instead. The two agree: the parser fails exactly if the scan ends with an option
that still waits. Positions and commands never depend on the values of the options, so an option
that is put in between, where no other one waits for its value, changes nothing but settings.
-/

import ChipEight.CommandLine.Arguments
import Mathlib.Data.List.Induction
import Mathlib.Data.Nat.Digits.Defs

namespace ChipEight

/-! ### Seconds -/

namespace Numeral

/-- A text spells a number if it is the decimal digits of the number, at least one and with any
number of zeros in front, or a plus sign and such digits. -/
def Spells (text : String) (number : Nat) : Prop :=
  ∃ digits : List Nat, digits ≠ [] ∧ (∀ digit ∈ digits, digit < 10) ∧
    Nat.ofDigits 10 digits.reverse = number ∧
    (text.toList = digits.map Nat.digitChar ∨ text.toList = '+' :: digits.map Nat.digitChar)

/-- The digits of a number are put together from the front. -/
theorem foldl_eq_ofDigits (base : Nat) (digits : List Nat) :
    digits.foldl (fun total digit => base * total + digit) 0 =
      Nat.ofDigits base digits.reverse := by
  rw [Nat.ofDigits_eq_foldr, List.foldr_reverse]
  simp only [Nat.cast_id, Nat.add_comm]

theorem digitIn?_ten_eq_some_iff {char : Char} {digit : Nat} :
    digitIn? 10 char = some digit ↔ digit < 10 ∧ char = Nat.digitChar digit := by
  constructor
  · intro read
    obtain ⟨found, small⟩ := Option.filter_eq_some_iff.mp read
    have small : digit < 10 := by simpa using small
    have code : char.toNat = 48 + digit := by
      simp only [digitValue?, Bool.and_eq_true, decide_eq_true_eq] at found
      split at found
      · have := Option.some.inj found
        omega
      -- The other digits are letters, and the least of these stands for ten.
      · split at found
        · have := Option.some.inj found
          omega
        · split at found
          · have := Option.some.inj found
            omega
          · contradiction
    have written : ∀ digit : Fin 10, Char.ofNat (48 + digit) = Nat.digitChar digit := by decide
    exact ⟨small, by rw [← char.ofNat_toNat, code, written ⟨digit, small⟩]⟩
  · rintro ⟨small, rfl⟩
    have each : ∀ digit : Fin 10, digitIn? 10 (Nat.digitChar digit) = some digit.val := by decide
    exact each ⟨digit, small⟩

theorem mapM_digitIn?_ten_eq_some_iff {chars : List Char} {digits : List Nat} :
    chars.mapM (digitIn? 10) = some digits ↔
      (∀ digit ∈ digits, digit < 10) ∧ chars = digits.map Nat.digitChar := by
  induction chars generalizing digits with
  | nil => cases digits <;> simp
  | cons char rest previous =>
    have split : (char :: rest).mapM (digitIn? 10) = some digits ↔
        ∃ digit others, digitIn? 10 char = some digit ∧
          rest.mapM (digitIn? 10) = some others ∧ digit :: others = digits := by
      simp [List.mapM_cons, Option.bind_eq_some_iff]
    rw [split]
    constructor
    · rintro ⟨digit, others, read, readRest, rfl⟩
      obtain ⟨small, rfl⟩ := digitIn?_ten_eq_some_iff.mp read
      obtain ⟨smallRest, rfl⟩ := previous.mp readRest
      exact ⟨List.forall_mem_cons.mpr ⟨small, smallRest⟩, rfl⟩
    · rintro ⟨small, written⟩
      obtain ⟨digit, others, rfl, rfl, rfl⟩ := List.map_eq_cons_iff.mp written.symm
      obtain ⟨here, later⟩ := List.forall_mem_cons.mp small
      exact ⟨digit, others, digitIn?_ten_eq_some_iff.mpr ⟨here, rfl⟩,
        previous.mpr ⟨later, rfl⟩, rfl⟩

theorem fit64?_eq_some_iff {number : Nat} {fitted : UInt64} :
    fit64? number = some fitted ↔ number = fitted.toNat := by
  unfold fit64?
  split
  case isTrue small =>
    rw [Option.some_inj, ← UInt64.toNat_inj, UInt64.toNat_ofNat', Nat.mod_eq_of_lt small]
  case isFalse large =>
    have fits := fitted.toNat_lt
    simp only [reduceCtorEq, false_iff]
    exact fun same => large (same ▸ fits)

theorem readBase64?_ten_eq_some_iff {chars : List Char} {number : UInt64} :
    readBase64? 10 chars = some number ↔
      ∃ digits : List Nat, digits ≠ [] ∧ (∀ digit ∈ digits, digit < 10) ∧
        Nat.ofDigits 10 digits.reverse = number.toNat ∧ chars = digits.map Nat.digitChar := by
  have read (total : Nat) : readDigits? 10 chars = some total ↔
      ∃ digits : List Nat, digits ≠ [] ∧ (∀ digit ∈ digits, digit < 10) ∧
        Nat.ofDigits 10 digits.reverse = total ∧ chars = digits.map Nat.digitChar := by
    unfold readDigits?
    split
    case isTrue empty =>
      obtain rfl := List.isEmpty_iff.mp empty
      simp
    case isFalse filled =>
      rw [Option.map_eq_some_iff]
      refine exists_congr fun digits => ?_
      rw [mapM_digitIn?_ten_eq_some_iff, foldl_eq_ofDigits]
      constructor
      · rintro ⟨⟨small, written⟩, total⟩
        refine ⟨fun none => filled ?_, small, total, written⟩
        rw [written, none]
        rfl
      · rintro ⟨-, small, total, written⟩
        exact ⟨⟨small, written⟩, total⟩
  rw [readBase64?, Option.bind_eq_some_iff]
  simp only [fit64?_eq_some_iff, exists_eq_right]
  exact read number.toNat

theorem digitChar_ne_plus {digit : Nat} (small : digit < 10) : Nat.digitChar digit ≠ '+' := by
  have each : ∀ digit : Fin 10, Nat.digitChar digit ≠ '+' := by decide
  exact each ⟨digit, small⟩

/-- The number of a text is read if the text spells it. -/
theorem readUnsigned64?_eq_some_iff {text : String} {number : UInt64} :
    readUnsigned64? text = some number ↔ Spells text number.toNat := by
  rw [readUnsigned64?, readBase64?_ten_eq_some_iff]
  refine exists_congr fun digits => and_congr_right fun filled => and_congr_right fun small =>
    and_congr_right fun _ => ?_
  obtain ⟨digit, others, rfl⟩ := List.exists_cons_of_ne_nil filled
  have first := digitChar_ne_plus (small digit List.mem_cons_self)
  cases chars : text.toList with
  | nil => simp [dropPlus]
  | cons char rest =>
    by_cases plus : char = '+'
    · subst plus
      simp [dropPlus, first.symm]
    · have kept : dropPlus (char :: rest) = char :: rest :=
        dropPlus_of_head? (by simpa using plus)
      simp [kept, plus]

/-- A text is refused if it spells no number of 64 bits. -/
theorem readUnsigned64?_eq_none_iff {text : String} :
    readUnsigned64? text = none ↔ ¬ ∃ number < 2 ^ 64, Spells text number := by
  rw [Option.eq_none_iff_forall_ne_some, not_exists]
  constructor
  · rintro refused number ⟨small, spelled⟩
    refine refused (UInt64.ofNat number) (readUnsigned64?_eq_some_iff.mpr ?_)
    rwa [UInt64.toNat_ofNat', Nat.mod_eq_of_lt small]
  · intro unspelled number read
    exact unspelled number.toNat ⟨number.toNat_lt, readUnsigned64?_eq_some_iff.mp read⟩

end Numeral

namespace CommandLine

/-! ### Scanning -/

/-- How far arguments are scanned: those that count by their position, the value that the last
option got, and whether an option still waits for its value. -/
structure Scan where
  positional : List String
  config : Option String
  awaiting : Bool
  deriving DecidableEq, Repr

namespace Scan

def start : Scan := ⟨[], none, false⟩

def next (scan : Scan) (argument : String) : Scan :=
  if scan.awaiting then { scan with config := some argument, awaiting := false }
  else if argument = configOption then { scan with awaiting := true }
  else { scan with positional := scan.positional ++ [argument] }

/-- An option and its value, whatever it is, are taken together. -/
theorem next_next_configOption {scan : Scan} (ready : scan.awaiting = false) (file : String) :
    (scan.next configOption).next file = ⟨scan.positional, some file, false⟩ := by
  simp [next, ready, configOption]

theorem next_of_ne {scan : Scan} (ready : scan.awaiting = false) {argument : String}
    (other : argument ≠ configOption) :
    scan.next argument = ⟨scan.positional ++ [argument], scan.config, false⟩ := by
  simp [next, ready, other]

end Scan

def scan (arguments : List String) : Scan := arguments.foldl Scan.next Scan.start

example :
    scan ["run", "--config", "--config", "pong.rom", "--config"] =
      ⟨["run", "pong.rom"], some "--config", true⟩ := by
  decide

section Sorting

variable {arguments : List String} {scanned : Scan}

/-- Where the parser sorts the arguments, the scan ends with what it sorted behind what was there
before, and the last option holds. -/
theorem foldl_next_of_sort {sorted : Sorted} (success : sort arguments = some sorted)
    (ready : scanned.awaiting = false) :
    arguments.foldl Scan.next scanned =
      ⟨scanned.positional ++ sorted.positional, sorted.config.or scanned.config, false⟩ := by
  fun_induction sort arguments generalizing sorted scanned with
  | case1 =>
    obtain rfl := Option.some.inj success
    obtain ⟨positional, config, awaiting⟩ := scanned
    obtain rfl : awaiting = false := ready
    simp
  | case2 => contradiction
  | case3 file rest previous =>
    obtain ⟨later, sortedRest, rfl⟩ := Option.map_eq_some_iff.mp success
    rw [List.foldl_cons, List.foldl_cons, Scan.next_next_configOption ready,
      previous sortedRest rfl]
    cases held : later.config <;> simp [Sorted.withConfig, held]
  | case4 argument rest other previous =>
    obtain ⟨later, sortedRest, rfl⟩ := Option.map_eq_some_iff.mp success
    rw [List.foldl_cons, Scan.next_of_ne ready other, previous sortedRest rfl]
    simp [Sorted.withPositional]

/-- Where the parser cannot sort the arguments, the scan ends with an option that waits. -/
theorem awaiting_of_sort (failure : sort arguments = none) (ready : scanned.awaiting = false) :
    (arguments.foldl Scan.next scanned).awaiting = true := by
  fun_induction sort arguments generalizing scanned with
  | case1 => contradiction
  | case2 => simp [Scan.next, ready, configOption]
  | case3 file rest previous =>
    rw [List.foldl_cons, List.foldl_cons, Scan.next_next_configOption ready]
    exact previous (Option.map_eq_none_iff.mp failure) rfl
  | case4 argument rest other previous =>
    rw [List.foldl_cons, Scan.next_of_ne ready other]
    exact previous (Option.map_eq_none_iff.mp failure) rfl

end Sorting

/-- The parser sorts what the scan collects. -/
theorem sort_eq_scan (arguments : List String) :
    sort arguments =
      if (scan arguments).awaiting then none
      else some ⟨(scan arguments).positional, (scan arguments).config⟩ := by
  cases sorting : sort arguments with
  | none =>
    have waits : (scan arguments).awaiting = true := awaiting_of_sort sorting rfl
    rw [if_pos waits]
  | some sorted =>
    have ended : scan arguments = ⟨sorted.positional, sorted.config, false⟩ := by
      rw [scan, foldl_next_of_sort sorting rfl]
      simp [Scan.start]
    rw [ended]
    rfl

theorem parse_eq_scan (arguments : List String) :
    parse arguments =
      if (scan arguments).awaiting then none
      else requestOf? ⟨(scan arguments).positional, (scan arguments).config⟩ := by
  rw [parse, sort_eq_scan]
  split <;> rfl

/-! ### Requests -/

theorem requestOf?_cons (command file : String) (rest : List String) (config : Option String) :
    requestOf? ⟨command :: file :: rest, config⟩ =
      if command = "run" then (secondsOf? rest).map fun seconds => .run file seconds config
      else if command = "dis" then some (.list file)
      else none :=
  rfl

section Requests

variable {sorted : Sorted}

theorem secondsOf?_eq_some_iff {texts : List String} {seconds : UInt64} :
    secondsOf? texts = some seconds ↔
      (texts[0]? = none ∧ seconds = 5) ∨
        ∃ text, texts[0]? = some text ∧ Numeral.Spells text seconds.toNat := by
  cases texts with
  | nil => simp [secondsOf?, defaultSeconds, eq_comm]
  | cons text rest => simp [secondsOf?, Numeral.readUnsigned64?_eq_some_iff]

theorem secondsOf?_eq_none_iff {texts : List String} :
    secondsOf? texts = none ↔
      ∃ text, texts[0]? = some text ∧ ¬ ∃ number < 2 ^ 64, Numeral.Spells text number := by
  cases texts with
  | nil => simp [secondsOf?]
  | cons text rest =>
    rw [secondsOf?, Numeral.readUnsigned64?_eq_none_iff]
    simp only [List.getElem?_cons_zero, Option.some.injEq, exists_eq_left']

theorem requestOf?_eq_run_iff {file : String} {seconds : UInt64} {config : Option String} :
    requestOf? sorted = some (.run file seconds config) ↔
      sorted.positional[0]? = some "run" ∧ sorted.positional[1]? = some file ∧
      ((sorted.positional[2]? = none ∧ seconds = 5) ∨
        ∃ text, sorted.positional[2]? = some text ∧ Numeral.Spells text seconds.toNat) ∧
      config = sorted.config := by
  obtain ⟨positional, held⟩ := sorted
  match positional with
  | [] => simp [requestOf?]
  | [command] => simp [requestOf?]
  | command :: name :: rest =>
    by_cases run : command = "run"
    · subst run
      have read : requestOf? ⟨"run" :: name :: rest, held⟩ = some (.run file seconds config) ↔
          name = file ∧ secondsOf? rest = some seconds ∧ config = held := by
        rw [requestOf?_cons, if_pos rfl, Option.map_eq_some_iff]
        constructor
        · rintro ⟨found, spelled, same⟩
          obtain ⟨rfl, rfl, rfl⟩ := Request.run.inj same
          exact ⟨rfl, spelled, rfl⟩
        · rintro ⟨rfl, spelled, rfl⟩
          exact ⟨seconds, spelled, rfl⟩
      rw [read, secondsOf?_eq_some_iff]
      simp
    · by_cases dis : command = "dis" <;> simp [requestOf?, run, dis]

theorem requestOf?_eq_list_iff {file : String} :
    requestOf? sorted = some (.list file) ↔
      sorted.positional[0]? = some "dis" ∧ sorted.positional[1]? = some file := by
  obtain ⟨positional, held⟩ := sorted
  match positional with
  | [] => simp [requestOf?]
  | [command] => simp [requestOf?]
  | command :: name :: rest =>
    by_cases run : command = "run"
    · simp [requestOf?, run]
    · by_cases dis : command = "dis" <;> simp [requestOf?, run, dis]

theorem requestOf?_eq_none_iff :
    requestOf? sorted = none ↔
      sorted.positional = [] ∨
      (∃ command, sorted.positional[0]? = some command ∧ command ≠ "run" ∧ command ≠ "dis") ∨
      sorted.positional[1]? = none ∨
      (sorted.positional[0]? = some "run" ∧ ∃ text, sorted.positional[2]? = some text ∧
        ¬ ∃ number < 2 ^ 64, Numeral.Spells text number) := by
  obtain ⟨positional, held⟩ := sorted
  match positional with
  | [] => simp [requestOf?]
  | [command] => simp [requestOf?]
  | command :: name :: rest =>
    by_cases run : command = "run"
    · subst run
      simp [requestOf?, secondsOf?_eq_none_iff]
    · by_cases dis : command = "dis" <;> simp [requestOf?, run, dis]

end Requests

/-! ### Options put in between -/

/-- A request without the file its settings come from. -/
def Request.unconfigured : Request → Request
  | .run file seconds _ => .run file seconds none
  | .list file => .list file

/-- What a request asks for besides settings does not depend on the options. -/
theorem map_unconfigured_requestOf? (positional : List String) (config other : Option String) :
    (requestOf? ⟨positional, config⟩).map Request.unconfigured =
      (requestOf? ⟨positional, other⟩).map Request.unconfigured := by
  match positional with
  | [] => rfl
  | [command] => rfl
  | command :: file :: rest =>
    rw [requestOf?_cons, requestOf?_cons]
    split
    · rw [Option.map_map, Option.map_map]
      rfl
    · split <;> rfl

/-- Two scans that differ at most in the value of the last option. -/
def Scan.Agree (left right : Scan) : Prop :=
  left.positional = right.positional ∧ left.awaiting = right.awaiting

theorem Scan.Agree.next {left right : Scan} (agree : left.Agree right) (argument : String) :
    (left.next argument).Agree (right.next argument) := by
  obtain ⟨positional, config, awaiting⟩ := left
  obtain ⟨_, other, _⟩ := right
  obtain ⟨rfl, rfl⟩ := agree
  cases awaiting
  · by_cases option : argument = configOption <;> simp [Scan.next, Agree, option]
  · simp [Scan.next, Agree]

theorem Scan.Agree.foldl_next {left right : Scan} (agree : left.Agree right)
    (arguments : List String) :
    (arguments.foldl Scan.next left).Agree (arguments.foldl Scan.next right) := by
  induction arguments generalizing left right with
  | nil => exact agree
  | cons argument rest previous => exact previous (agree.next argument)

theorem map_unconfigured_parse_insert {front : List String} (ready : (scan front).awaiting = false)
    (back : List String) (value : String) :
    (parse (front ++ configOption :: value :: back)).map Request.unconfigured =
      (parse (front ++ back)).map Request.unconfigured := by
  have inserted : scan (front ++ configOption :: value :: back) =
      back.foldl Scan.next (((scan front).next configOption).next value) := List.foldl_append
  have plain : scan (front ++ back) = back.foldl Scan.next (scan front) := List.foldl_append
  have agree : (((scan front).next configOption).next value).Agree (scan front) := by
    rw [Scan.next_next_configOption ready]
    exact ⟨rfl, ready.symm⟩
  obtain ⟨positional, awaiting⟩ := agree.foldl_next back
  rw [parse_eq_scan, parse_eq_scan, inserted, plain, positional, awaiting]
  split
  · rfl
  · exact map_unconfigured_requestOf? _ _ _

/-! ### What the command line accepts -/

/-- The arguments are scanned from left to right, an option taking the argument behind it
whatever it is. They are refused if the last option is left without a value, if the command is
missing or none of the two there are, if the file is missing, or if the third position of a run
spells no number of 64 bits. Otherwise they give the command, the file, the seconds, five if
there are none, and the value of the last option. An option that is put in where no other one
waits for its value leaves the command, the file and the seconds as they are. -/
theorem arguments_are_read_exactly (arguments : List String) :
    (parse arguments = none ↔
      (scan arguments).awaiting = true ∨
      (scan arguments).positional = [] ∨
      (∃ command, (scan arguments).positional[0]? = some command ∧
        command ≠ "run" ∧ command ≠ "dis") ∨
      (scan arguments).positional[1]? = none ∨
      ((scan arguments).positional[0]? = some "run" ∧
        ∃ text, (scan arguments).positional[2]? = some text ∧
          ¬ ∃ number < 2 ^ 64, Numeral.Spells text number)) ∧
    (∀ file seconds config, parse arguments = some (.run file seconds config) ↔
      (scan arguments).awaiting = false ∧
      (scan arguments).positional[0]? = some "run" ∧
      (scan arguments).positional[1]? = some file ∧
      (((scan arguments).positional[2]? = none ∧ seconds = 5) ∨
        ∃ text, (scan arguments).positional[2]? = some text ∧ Numeral.Spells text seconds.toNat) ∧
      config = (scan arguments).config) ∧
    (∀ file, parse arguments = some (.list file) ↔
      (scan arguments).awaiting = false ∧
      (scan arguments).positional[0]? = some "dis" ∧
      (scan arguments).positional[1]? = some file) ∧
    ∀ front back value, arguments = front ++ back → (scan front).awaiting = false →
      (parse (front ++ "--config" :: value :: back)).map Request.unconfigured =
        (parse arguments).map Request.unconfigured := by
  have parsed (request : Request) : parse arguments = some request ↔
      (scan arguments).awaiting = false ∧
        requestOf? ⟨(scan arguments).positional, (scan arguments).config⟩ = some request := by
    rw [parse_eq_scan]
    cases (scan arguments).awaiting <;> simp
  refine ⟨?_, fun file seconds config => ?_, fun file => ?_, ?_⟩
  · have refused : requestOf? ⟨(scan arguments).positional, (scan arguments).config⟩ = none ↔ _ :=
      requestOf?_eq_none_iff
    rw [parse_eq_scan, ← refused]
    cases (scan arguments).awaiting <;> simp
  · exact (parsed _).trans (and_congr_right' requestOf?_eq_run_iff)
  · exact (parsed _).trans (and_congr_right' requestOf?_eq_list_iff)
  · rintro front back value rfl ready
    exact map_unconfigured_parse_insert ready back value

/-- An option that looks like its own value is put in between the command and the file. -/
theorem arguments_are_read_exactly_inserting :
    parse ["run", "pong.rom", "+2"] = some (.run "pong.rom" 2 none) ∧
    (scan ["run"]).awaiting = false ∧
    (parse ["run", "--config", "--config", "pong.rom", "+2"]).map Request.unconfigured =
      some (.run "pong.rom" 2 none) := by
  obtain ⟨-, run, -, insert⟩ := arguments_are_read_exactly ["run", "pong.rom", "+2"]
  have spelled : Numeral.Spells "+2" 2 := ⟨[2], by decide, by decide, by decide, .inr rfl⟩
  have parsed : parse ["run", "pong.rom", "+2"] = some (.run "pong.rom" 2 none) :=
    (run "pong.rom" 2 none).mpr
      ⟨by decide, by decide, by decide, .inr ⟨"+2", by decide, spelled⟩, by decide⟩
  have ready : (scan ["run"]).awaiting = false := by decide
  have inserted := insert ["run"] ["pong.rom", "+2"] "--config" rfl ready
  rw [parsed] at inserted
  exact ⟨parsed, ready, inserted⟩

end CommandLine

end ChipEight
