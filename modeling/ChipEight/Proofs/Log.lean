/-
This file proves that the log of a machine is a faithful trace of what it does.

A cycle logs the word it dispatches, then that it waits if the word asks for a key, and then
its error if it fails. A cycle that dispatches nothing has only the error to log, if there is
one. That is one equation for all cycles, and since a cycle that fails is the last of its run,
it is also the equation of a run: the words dispatched, in order, and the error behind them.
The errors that a history logs are the errors that its operations return, so between two loads
that succeed there is at most one.
-/

import ChipEight.Proofs.Delivery
import ChipEight.Proofs.KeyWait
import ChipEight.Proofs.Verdict

namespace ChipEight

/-! ### Lines -/

/-- A line of a log: how much it matters and what it says. -/
structure LogLine where
  level : Level
  text : String
  deriving DecidableEq, Repr

def Notice.logLine (notice : Notice) : LogLine := ⟨notice.level, notice.text⟩

/-- What an operation logs, in order. -/
def Outcome.log {Result : Type} (outcome : Outcome Result) : List LogLine :=
  outcome.notices.toList.map Notice.logLine

namespace LogLine

/-- The line of a word that is dispatched: its address, of four digits at least, and its
assembly. -/
def executing (address : Nat) (word : Word) : LogLine :=
  ⟨.trace, Numeral.hexadecimal 4 address ++ ": " ++ word.mnemonic⟩

/-- The line of a word that waits for a key. -/
def waiting (word : Word) : LogLine :=
  ⟨.info, "waiting for key press into V" ++ Numeral.hexadecimal 1 word.x⟩

/-- The line of an error that stops the machine. -/
def halted (cause : Error) : LogLine := ⟨.error, "interpreter halted: " ++ cause.message⟩

example : executing 0x200 0xF30A = ⟨.trace, "0200: LD V3, K"⟩ := by
  cbv

example : waiting 0xF30A = ⟨.info, "waiting for key press into V3"⟩ := by
  cbv

def isTrace (line : LogLine) : Bool := line.level = .trace

def isError (line : LogLine) : Bool := line.level = .error

end LogLine

/-- The lines of a word that is dispatched at an address. -/
def dispatchLines (entry : Nat × Word) : List LogLine :=
  .executing entry.1 entry.2 :: if entry.2.fits "FX0A" then [.waiting entry.2] else []

/-- The line of an answer, if it is an error. -/
def failureLines {Result : Type} : Except Error Result → List LogLine
  | .error cause => [.halted cause]
  | .ok _ => []

section Levels

variable (entries : List (Nat × Word))

theorem filter_isTrace_dispatchLines :
    (entries.flatMap dispatchLines).filter LogLine.isTrace =
      entries.map fun entry => .executing entry.1 entry.2 := by
  have each (entry : Nat × Word) :
      (dispatchLines entry).filter LogLine.isTrace = [.executing entry.1 entry.2] := by
    unfold dispatchLines
    split <;> rfl
  rw [List.filter_flatMap]
  simp only [each]
  exact List.flatMap_pure_eq_map _ _

theorem filter_isError_dispatchLines :
    (entries.flatMap dispatchLines).filter LogLine.isError = [] := by
  have each (entry : Nat × Word) : (dispatchLines entry).filter LogLine.isError = [] := by
    unfold dispatchLines
    split <;> rfl
  rw [List.filter_flatMap]
  simp only [each]
  exact List.flatMap_eq_nil_iff.mpr fun _ _ => rfl

end Levels

section Answers

variable {Result : Type} (result : Except Error Result)

theorem filter_isTrace_failureLines : (failureLines result).filter LogLine.isTrace = [] := by
  cases result <;> rfl

theorem filter_isError_failureLines :
    (failureLines result).filter LogLine.isError = failureLines result := by
  cases result <;> rfl

end Answers

/-! ### Cycles -/

namespace Machine

/-- The address and the word that a cycle dispatches, if it comes to that: the machine is able to
do something, and the fetch succeeds. -/
def fetched? (machine : Machine) : Option (Nat × Word) :=
  if machine.halted || machine.awaiting.isSome then none
  else
    match machine.fetch with
    | .ok word => some (machine.pc, word)
    | .error _ => none

/-- What a number of cycles dispatch, in order. -/
def executions : Nat → Machine → List (Nat × Word)
  | 0, _ => []
  | count + 1, machine => machine.fetched?.toList ++ executions count machine.cycle.machine

theorem fetched?_of_isIdle {machine : Machine} (idle : machine.IsIdle) :
    machine.fetched? = none := by
  rw [fetched?, if_pos (by rwa [Bool.or_eq_true])]

theorem fetched?_of_not_isIdle {machine : Machine} (able : ¬ machine.IsIdle) :
    machine.fetched? =
      match machine.fetch with
      | .ok word => some (machine.pc, word)
      | .error _ => none := by
  rw [fetched?, if_neg (by rwa [Bool.or_eq_true])]

theorem executions_of_isIdle {machine : Machine} (idle : machine.IsIdle) (count : Nat) :
    machine.executions count = [] := by
  induction count with
  | zero => rfl
  | succ count previous =>
    rw [executions, fetched?_of_isIdle idle, (cycle_of_isIdle idle).1, previous]
    rfl

theorem not_isIdle_iff {machine : Machine} :
    ¬ machine.IsIdle ↔ machine.halted = false ∧ machine.awaiting = none := by
  simp [IsIdle]

/-- A word that waits for a key is never refused. -/
theorem fits_of_dispatch_eq_error {machine : Machine} {word : Word} {cause : Error}
    (failed : machine.dispatch word = .error cause) : word.fits "FX0A" = false := by
  cases fitting : word.fits "FX0A" with
  | false => rfl
  | true =>
    have decoded : Instruction.decode word = some (.awaitKey word.x) :=
      Instruction.decode_of_fits fitting rfl
    rw [dispatch, decoded] at failed
    cases failed

/-- An instruction that succeeds logs that it waits for a key if its word says so. -/
theorem map_logLine_notices {word : Word} {instruction : Instruction}
    (decoded : Instruction.decode word = some instruction) :
    instruction.notices.toList.map Notice.logLine =
      if word.fits "FX0A" then [.waiting word] else [] := by
  have carries := Instruction.carries_of_decode decoded
  rw [Instruction.fits_eq_of_decode decoded (by decide)]
  cases instruction with
  | awaitKey x =>
    obtain rfl : x = word.x := carries
    have text : "waiting for key press into " ++ ("V" ++ Numeral.hexadecimal 1 word.x) =
        "waiting for key press into V" ++ Numeral.hexadecimal 1 word.x :=
      String.toList_inj.mp (by simp)
    have line : (Notice.waitingForKey word.x).logLine = .waiting word :=
      congrArg (LogLine.mk .info) text
    rw [Instruction.pattern, decide_eq_true rfl, if_pos rfl, ← line]
    rfl
  | combine operation => cases operation <;> rfl
  | _ => rfl

/-- A cycle logs what it dispatches and then its error, if it fails. -/
theorem log_cycle (machine : Machine) :
    machine.cycle.log =
      machine.fetched?.toList.flatMap dispatchLines ++ failureLines machine.cycle.result := by
  cases machine.cycled with
  | stopped halted same =>
    rw [fetched?_of_isIdle (.inl halted), same]
    rfl
  | waiting _ waits same =>
    rw [fetched?_of_isIdle (.inr (by rw [waits]; rfl)), same]
    rfl
  | unfetched running awake beyond same =>
    rw [fetched?_of_not_isIdle (not_isIdle_iff.mpr ⟨running, awake⟩), fetch_eq,
      if_neg (Nat.not_le.mpr beyond), same]
    rfl
  | refused running awake inside failed same =>
    have silent := fits_of_dispatch_eq_error failed
    rw [fetched?_of_not_isIdle (not_isIdle_iff.mpr ⟨running, awake⟩), fetch_eq, if_pos inside, same]
    simp [stopOn, Outcome.log, dispatchLines, silent]
    exact ⟨rfl, rfl⟩
  | executed running awake inside decoded succeeded same =>
    rw [fetched?_of_not_isIdle (not_isIdle_iff.mpr ⟨running, awake⟩), fetch_eq, if_pos inside, same]
    simp [Outcome.log, dispatchLines, notices_of_execute succeeded, map_logLine_notices decoded]
    exact ⟨rfl, rfl⟩

/-! ### Runs -/

/-- A run logs what its cycles dispatch and then its error, if it fails. -/
theorem log_runFrom (last : Flow) (notices : Array Notice) (count : Nat) (machine : Machine) :
    (runFrom last notices count machine).log =
      notices.toList.map Notice.logLine ++ (machine.executions count).flatMap dispatchLines ++
        failureLines (runFrom last notices count machine).result := by
  -- A cycle that fails or is blocked leaves an idle machine, which dispatches nothing.
  induction count generalizing last notices machine with
  | zero => simp [runFrom, Outcome.log, executions, failureLines]
  | succ count previous =>
    have here := machine.log_cycle
    rw [Outcome.log] at here
    rw [executions, List.flatMap_append]
    cases ended : machine.cycle.result with
    | error cause =>
      have idle : machine.cycle.machine.IsIdle := .inl (halted_of_cycle_eq_error ended)
      rw [ended] at here
      simp [runFrom_of_error ended, Outcome.log, here, executions_of_isIdle idle]
    | ok flow =>
      rw [ended] at here
      cases blocked : flow.isBlocked with
      | true =>
        have idle := isIdle_of_isBlocked ended blocked
        simp [runFrom_of_isBlocked ended blocked, Outcome.log, here, executions_of_isIdle idle]
      | false =>
        rw [runFrom_of_not_isBlocked ended blocked, previous]
        simp [here, failureLines]

theorem log_run (machine : Machine) (count : Nat) :
    (machine.run count).log =
      (machine.executions count).flatMap dispatchLines ++ failureLines (machine.run count).result :=
  log_runFrom .next #[] count machine

/-- The errors in the log of a run are those that it returns. -/
theorem filter_isError_log_run (machine : Machine) (count : Nat) :
    (machine.run count).log.filter LogLine.isError = failureLines (machine.run count).result := by
  rw [log_run, List.filter_append, filter_isError_dispatchLines, filter_isError_failureLines]
  rfl

/-! ### Histories -/

/-- What a history logs, in order. -/
def logs (machine : Machine) : List Command → List LogLine
  | [] => []
  | command :: rest =>
    (machine.perform command).log ++ (machine.perform command).machine.logs rest

/-- The errors that an operation logs are those that it returns. -/
theorem filter_isError_log_perform (machine : Machine) (command : Command) :
    (machine.perform command).log.filter LogLine.isError =
      (machine.failuresNext [] command).map .halted := by
  have keyed (key : Key) (pressed : Bool) :
      ((machine.setKey key pressed).2.toList.map Notice.logLine).filter LogLine.isError = [] := by
    unfold setKey
    split <;> rfl
  cases command with
  | load program =>
    simp only [failuresNext, perform, load, replying]
    split <;> rfl
  | loadFont | tick => rfl
  | cycle =>
    have errors : machine.cycle.log.filter LogLine.isError = failureLines machine.cycle.result := by
      rw [log_cycle, List.filter_append, filter_isError_dispatchLines,
        filter_isError_failureLines]
      rfl
    refine errors.trans ?_
    simp only [failuresNext, perform, replying]
    cases machine.cycle.result <;> rfl
  | run count =>
    refine (machine.filter_isError_log_run count).trans ?_
    simp only [failuresNext, perform, replying]
    cases (machine.run count).result <;> rfl
  | keyEvent event =>
    simp only [failuresNext, perform, applyKeyEvent, replying]
    split
    case h_1 key _ => exact keyed key event.isPress
    case h_2 => rfl
  | setKey key pressed => exact keyed key pressed

/-- The errors that a history logs are those that its operations return, as long as no load
succeeds. -/
theorem filter_isError_logs (machine : Machine) {commands : List Command}
    (stays : ∀ command ∈ commands, command.reloads = false) :
    (machine.logs commands).filter LogLine.isError =
      (machine.failures [] commands).map .halted := by
  induction commands generalizing machine with
  | nil => rfl
  | cons command rest previous =>
    have others := fun other member => stays other (List.mem_cons_of_mem command member)
    rw [logs, List.filter_append, filter_isError_log_perform, previous _ others, failures,
      failures_of_stays _ (machine.failuresNext [] command) others, List.map_append]

/-- At most one error is returned from one load that succeeds to the next, and the log of a part
of that time shows no more. -/
theorem countP_isError_logs_le (settings : Settings) (generator : Generator)
    (history : List Command) {commands : List Command}
    (stays : ∀ command ∈ commands, command.reloads = false) :
    (((create settings generator).after history).logs commands).countP LogLine.isError ≤ 1 := by
  let start := create settings generator
  have fresh : start.Tallied [] := ⟨Nat.zero_le 1, iff_of_false nofun nofun⟩
  have all : (start.failures [] (history ++ commands)).length ≤ 1 :=
    (fresh.after (history ++ commands)).1
  rw [failures_append, failures_of_stays _ _ stays, List.length_append] at all
  rw [List.countP_eq_length_filter, filter_isError_logs _ stays, List.length_map]
  exact Nat.le_trans (Nat.le_add_left _ _) all

/-! ### The log is faithful -/

/-- On a machine with any history, a cycle of an idle machine logs nothing, and one whose fetch
fails logs the error it returns. Any other cycle logs the address and the assembly of its word,
then that it waits if the word asks for a key, and then the error it returns if it fails. So a run
traces what it dispatches, in order, and logs an error exactly if it returns one, which is then its
last line. As long as no load succeeds at most one error is logged. -/
theorem log_is_faithful (settings : Settings) (generator : Generator) (history : List Command) :
    let machine := (create settings generator).after history
    (machine.IsIdle → machine.cycle.log = []) ∧
    (¬ machine.IsIdle → ∀ cause, machine.fetch = .error cause →
      machine.cycle.result = .error cause ∧ machine.cycle.log = [.halted cause]) ∧
    (¬ machine.IsIdle → ∀ word, machine.fetch = .ok word →
      machine.cycle.log =
        .executing machine.pc word ::
          ((if word.fits "FX0A" then [.waiting word] else []) ++
            failureLines machine.cycle.result)) ∧
    (∀ count,
      let outcome := machine.run count
      outcome.log.filter LogLine.isTrace =
        ((machine.executions count).map fun entry => .executing entry.1 entry.2) ∧
      ((∃ line ∈ outcome.log, line.level = .error) ↔ ∃ cause, outcome.result = .error cause) ∧
      ∀ cause, outcome.result = .error cause →
        ∃ others, outcome.log = others ++ [.halted cause] ∧
          ∀ line ∈ others, line.level ≠ .error) ∧
    ∀ commands, (∀ command ∈ commands, command.reloads = false) →
      (machine.logs commands).countP LogLine.isError ≤ 1 := by
  intro machine
  have logged := machine.log_cycle
  refine ⟨fun idle => ?_, fun able cause failed => ?_, fun able word fetched => ?_,
    fun count => ⟨?_, ?_, fun cause failed => ?_⟩,
    fun commands stays => countP_isError_logs_le settings generator history stays⟩
  · obtain ⟨-, flow, ended, -⟩ := cycle_of_isIdle idle
    rw [logged, fetched?_of_isIdle idle, ended]
    rfl
  · obtain ⟨running, awake⟩ := not_isIdle_iff.mp able
    have ended : machine.cycle.result = .error cause := by
      rw [machine.cycle_result_of_ready running awake, failed]
      rfl
    refine ⟨ended, ?_⟩
    rw [logged, fetched?_of_not_isIdle able, failed, ended]
    rfl
  · rw [logged, fetched?_of_not_isIdle able, fetched]
    simp [dispatchLines]
  · rw [log_run, List.filter_append, filter_isTrace_dispatchLines, filter_isTrace_failureLines,
      List.append_nil]
  · have errors := machine.filter_isError_log_run count
    constructor
    · rintro ⟨line, member, isError⟩
      have kept : line ∈ failureLines (machine.run count).result := by
        rw [← errors]
        exact List.mem_filter.mpr ⟨member, decide_eq_true isError⟩
      cases ended : (machine.run count).result with
      | error cause => exact ⟨cause, rfl⟩
      | ok flow =>
        rw [ended] at kept
        exact absurd kept List.not_mem_nil
    · rintro ⟨cause, failed⟩
      refine ⟨.halted cause, ?_, rfl⟩
      rw [log_run, failed]
      exact List.mem_append_right _ List.mem_cons_self
  · refine ⟨(machine.executions count).flatMap dispatchLines, ?_, fun line member isError => ?_⟩
    · rw [log_run, failed]
      rfl
    · have none := filter_isError_dispatchLines (machine.executions count)
      exact List.filter_eq_nil_iff.mp none line member (decide_eq_true isError)

/-- A program that jumps to the last byte of memory, where no word is. -/
def leaping : List UInt8 := [0x1F, 0xFF]

/-- The machine behind the jump. -/
def leapt : Machine := (unloaded.loaded leaping).goTo 0xFFF

theorem after_cycle (machine : Machine) : machine.after [.cycle] = machine.cycle.machine := rfl

theorem after_load_unloaded {program : List UInt8}
    (fits : (Command.load program).reloads = true) :
    (create {} Generator.zeros).after [.load program] = unloaded.loaded program := by
  rw [after, perform, load_of_reloads fits]
  rfl

theorem after_asking :
    (create {} Generator.zeros).after ([.load asking] ++ [.cycle]) =
      beforeAsking.waitingFor 3 := by
  rw [after_append, after_load_unloaded (by decide), after_cycle]
  exact beginsWait_beforeAsking.cycle.2

theorem after_leaping :
    (create {} Generator.zeros).after ([.load leaping] ++ [.cycle]) = leapt := by
  have written : (unloaded.loaded leaping).word = 0x1FFF :=
    word_of_written leaping 0 (memory_loaded unloaded leaping) rfl (by decide) (by decide)
  have decoded : Instruction.decode (unloaded.loaded leaping).word = some (.jump 0xFFF) := by
    rw [written]
    rfl
  rw [after_append, after_load_unloaded (by decide), after_cycle,
    cycle_of_executed rfl rfl (by decide) decoded rfl]
  rfl

theorem fetch_leapt : leapt.fetch = .error (.outOfBounds .fetch 0xFFF 0xFFF) := by
  rw [fetch_eq, if_neg (by decide)]
  rfl

theorem fetch_beforeAsking : beforeAsking.fetch = .ok 0xF30A := by
  have written : beforeAsking.word = 0xF30A :=
    word_of_written asking 0 (memory_loaded unloaded asking) rfl (by decide) (by decide)
  rw [fetch_eq, if_pos beginsWait_beforeAsking.inside, written]

/-- The logs of a word that is data, of a wait for a key as it begins and as it lasts, and of a
fetch where no word is. -/
theorem log_is_faithful_leaping :
    let commands : List Command := [.tick, .run 3, .cycle]
    (¬ unloaded.IsIdle ∧ unloaded.fetch = .ok 0 ∧
      unloaded.cycle.log = [.executing 0x200 0, .halted (.unknownWord 0 0x200)]) ∧
    (¬ beforeAsking.IsIdle ∧ beforeAsking.fetch = .ok 0xF30A ∧
      beforeAsking.cycle.log = [.executing 0x200 0xF30A, .waiting 0xF30A]) ∧
    ((beforeAsking.waitingFor 3).IsIdle ∧ (beforeAsking.waitingFor 3).cycle.log = []) ∧
    (¬ leapt.IsIdle ∧ leapt.fetch = .error (.outOfBounds .fetch 0xFFF 0xFFF) ∧
      leapt.cycle.log = [.halted (.outOfBounds .fetch 0xFFF 0xFFF)]) ∧
    ((unloaded.run 2).result = .error (.unknownWord 0 0x200) ∧
      ∃ others, (unloaded.run 2).log = others ++ [.halted (.unknownWord 0 0x200)] ∧
        ∀ line ∈ others, line.level ≠ .error) ∧
    (∀ command ∈ commands, command.reloads = false) ∧
      (unloaded.logs commands).countP LogLine.isError ≤ 1 := by
  intro commands
  have stays : ∀ command ∈ commands, command.reloads = false := by decide
  have able : ¬ unloaded.IsIdle := not_isIdle_iff.mpr ⟨rfl, rfl⟩
  have awake : ¬ beforeAsking.IsIdle := not_isIdle_iff.mpr ⟨rfl, rfl⟩
  have onEnd : ¬ leapt.IsIdle := not_isIdle_iff.mpr ⟨rfl, rfl⟩
  have idle : (beforeAsking.waitingFor 3).IsIdle := .inr rfl
  have failed : (unloaded.run 2).result = .error (.unknownWord 0 0x200) := by
    rw [run, runFrom_of_error cycle_unloaded]
  obtain ⟨-, -, ofData, ofRun, ofHistory⟩ := log_is_faithful {} Generator.zeros []
  obtain ⟨-, -, ofWait, -, -⟩ := log_is_faithful {} Generator.zeros [.load asking]
  obtain ⟨ofIdle, -, -, -, -⟩ :=
    log_is_faithful {} Generator.zeros ([.load asking] ++ [.cycle])
  obtain ⟨-, ofEnd, -, -, -⟩ :=
    log_is_faithful {} Generator.zeros ([.load leaping] ++ [.cycle])
  have nothing : (create {} Generator.zeros).after [] = unloaded := rfl
  rw [nothing] at ofData ofRun ofHistory
  rw [after_load_unloaded (by decide), ← beforeAsking] at ofWait
  rw [after_asking] at ofIdle
  rw [after_leaping] at ofEnd
  refine ⟨⟨able, fetch_unloaded, ?_⟩, ⟨awake, fetch_beforeAsking, ?_⟩, ⟨idle, ofIdle idle⟩,
    ⟨onEnd, fetch_leapt, (ofEnd onEnd _ fetch_leapt).2⟩, ⟨failed, (ofRun 2).2.2 _ failed⟩,
    stays, ofHistory commands stays⟩
  · rw [ofData able 0 fetch_unloaded, cycle_unloaded]
    rfl
  · rw [ofWait awake 0xF30A fetch_beforeAsking, beginsWait_beforeAsking.cycle.1]
    rfl

end Machine

end ChipEight
