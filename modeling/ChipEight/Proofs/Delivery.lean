/-
This file proves that a scheduler hands every fatal error over once.

A fatal error is the error of a cycle. The scheduler keeps it until a run that ends takes it
along or a load that succeeds makes it obsolete, so what matters for errors are three kinds of
incidents: failures, loads and ends of runs. The error that is kept is that of a failure which is
the last incident so far. A machine that failed executes nothing until a load succeeds, so
while an error is kept there is no second one. This is why a failure is always settled by the
incident right behind it, and why an end of a run returns the error of the failure right before
it or none.
-/

import Mathlib.Data.List.Chain
import ChipEight.Proofs.Driving

namespace ChipEight

namespace Machine

/-! ### Counting errors along a history -/

theorem failures_append (machine : Machine) (earlier : List Error) (first second : List Command) :
    machine.failures earlier (first ++ second) =
      (machine.after first).failures (machine.failures earlier first) second := by
  induction first generalizing machine earlier with
  | nil => rfl
  | cons command rest previous => exact previous _ _

/-- A load that fails counts for nothing. -/
theorem failuresNext_of_not_reloads (machine : Machine) (earlier : List Error)
    {program : List UInt8} (fails : (Command.load program).reloads = false) :
    machine.failuresNext earlier (.load program) = earlier := by
  simp only [failuresNext, perform, load_of_not_reloads fails]
  rfl

/-- Until a load succeeds, errors are only added. -/
theorem failuresNext_of_stays (machine : Machine) (earlier : List Error) {command : Command}
    (stays : command.reloads = false) :
    machine.failuresNext earlier command = earlier ++ machine.failuresNext [] command := by
  cases command with
  | load program =>
    rw [failuresNext_of_not_reloads _ _ stays, failuresNext_of_not_reloads _ _ stays,
      List.append_nil]
  | cycle | run =>
    unfold failuresNext
    split <;> simp_all
  | _ => exact (List.append_nil earlier).symm

/-- A load that succeeds clears the count. -/
theorem failuresNext_of_reloads (machine : Machine) (earlier : List Error) {command : Command}
    (reloads : command.reloads = true) : machine.failuresNext earlier command = [] := by
  cases command with
  | load program =>
    simp only [failuresNext, perform, replying, load_of_reloads reloads]
    rfl
  | _ => contradiction

theorem failures_of_stays (machine : Machine) (earlier : List Error) {commands : List Command}
    (stays : ∀ command ∈ commands, command.reloads = false) :
    machine.failures earlier commands = earlier ++ machine.failures [] commands := by
  induction commands generalizing machine earlier with
  | nil => exact (List.append_nil earlier).symm
  | cons command rest previous =>
    have others := fun other member => stays other (List.mem_cons_of_mem command member)
    rw [failures, failures, machine.failuresNext_of_stays earlier (stays _ List.mem_cons_self),
      previous _ (earlier ++ _) others, previous _ (machine.failuresNext [] command) others,
      List.append_assoc]

/-- Whoever forgets the oldest errors forgets no others. -/
theorem failures_suffix (machine : Machine) {recent earlier : List Error}
    (suffix : recent <:+ earlier) (commands : List Command) :
    machine.failures recent commands <:+ machine.failures earlier commands := by
  induction commands generalizing machine recent earlier with
  | nil => exact suffix
  | cons command rest previous =>
    refine previous _ ?_
    cases stays : command.reloads with
    | false =>
      obtain ⟨forgotten, rfl⟩ := suffix
      rw [machine.failuresNext_of_stays recent stays,
        machine.failuresNext_of_stays (forgotten ++ recent) stays, List.append_assoc]
      exact List.suffix_append _ _
    | true =>
      rw [machine.failuresNext_of_reloads recent stays]
      exact List.nil_suffix

theorem failuresNext_run (machine : Machine) (earlier : List Error) (count : Nat) :
    machine.failuresNext earlier (.run count) =
      earlier ++ (machine.run count).error?.toList := by
  unfold failuresNext Outcome.error? perform replying
  cases ended : (machine.run count).result <;> simp [ended, Except.map]

/-- Ticks and key events never fail. -/
theorem failures_of_harmless (machine : Machine) (earlier : List Error) {commands : List Command}
    (harmless : ∀ command ∈ commands, command = .tick ∨ ∃ event, command = .keyEvent event) :
    machine.failures earlier commands = earlier := by
  induction commands generalizing machine with
  | nil => rfl
  | cons command rest previous =>
    have here : machine.failuresNext earlier command = earlier := by
      rcases harmless command List.mem_cons_self with rfl | ⟨event, rfl⟩ <;> rfl
    rw [failures, here]
    exact previous _ fun other member => harmless other (List.mem_cons_of_mem _ member)

/-! ### Errors of cycles -/

/-- Cycles of an idle machine never fail. -/
theorem failures_replicate_of_isIdle {machine : Machine} (idle : machine.IsIdle)
    (earlier : List Error) (count : Nat) :
    machine.failures earlier (List.replicate count .cycle) = earlier := by
  induction count with
  | zero => rfl
  | succ count previous =>
    obtain ⟨same, flow, ended, -⟩ := cycle_of_isIdle idle
    have here : machine.failuresNext earlier .cycle = earlier := by
      simp only [failuresNext, perform, replying, ended, Except.map]
    have next : (machine.perform .cycle).machine = machine := same
    rw [List.replicate_succ, failures, here, next, previous]

/-- A run fails as its cycles fail. -/
theorem failures_replicate_cycle (machine : Machine) (earlier : List Error) (count : Nat)
    (last : Flow) (notices : Array Notice) :
    machine.failures earlier (List.replicate count .cycle) =
      earlier ++ (runFrom last notices count machine).error?.toList := by
  induction count generalizing machine last notices with
  | zero => exact (List.append_nil earlier).symm
  | succ count previous =>
    rw [List.replicate_succ, failures]
    show machine.cycle.machine.failures _ _ = _
    cases ended : machine.cycle.result with
    | error cause =>
      have idle : machine.cycle.machine.IsIdle := .inl (halted_of_cycle_eq_error ended)
      rw [failures_replicate_of_isIdle idle, runFrom_of_error ended]
      simp only [failuresNext, perform, replying, ended, Except.map]
      rfl
    | ok flow =>
      have here : machine.failuresNext earlier .cycle = earlier := by
        simp only [failuresNext, perform, replying, ended, Except.map]
      rw [here]
      cases blocked : flow.isBlocked with
      | true =>
        rw [failures_replicate_of_isIdle (isIdle_of_isBlocked ended blocked),
          runFrom_of_isBlocked ended blocked]
        exact (List.append_nil earlier).symm
      | false => rw [previous, runFrom_of_not_isBlocked ended blocked]

/-- A history and its written-out form fail alike. -/
theorem failures_unroll (machine : Machine) (earlier : List Error) (commands : List Command) :
    machine.failures earlier (unroll commands) = machine.failures earlier commands := by
  induction commands generalizing machine earlier with
  | nil => rfl
  | cons command rest previous =>
    have here : machine.failures earlier command.unrolled =
        machine.failuresNext earlier command := by
      cases command with
      | run count =>
        rw [failuresNext_run]
        exact machine.failures_replicate_cycle earlier count .next #[]
      | _ => rfl
    show machine.failures earlier (command.unrolled ++ unroll rest) = _
    rw [failures_append, after_unrolled, here, previous]
    rfl

/-- The error that a single step adds is that of a cycle. -/
theorem eq_cycle_of_mem_failuresNext {machine : Machine} {command : Command} {cause : Error}
    (single : ∀ count, command ≠ .run count) (failed : cause ∈ machine.failuresNext [] command) :
    command = .cycle ∧ machine.cycle.result = .error cause := by
  cases command with
  | cycle =>
    refine ⟨rfl, ?_⟩
    cases ended : machine.cycle.result with
    | ok flow =>
      simp only [failuresNext, perform, replying, ended, Except.map] at failed
      contradiction
    | error other =>
      simp only [failuresNext, perform, replying, ended, Except.map] at failed
      rw [List.mem_singleton.mp failed]
  | run count => exact absurd rfl (single count)
  | load program =>
    unfold failuresNext at failed
    split at failed <;> contradiction
  | _ => contradiction

/-- An error that counts is that of a cycle since which no load has succeeded. -/
theorem exists_cycle_of_mem_failures {machine : Machine} {earlier : List Error}
    {steps : List Command} (single : ∀ step ∈ steps, ∀ count, step ≠ .run count) {cause : Error}
    (failed : cause ∈ machine.failures earlier steps) :
    (cause ∈ earlier ∧ ∀ step ∈ steps, step.reloads = false) ∨
      ∃ first rest, steps = first ++ .cycle :: rest ∧
        (machine.after first).cycle.result = .error cause ∧
        ∀ step ∈ rest, step.reloads = false := by
  induction steps generalizing machine earlier with
  | nil => exact .inl ⟨failed, nofun⟩
  | cons command rest previous =>
    rcases previous (fun step member => single step (List.mem_cons_of_mem _ member)) failed with
      ⟨counted, stays⟩ | ⟨first, last, rfl, fails, stays⟩
    · cases reloads : command.reloads with
      | true =>
        rw [machine.failuresNext_of_reloads earlier reloads] at counted
        contradiction
      | false =>
        rw [machine.failuresNext_of_stays earlier reloads, List.mem_append] at counted
        rcases counted with before | here
        · refine .inl ⟨before, fun step member => ?_⟩
          rcases List.mem_cons.mp member with rfl | later
          · exact reloads
          · exact stays step later
        · obtain ⟨rfl, fails⟩ :=
            eq_cycle_of_mem_failuresNext (single command List.mem_cons_self) here
          exact .inr ⟨[], rest, rfl, fails, stays⟩
    · exact .inr ⟨command :: first, last, rfl, fails, stays⟩

/-- No cycle of a machine that has not stopped says that it has, as long as none fails. -/
theorem cycle_ne_halt {machine : Machine} (running : machine.halted = false) (index : Nat)
    (succeeded : ∀ earlier < index, ∃ flow, (machine.cycles earlier).cycle.result = .ok flow) :
    (machine.cycles index).cycle.result ≠ .ok .halt := by
  induction index generalizing machine with
  | zero =>
    show machine.cycle.result ≠ _
    cases machine.cycled with
    | stopped halted => exact absurd halted (by rw [running]; exact Bool.false_ne_true)
    | waiting _ _ same | unfetched _ _ _ same | refused _ _ _ _ same => rw [same]; nofun
    | @executed instruction _ _ _ _ _ executed same =>
      rw [same, flow_of_execute executed]
      cases instruction with
      | combine operation => cases operation <;> nofun
      | _ => nofun
  | succ index previous =>
    obtain ⟨flow, first⟩ := succeeded 0 (Nat.succ_pos index)
    have stillRunning := (halted_of_cycle_eq_ok first).trans running
    exact previous stillRunning fun earlier less =>
      succeeded (earlier + 1) (Nat.succ_lt_succ less)

end Machine

/-! ### Incidents -/

/-- What matters for the error that a scheduler keeps: a cycle fails, a load succeeds, or a run
ends and returns. -/
inductive Incident
  | failed (cause : Error)
  | loaded
  | returned (result : Except Error Unit)

namespace Incident

def error? : Incident → Option Error
  | failed cause => some cause
  | loaded | returned _ => none

/-- What the next incident may be. A failure is forgotten by a load or returned by the end of a
run, with its error. No end of a run returns an error otherwise. -/
def LeadsTo : Incident → Incident → Prop
  | failed cause, next => next = loaded ∨ next = returned (.error cause)
  | loaded, next | returned _, next => ∀ cause, next ≠ returned (.error cause)

/-- A load may come at any time. -/
theorem leadsTo_loaded (last : Incident) : last.LeadsTo loaded := by
  cases last with
  | failed cause => exact .inl rfl
  | loaded | returned =>
    intro cause same
    cases same

/-- A failure may come as long as no other one awaits its settlement. -/
theorem leadsTo_failed {last : Incident} (settled : last.error? = none) (cause : Error) :
    last.LeadsTo (failed cause) := by
  cases last with
  | failed => contradiction
  | loaded | returned =>
    intro other same
    cases same

/-- A run may end at any time with the error that awaits its settlement. -/
theorem leadsTo_returned (last : Incident) :
    last.LeadsTo (returned (match last.error? with
      | some cause => .error cause
      | none => .ok ())) := by
  cases last with
  | failed cause => exact .inr rfl
  | loaded | returned =>
    intro cause same
    cases same

/-- Incidents of which each may come behind the one before it. -/
def InOrder (incidents : List Incident) : Prop := incidents.IsChain LeadsTo

theorem InOrder.pair {last next : Incident} (leads : last.LeadsTo next) : InOrder [last, next] :=
  List.isChain_cons_cons.mpr ⟨leads, List.isChain_singleton next⟩

theorem InOrder.append {last : Incident} {first second : List Incident}
    (earlier : InOrder (last :: first)) (later : InOrder (first.getLastD last :: second)) :
    InOrder (last :: (first ++ second)) := by
  rcases List.eq_nil_or_concat first with rfl | ⟨front, middle, rfl⟩
  · exact later
  · rw [List.concat_eq_append, List.getLastD_concat] at later
    rw [List.concat_eq_append] at earlier ⊢
    show List.IsChain LeadsTo ((last :: front) ++ [middle] ++ second)
    rw [List.append_assoc]
    exact List.isChain_split.mpr ⟨earlier, later⟩

end Incident

namespace Scheduler

/-- The operation ends with an incident if it is a load that succeeds or a run that ends. -/
def Operation.settlement? : Operation → Option Incident
  | ⟨before, .load program⟩ =>
    match (before.load program).1 with
    | .ok _ => some .loaded
    | .error _ => none
  | ⟨before, .run deadline now readings⟩ =>
    (before.runUntil deadline now readings).ended.map .returned
  | _ => none

/-- The incidents of an operation: the errors of the cycles it comes down to, then its end. -/
def Operation.incidents (operation : Operation) : List Incident :=
  (operation.before.machine.failures []
      (operation.before.machineCommands [operation.command])).map .failed ++
    operation.settlement?.toList

/-- The incidents of a history. -/
def incidents (scheduler : Scheduler) (history : List Command) : List Incident :=
  (scheduler.trace history).flatMap Operation.incidents

/-! ### The error that is kept -/

/-- A poll fails as its batch fails. -/
theorem failures_poll (scheduler : Scheduler) (now : Nat) (earlier : List Error) :
    scheduler.machine.failures earlier (Operation.machineCommands ⟨scheduler, .poll now⟩) =
      earlier ++ if scheduler.ready.cpu.isDue now then
        (scheduler.ready.batchOutcome now).error?.toList else [] := by
  have events (machine : Machine) (earlier : List Error) :
      machine.failures earlier scheduler.inputCommands = earlier := by
    refine machine.failures_of_harmless earlier fun command member => .inr ?_
    obtain ⟨event, -, rfl⟩ := List.mem_map.mp member
    exact ⟨event, rfl⟩
  have ticks (machine : Machine) (earlier : List Error) :
      machine.failures earlier (scheduler.ready.aheadOfBatch now) = earlier ∧
        machine.failures earlier (scheduler.ready.behindBatch now) = earlier := by
    unfold aheadOfBatch behindBatch tickCommands
    constructor <;> (repeat' split) <;> rfl
  rw [Operation.machineCommands, Machine.failures_append, events, loopCommands,
    Machine.failures_append, Machine.failures_append, (ticks _ _).1, (ticks _ _).2, batchCommands]
  cases scheduler.ready.cpu.isDue now with
  | false => exact (List.append_nil earlier).symm
  | true => exact Machine.failuresNext_run _ _ _

/-- A piece of work keeps the error with which operations on the machine fail, from the error that
was kept before it, and leads where they lead. -/
structure Keeps (scheduler : Scheduler) (turn : Turn) (commands : List Machine.Command) :
    Prop where
  machine : turn.scheduler.machine = scheduler.machine.after commands
  error : turn.scheduler.error.toList =
    scheduler.machine.failures scheduler.error.toList commands

theorem composes_keeps : Composes Keeps where
  idle _ := ⟨rfl, rfl⟩
  andThen here later := by
    refine ⟨?_, ?_⟩
    · rw [Machine.after_append, ← here.machine]
      exact later.machine
    · rw [Machine.failures_append, ← here.machine, ← here.error]
      exact later.error

theorem keeps_perform : HoldsSingly Keeps Operation.machineCommands := by
  intro scheduler command coherent single
  refine ⟨(perform_comesDownTo coherent single).machine, ?_⟩
  cases command with
  | poll now =>
    rw [failures_poll]
    show (scheduler.poll now).scheduler.error.toList = _
    rw [poll_eq coherent]
    cases due : scheduler.ready.cpu.isDue now with
    | false => exact (List.append_nil _).symm
    | true =>
      have clear := coherent.ready.error_eq_none (Bool.and_eq_true_iff.mp due).1
      rw [show scheduler.error = none from clear]
      rfl
  | load program =>
    show (scheduler.load program).2.scheduler.error.toList =
      scheduler.machine.failuresNext scheduler.error.toList (.load program)
    cases reloads : (Machine.Command.load program).reloads with
    | true =>
      rw [Machine.failuresNext_of_reloads _ _ reloads, load_of_reloads _ reloads]
      rfl
    | false =>
      rw [Machine.failuresNext_of_not_reloads _ _ reloads, load_of_not_reloads _ reloads]
      rfl
  | run deadline now readings => exact absurd rfl (single deadline now readings)
  | _ => rfl

/-! ### Incidents account for the error -/

/-- Incidents that are in order and account for the error that is kept before them go on in order,
and account for the error that is kept after them. -/
def Accounts (scheduler : Scheduler) (turn : Turn) (incidents : List Incident) : Prop :=
  ∀ last : Incident, scheduler.error = last.error? →
    Incident.InOrder (last :: incidents) ∧
      turn.scheduler.error = (incidents.getLastD last).error?

theorem Accounts.refl (scheduler : Scheduler) : Accounts scheduler (Turn.idle scheduler) [] :=
  fun last accounted => ⟨List.isChain_singleton last, accounted⟩

theorem Accounts.trans {scheduler : Scheduler} {turn next : Turn} {first second : List Incident}
    (here : Accounts scheduler turn first) (later : Accounts turn.scheduler next second) :
    Accounts scheduler next (first ++ second) := by
  intro last accounted
  obtain ⟨inOrder, middle⟩ := here last accounted
  obtain ⟨goesOn, kept⟩ := later _ middle
  rw [getLastD_append]
  exact ⟨inOrder.append goesOn, kept⟩

theorem composes_accounts : Composes Accounts where
  idle := .refl
  andThen here later := here.trans later

/-- The errors of operations on the machine account for the error that is kept, if no load
succeeds. -/
theorem Keeps.accounts {scheduler : Scheduler} {turn : Turn} {commands : List Machine.Command}
    (keeps : Keeps scheduler turn commands)
    (stays : ∀ command ∈ commands, command.reloads = false) :
    Accounts scheduler turn ((scheduler.machine.failures [] commands).map .failed) := by
  intro last accounted
  have errors := keeps.error
  rw [Machine.failures_of_stays _ _ stays] at errors
  -- With an error kept there is room for no other, since only one is kept afterwards.
  cases kept : scheduler.error with
  | some cause =>
    rw [kept] at errors accounted
    cases after : turn.scheduler.error with
    | none =>
      rw [after] at errors
      contradiction
    | some other =>
      rw [after] at errors
      obtain ⟨rfl, others⟩ := List.cons.inj errors
      rw [← show [] = scheduler.machine.failures [] commands from others]
      exact ⟨List.isChain_singleton last, accounted⟩
  | none =>
    rw [kept] at errors accounted
    cases after : turn.scheduler.error with
    | none =>
      rw [after] at errors
      rw [← show [] = scheduler.machine.failures [] commands from errors]
      exact ⟨List.isChain_singleton last, accounted⟩
    | some cause =>
      rw [after] at errors
      rw [← show [cause] = scheduler.machine.failures [] commands from errors]
      exact ⟨.pair (Incident.leadsTo_failed accounted.symm cause), rfl⟩

/-- Handing the error over is what a failure leads to. -/
theorem accounts_handOver (scheduler : Scheduler) :
    Accounts scheduler (Turn.idle scheduler.handOver.1) [.returned scheduler.handOver.2] := by
  intro last accounted
  unfold handOver
  rw [accounted]
  exact ⟨.pair last.leadsTo_returned, rfl⟩

/-- The incidents of every operation account for the error. -/
theorem accounts_perform {scheduler : Scheduler} (coherent : scheduler.Coherent)
    (command : Command) :
    Accounts scheduler (scheduler.perform command).turn
      (Operation.incidents ⟨scheduler, command⟩) := by
  have keeps := composes_keeps.unrolled keeps_perform coherent command
  rw [← machineCommands_singleton] at keeps
  have faults (loadless : command.isLoad = false) :=
    keeps.accounts fun _ => reloads_of_mem_machineCommands loadless
  cases command with
  | load program =>
    have failures : scheduler.machine.failures [] (scheduler.machineCommands [.load program]) =
        [] := by
      show scheduler.machine.failuresNext [] (.load program) = []
      cases reloads : (Machine.Command.load program).reloads with
      | true => exact Machine.failuresNext_of_reloads _ _ reloads
      | false => exact Machine.failuresNext_of_not_reloads _ _ reloads
    intro last accounted
    rw [Operation.incidents, failures]
    cases reloads : (Machine.Command.load program).reloads with
    | true =>
      simp only [Operation.settlement?, perform, load_of_reloads _ reloads]
      exact ⟨.pair last.leadsTo_loaded, rfl⟩
    | false =>
      simp only [Operation.settlement?, perform, load_of_not_reloads _ reloads]
      exact ⟨List.isChain_singleton last, accounted⟩
  | run deadline now readings =>
    rw [Operation.incidents]
    rcases scheduler.runUntil_eq deadline now readings with ran | ⟨-, ran⟩
    · simp only [Operation.settlement?, perform, ran]
      exact (faults rfl).trans (.refl _)
    · simp only [Operation.settlement?, perform, ran]
      exact (faults rfl).trans (accounts_handOver _)
  | _ =>
    rw [← after_singleton]
    exact (faults rfl).trans (.refl _)

/-! ### The cycle that failed -/

/-- A piece of work leads where operations on the machine lead, and keeps no error but those with
which they fail. -/
structure Remembers (scheduler : Scheduler) (turn : Turn) (commands : List Machine.Command) :
    Prop where
  machine : turn.scheduler.machine = scheduler.machine.after commands
  error : ∀ errors, scheduler.error.toList <:+ errors →
    turn.scheduler.error.toList <:+ scheduler.machine.failures errors commands

theorem composes_remembers : Composes Remembers where
  idle _ := ⟨rfl, fun _ kept => kept⟩
  andThen here later := by
    refine ⟨?_, fun errors kept => ?_⟩
    · rw [Machine.after_append, ← here.machine]
      exact later.machine
    · rw [Machine.failures_append, ← here.machine]
      exact later.error _ (here.error errors kept)

theorem remembers_perform {scheduler : Scheduler} (coherent : scheduler.Coherent)
    (command : Command) :
    Remembers scheduler (scheduler.perform command).turn (scheduler.machineCommands [command]) := by
  have same := scheduler.perform_eq_after_unrolled command
  have keeps := composes_keeps.unrolled keeps_perform coherent command
  rw [← machineCommands_singleton] at keeps
  refine ⟨same.machine.trans keeps.machine, fun errors kept => ?_⟩
  have unrolled : (scheduler.after (scheduler.unrolled command)).scheduler.error.toList <:+
      scheduler.machine.failures errors (scheduler.machineCommands [command]) := by
    rw [keeps.error]
    exact Machine.failures_suffix _ kept _
  cases command with
  | run deadline now readings =>
    rcases scheduler.runUntil_eq deadline now readings with ran | ⟨-, ran⟩
    · simp only [perform, ran]
      exact unrolled
    · simp only [perform, ran]
      exact List.nil_suffix
  | _ => exact unrolled

theorem flatMap_machineCommands_trace (scheduler : Scheduler) (history : List Command) :
    ((scheduler.trace history).flatMap fun operation =>
        operation.before.machineCommands [operation.command]) =
      scheduler.machineCommands history := by
  induction history generalizing scheduler with
  | nil => rfl
  | cons command rest previous =>
    rw [machineCommands_cons, ← previous]
    rfl

/-- The error that is kept is that of the cycle that stopped the machine. -/
theorem exists_cycle_of_error (settings : Settings) (generator : Generator) (created : Nat)
    (history : List Command) {cause : Error} :
    let fresh := Machine.create settings generator
    let start := create fresh created
    (start.after history).scheduler.error = some cause →
      ∃ first rest, Machine.unroll (start.machineCommands history) = first ++ .cycle :: rest ∧
        (fresh.after first).cycle.result = .error cause ∧
        ∀ step ∈ rest, step.reloads = false := by
  intro fresh start kept
  have coherent : start.Coherent := coherent_create fresh created
  have remembers : Remembers start (start.after history) ((start.trace history).flatMap
      fun operation => operation.before.machineCommands [operation.command]) :=
    composes_remembers.trace coherent fun _ command _ coherent =>
      remembers_perform coherent command
  rw [flatMap_machineCommands_trace] at remembers
  have counted := remembers.error [] List.suffix_rfl
  rw [kept] at counted
  have failed : cause ∈ fresh.failures [] (Machine.unroll (start.machineCommands history)) := by
    rw [Machine.failures_unroll]
    exact counted.subset (List.mem_singleton.mpr rfl)
  rcases Machine.exists_cycle_of_mem_failures (fun _ member => (Machine.mem_unroll member).1)
    failed with ⟨before, -⟩ | found
  · contradiction
  · exact found

/-! ### Keeping the books -/

/-- What holds of the flags of a scheduler, of its loops and of the error that it keeps. -/
structure Orderly (scheduler : Scheduler) : Prop where
  /-- The instruction loop is active only while the machine has not stopped. -/
  running : scheduler.cpu.active = true → scheduler.machine.halted = false
  /-- No cycle of a batch finds that the machine has stopped. -/
  batch : ∀ now, scheduler.ready.cpu.isDue now = true → ∀ index,
    let machine := scheduler.ready.machine.after (scheduler.ready.aheadOfBatch now)
    (∀ earlier < index, ∃ flow, (machine.cycles earlier).cycle.result = .ok flow) →
      (machine.cycles index).cycle.result ≠ .ok .halt
  /-- Activating starts the timer loop, and the instruction loop too unless the machine has
  stopped. -/
  activated : ∀ now,
    let activated := (scheduler.activate now).scheduler
    activated.timers.active = true ∧ activated.cpu.active = !scheduler.machine.halted
  /-- A batch that fails ends its loop and leaves its error. The timer loop is as it would be
  without the batch. -/
  failed : ∀ now cause, scheduler.ready.cpu.isDue now = true →
    (scheduler.ready.batchOutcome now).result = .error cause →
    let polled := (scheduler.poll now).scheduler
    polled.cpu.active = false ∧ polled.error = some cause ∧
      polled.timers = (pollTimers now scheduler.ready).scheduler.timers
  /-- A run that ends keeps no error. -/
  returned : ∀ deadline now readings result,
    (scheduler.runUntil deadline now readings).ended = some result →
      (scheduler.runUntil deadline now readings).turn.scheduler.error = none
  /-- A load that fails changes nothing. -/
  refused : ∀ program cause, (scheduler.perform (.load program)).result = .error cause →
    (scheduler.perform (.load program)).turn = Turn.idle scheduler

theorem Coherent.orderly {scheduler : Scheduler} (coherent : scheduler.Coherent) :
    scheduler.Orderly where
  running := coherent.running
  batch := by
    intro now due index machine succeeded
    have running := coherent.ready.running (Bool.and_eq_true_iff.mp due).1
    have ticked := (scheduler.ready.halted_after_ticks scheduler.ready.machine now).1
    exact Machine.cycle_ne_halt (ticked.trans running) index succeeded
  activated _ := ⟨rfl, rfl⟩
  failed := by
    intro now cause due fails polled
    have same := congrArg Turn.scheduler (poll_eq coherent now)
    rw [show polled = _ from same, pollTimers_eq]
    simp [due, Outcome.error?, fails, Except.isOk, Except.toBool, Loop.rest, Loop.setActive]
  returned deadline now readings result ended := by
    rcases scheduler.runUntil_eq deadline now readings with ran | ⟨-, ran⟩
    · rw [ran] at ended
      contradiction
    · rw [ran]
      rfl
  refused program cause fails := by
    cases reloads : (Machine.Command.load program).reloads with
    | true =>
      simp only [Scheduler.perform, load_of_reloads _ reloads] at fails
      contradiction
    | false => simp only [Scheduler.perform, load_of_not_reloads _ reloads]

/-- On a scheduler with any history the flags agree with each other. An error is kept only while
the machine has stopped, and it is the error of the cycle that stopped it, since which no load has
succeeded. Every fatal error is forgotten by the load, or returned by the end of the run, that is
the first to come after it, and no run returns an error otherwise. The error that is kept is the
one for which neither has happened yet. -/
theorem errors_are_returned_once (settings : Settings) (generator : Generator) (created : Nat)
    (history : List Command) :
    let fresh := Machine.create settings generator
    let start := create fresh created
    let steps := Machine.unroll (start.machineCommands history)
    let incidents := start.incidents history
    let later := (start.after history).scheduler
    later.Orderly ∧
    later.machine = fresh.after steps ∧
    (∀ cause, later.error = some cause →
      later.machine.halted = true ∧
      ∃ first rest, steps = first ++ .cycle :: rest ∧
        (fresh.after first).halted = false ∧
        (fresh.after first).cycle.result = .error cause ∧
        ∀ step ∈ rest, step.reloads = false) ∧
    Incident.InOrder (.loaded :: incidents) ∧
    later.error = (incidents.getLastD .loaded).error? := by
  intro fresh start steps incidents later
  have atFirst : start.Coherent := coherent_create fresh created
  have coherent : later.Coherent := atFirst.after history
  have machine : later.machine = fresh.after steps :=
    (after_comesDownTo atFirst history).machine.trans (Machine.after_unroll _ _).symm
  have accounts : Accounts start (start.after history) incidents :=
    composes_accounts.trace atFirst fun _ command _ coherent =>
      accounts_perform coherent command
  refine ⟨coherent.orderly, machine, fun cause kept => ⟨coherent.stopped cause kept, ?_⟩,
    accounts .loaded rfl⟩
  obtain ⟨first, rest, cut, fails, stays⟩ :=
    exists_cycle_of_error settings generator created history kept
  exact ⟨first, rest, cut, (Machine.cycle_eq_error fails).1, fails, stays⟩

/-- A poll keeps the error of the first cycle. -/
theorem error_of_first_cycle {machine : Machine} {cause : Error} {count : Nat}
    (many : machine.settings.cyclesPerTick.toNat = count + 1)
    (failed : machine.cycle.result = .error cause) (now : Nat) :
    ((create machine now).after [.activate now, .poll now]).scheduler.error = some cause := by
  have running : machine.halted = false := (Machine.cycle_eq_error failed).1
  have coherent : ((create machine now).activate now).scheduler.Coherent :=
    (coherent_create machine now).activate now
  have due : ((create machine now).activate now).scheduler.ready.cpu.isDue now = true := by
    show (!false && !machine.halted && decide (now ≤ now)) = true
    rw [running, decide_eq_true (Nat.le_refl now)]
    rfl
  have ahead : ((create machine now).activate now).scheduler.ready.aheadOfBatch now = [] :=
    if_neg (Nat.lt_irrefl now)
  have fails : (((create machine now).activate now).scheduler.ready.batchOutcome now).result =
      .error cause := by
    rw [batchOutcome, ahead]
    show (machine.run machine.settings.cyclesPerTick.toNat).result = _
    rw [many, Machine.run, Machine.runFrom_of_error failed]
  exact (coherent.orderly.failed now cause due fails).2.1

/-- Without a program the error of the first word is kept. -/
theorem errors_are_returned_once_unloaded :
    ∃ start later, start = create (Machine.create {} Generator.zeros) 0 ∧
      later = (start.after [.activate 0, .poll 0]).scheduler ∧
      later.error = some (.unknownWord 0 0x200) ∧ later.machine.halted = true ∧
      ((start.incidents [.activate 0, .poll 0]).getLastD .loaded).error? =
        some (.unknownWord 0 0x200) := by
  have unloaded : Machine.create {} Generator.zeros = Machine.unloaded := rfl
  have many : Machine.unloaded.settings.cyclesPerTick.toNat = 9 + 1 := rfl
  have kept := error_of_first_cycle many Machine.cycle_unloaded 0
  obtain ⟨-, -, stopped, -, accounted⟩ :=
    errors_are_returned_once {} Generator.zeros 0 [.activate 0, .poll 0]
  rw [unloaded] at stopped accounted ⊢
  exact ⟨_, _, rfl, rfl, kept, (stopped _ kept).1, accounted.symm.trans kept⟩

end Scheduler

end ChipEight
