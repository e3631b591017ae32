/-
This file proves that a program which reads neither timers nor keys cannot tell how it is
driven.

The core of a machine is everything but its settings, its timers and its keys. To have one
core is a likeness that goes through every cycle which executes no instruction that looks at
a timer or a key, and ticks and keys leave the core as it is. So however cycles, ticks and
keys are interleaved, by hand or by a scheduler, the core is the one that cycles alone lead
to, and which one that is depends on nothing but the number of attempts.
-/

import ChipEight.Proofs.Likeness
import ChipEight.Proofs.Nesting
import ChipEight.Proofs.Verdict

namespace ChipEight

/-! ### Instructions that look outside -/

/-- Whether an attempt is one of an instruction that reads a timer or a key. -/
def looksOutside : Attempt → Bool
  | .ok word => word.fitsAny ["FX07", "EX9E", "EXA1", "FX0A"]
  | .error _ => false

/-- Attempts of a program that reads neither timers nor keys. -/
def Secluded (attempts : List Attempt) : Prop := ∀ attempt ∈ attempts, looksOutside attempt = false

theorem secluded_cons {attempt : Attempt} {rest : List Attempt} :
    Secluded (attempt :: rest) ↔ looksOutside attempt = false ∧ Secluded rest :=
  List.forall_mem_cons

/-- Whether an instruction reads a timer or a key. -/
def Instruction.looksOutside : Instruction → Bool
  | readDelay _ | skipIfKey _ | skipUnlessKey _ | awaitKey _ => true
  | _ => false

theorem looksOutside_of_decode {word : Word} {instruction : Instruction}
    (decoded : Instruction.decode word = some instruction) :
    looksOutside (.ok word) = instruction.looksOutside := by
  rw [looksOutside, Instruction.fitsAny_eq_of_decode decoded (by decide)]
  cases instruction with
  | combine operation x y => cases operation <;> rfl
  | _ => simp [Instruction.pattern, Instruction.looksOutside]

/-! ### Cores -/

/-- The machine with settings, timers and keys that say nothing. -/
def Machine.core (machine : Machine) : Machine :=
  { machine with settings := {}, delay := 0, sound := 0, keypad := Keypad.released }

/-- The likeness of machines that have one core. -/
def Likeness.core : Likeness :=
  { equality with
    settings := fun _ _ => True
    delay := fun _ _ => True
    sound := fun _ _ => True
    keypad := fun _ _ => True }

theorem Likeness.onMachines_core_iff {machine machine' : Machine} :
    core.OnMachines machine machine' ↔ machine.core = machine'.core := by
  constructor
  · rintro ⟨⟨_, _, _, _, _⟩, ⟨-, rfl, -, -, -⟩, rfl⟩
    rfl
  · intro same
    have stack := congrArg Machine.stack same
    have others := congrArg (Machine.withParts · machine'.parts) same
    exact ⟨machine'.parts, ⟨trivial, stack, trivial, trivial, trivial⟩, others.symm⟩

/-- Nothing that does not look outside can tell machines with one core apart. -/
theorem Secluded.passes {attempts : List Attempt} (secluded : Secluded attempts) :
    Likeness.core.Passes attempts := by
  intro word member instruction decoded
  have inward := secluded _ member
  rw [looksOutside_of_decode decoded] at inward
  cases instruction with
  | readDelay | skipIfKey | skipUnlessKey => contradiction
  | setDelay | setSound => exact fun _ => trivial
  | _ => trivial

namespace Machine

/-- A cycle whose attempt does not look outside acts on the core. -/
theorem core_cycle {machine machine' : Machine} (same : machine.core = machine'.core)
    (secluded : looksOutside machine.fetch = false) :
    machine.cycle.machine.core = machine'.cycle.machine.core := by
  rw [← Likeness.onMachines_core_iff] at same ⊢
  refine (Likeness.onOutcomes_cycle same (Secluded.passes ?_)).machine
  rw [attemptsIn_cycle]
  split
  · exact nofun
  · exact secluded_cons.mpr ⟨secluded, nofun⟩

/-- A cycle whose attempt does not look outside begins no wait. -/
theorem awaiting_cycle {machine : Machine} (awake : machine.awaiting = none)
    (secluded : looksOutside machine.fetch = false) : machine.cycle.machine.awaiting = none := by
  cases machine.cycled with
  | stopped _ same | waiting _ _ same => rw [same]; exact awake
  | unfetched _ _ _ same | refused _ _ _ _ same => rw [same]; exact awake
  | executed _ _ inside decoded succeeded same =>
    rw [fetch_eq, if_pos inside, looksOutside_of_decode decoded] at secluded
    rw [same]
    cases steered_of_execute succeeded with
    | leave _ _ result | call _ _ result => rw [result]; exact awake
    | awaitKey reads => rw [reads] at secluded; contradiction
    | other _ _ _ awaiting => exact awaiting.trans awake

/-! ### Cycles among ticks and keys -/

/-- Whether an operation writes the program or the font into memory. -/
def Command.isLoad : Command → Bool
  | .load _ | .loadFont => true
  | _ => false

/-- Outside of a wait, ticks and keys leave the core as it is. -/
theorem core_setKey {machine : Machine} (awake : machine.awaiting = none) (key : Key)
    (pressed : Bool) :
    (machine.setKey key pressed).1.core = machine.core ∧
      (machine.setKey key pressed).1.awaiting = none ∧
      attemptsIn (machine.setKey key pressed).2 = [] := by
  rw [machine.setKey_of_unanswered key pressed (.inl awake)]
  exact ⟨rfl, awake, rfl⟩

/-- The same for everything that neither loads nor executes anything. -/
theorem core_perform {machine : Machine} (awake : machine.awaiting = none) {command : Command}
    (loadless : command.isLoad = false) (single : ∀ count, command ≠ .run count)
    (idles : command = .cycle → machine.halted = true) :
    (machine.perform command).machine.core = machine.core ∧
      (machine.perform command).machine.awaiting = none ∧
      attemptsIn (machine.perform command).notices = [] := by
  cases command with
  | load | loadFont => contradiction
  | cycle =>
    rw [perform, replying, machine.cycle_of_halted (idles rfl)]
    exact ⟨rfl, awake, rfl⟩
  | run count => exact absurd rfl (single count)
  | tick => exact ⟨rfl, awake, rfl⟩
  | setKey key pressed => exact core_setKey awake key pressed
  | keyEvent event =>
    rw [perform, replying]
    unfold applyKeyEvent
    split
    · exact core_setKey awake _ _
    · exact ⟨rfl, awake, rfl⟩

/-- What cycles attempt that are not idle. -/
def fetches : Nat → Machine → List Attempt
  | 0, _ => []
  | count + 1, machine => machine.fetch :: fetches count machine.cycle.machine

/-- Single operations lead to the core that cycles alone lead to, as many as there are attempts,
and attempt the same. It is enough that the one or the other do not look outside. -/
theorem core_after {machine alone : Machine} {commands : List Command}
    (same : machine.core = alone.core) (awake : machine.awaiting = none)
    (loadless : ∀ command ∈ commands, command.isLoad = false)
    (single : ∀ command ∈ commands, ∀ count, command ≠ .run count)
    (secluded : Secluded (machine.attempts commands) ∨
      Secluded (alone.fetches (machine.attempts commands).length)) :
    machine.attempts commands = alone.fetches (machine.attempts commands).length ∧
      (machine.after commands).core =
        (alone.cycles (machine.attempts commands).length).core := by
  induction commands generalizing machine alone with
  | nil => exact ⟨rfl, same⟩
  | cons command rest previous =>
    have loadlessRest := fun step member => loadless step (List.mem_cons_of_mem command member)
    have singleRest := fun step member => single step (List.mem_cons_of_mem command member)
    -- A cycle that is not idle moves both machines on; anything else leaves the core alone.
    by_cases cycles : command = .cycle ∧ machine.halted = false
    case pos =>
      obtain ⟨rfl, running⟩ := cycles
      have attempted : machine.attempts (.cycle :: rest) =
          machine.fetch :: machine.cycle.machine.attempts rest := by
        show attemptsIn machine.cycle.notices ++ _ = _
        rw [attemptsIn_cycle, running, awake]
        rfl
      have sameFetch : machine.fetch = alone.fetch := by
        show machine.core.fetch = alone.core.fetch
        rw [same]
      rw [attempted] at secluded ⊢
      rw [List.length_cons, fetches, ← sameFetch] at secluded ⊢
      rw [secluded_cons, secluded_cons, ← and_or_left] at secluded
      obtain ⟨here, later⟩ := secluded
      obtain ⟨attempts, core⟩ :=
        previous (core_cycle same here) (awaiting_cycle awake here) loadlessRest singleRest later
      exact ⟨congrArg _ attempts, core⟩
    case neg =>
      obtain ⟨sameNext, awakeNext, none⟩ := core_perform awake (loadless command List.mem_cons_self)
        (single command List.mem_cons_self) fun cycle =>
          eq_true_of_ne_false fun running => cycles ⟨cycle, running⟩
      have attempted : machine.attempts (command :: rest) =
          (machine.perform command).machine.attempts rest := by
        rw [attempts, none]
        rfl
      rw [attempted] at secluded ⊢
      exact previous (sameNext.trans same) awakeNext loadlessRest singleRest secluded

/-- From machines with one core, two histories that attempt equally often, and what does not
look outside, lead to machines with one core. -/
theorem core_after_eq {machine machine' : Machine} {commands commands' : List Command}
    (same : machine.core = machine'.core) (awake : machine.awaiting = none)
    (loadless : ∀ command ∈ commands, command.isLoad = false)
    (loadless' : ∀ command ∈ commands', command.isLoad = false)
    (secluded : Secluded (machine.attempts commands))
    (sameCount : (machine'.attempts commands').length = (machine.attempts commands).length) :
    (machine.after commands).core = (machine'.after commands').core := by
  have unrolled {commands : List Command}
      (loadless : ∀ command ∈ commands, command.isLoad = false) :
      (∀ command ∈ unroll commands, command.isLoad = false) ∧
        ∀ command ∈ unroll commands, ∀ count, command ≠ .run count := by
    refine ⟨fun command member => ?_, fun command member => (mem_unroll member).1⟩
    rcases (mem_unroll member).2 with rfl | origin
    · rfl
    · exact loadless command origin
  rw [← attempts_unroll] at secluded
  rw [← attempts_unroll, ← machine.attempts_unroll] at sameCount
  rw [← after_unroll, ← machine'.after_unroll]
  have awake' : machine'.awaiting = none := by
    show machine'.core.awaiting = none
    rw [← same]
    exact awake
  obtain ⟨attempts, core⟩ := core_after rfl awake (unrolled loadless).1 (unrolled loadless).2
    (.inl secluded)
  obtain ⟨-, core'⟩ := core_after same.symm awake' (unrolled loadless').1 (unrolled loadless').2
    (.inr (by rw [sameCount, ← attempts]; exact secluded))
  rw [core, core', sameCount]

end Machine

/-! ### Ways to drive a machine -/

/-- How a machine is driven once a program is loaded: by operations of its own, or by a scheduler
that is created for it at an instant and loads the program. -/
inductive Drive
  | direct (commands : List Machine.Command)
  | scheduled (created : Nat) (commands : List Scheduler.Command)

namespace Drive

/-- Whether nothing is loaded after the program. -/
def LoadsOnce : Drive → Prop
  | direct commands => ∀ command ∈ commands, command.isLoad = false
  | scheduled _ commands => ∀ command ∈ commands, command.isLoad = false

/-- The machine that a new one with a program becomes. -/
def machine (fresh : Machine) (program : List UInt8) : Drive → Machine
  | direct commands => fresh.after (.load program :: commands)
  | scheduled created commands =>
    ((Scheduler.create fresh created).after (.load program :: commands)).scheduler.machine

/-- What is attempted on the way. -/
def attempts (fresh : Machine) (program : List UInt8) : Drive → List Attempt
  | direct commands => fresh.attempts (.load program :: commands)
  | scheduled created commands =>
    attemptsOf ((Scheduler.create fresh created).after (.load program :: commands)).activity

/-- The operations on the machine that come after the load. -/
def commands (fresh : Machine) (program : List UInt8) : Drive → List Machine.Command
  | direct commands => commands
  | scheduled created commands =>
    ((Scheduler.create fresh created).perform (.load program)).turn.scheduler.machineCommands
      commands

/-- Every way to drive a machine comes down to operations on it that load nothing. -/
theorem comesDownTo (fresh : Machine) (program : List UInt8) {drive : Drive}
    (once : drive.LoadsOnce) :
    (∀ command ∈ drive.commands fresh program, command.isLoad = false) ∧
      drive.machine fresh program =
        (fresh.load program).machine.after (drive.commands fresh program) ∧
      drive.attempts fresh program =
        (fresh.load program).machine.attempts (drive.commands fresh program) := by
  have reported : attemptsIn (fresh.load program).notices = [] := by
    unfold Machine.load
    split <;> rfl
  have attempted (commands : List Machine.Command) :
      fresh.attempts (.load program :: commands) =
        (fresh.load program).machine.attempts commands := by
    show attemptsIn (fresh.load program).notices ++ _ = _
    rw [reported]
    rfl
  cases drive with
  | direct commands => exact ⟨once, rfl, attempted commands⟩
  | scheduled created commands =>
    have coherent := Scheduler.coherent_create fresh created
    have loads := @Scheduler.perform_comesDownTo _ (.load program) coherent nofun
    have later := Scheduler.after_comesDownTo (coherent.perform (.load program)) commands
    have driven : ((Scheduler.create fresh created).after (.load program :: commands)).ComesDownTo
        fresh _ := loads.andThen later
    refine ⟨fun command member => ?_, driven.machine, driven.attempts.trans (attempted _)⟩
    have polled := Scheduler.isPolled_of_mem_machineCommands once member
    cases command with
    | load | loadFont => contradiction
    | _ => rfl

end Drive

/-- After a load, the core of a new machine depends on the program and on where the random
numbers start. -/
theorem Machine.core_load_create (settings : Settings) (generator : Generator)
    (program : List UInt8) :
    ((create settings generator).load program).machine.core =
      ((blank {} (create settings generator).random).load program).machine := by
  unfold load
  split <;> rfl

/-- A program that reads neither timers nor keys cannot tell how it is driven. From new machines
whose random numbers start alike, as they do from one seed, and that load one program, any two
ways to drive them which attempt equally often lead to one core, if none of the attempts of the
first is an instruction that reads a timer or a key. -/
theorem driving_is_invisible (settings settings' : Settings) (generator generator' : Generator)
    (sameSeed : (Machine.create settings generator).random =
      (Machine.create settings' generator').random)
    (program : List UInt8) (drive drive' : Drive) (once : drive.LoadsOnce)
    (once' : drive'.LoadsOnce)
    (secluded : Secluded (drive.attempts (Machine.create settings generator) program))
    (sameCount : (drive'.attempts (Machine.create settings' generator') program).length =
      (drive.attempts (Machine.create settings generator) program).length) :
    (drive.machine (Machine.create settings generator) program).core =
      (drive'.machine (Machine.create settings' generator') program).core := by
  have start : ((Machine.create settings generator).load program).machine.core =
      ((Machine.create settings' generator').load program).machine.core := by
    rw [Machine.core_load_create, Machine.core_load_create, sameSeed]
  have awake : ((Machine.create settings generator).load program).machine.awaiting = none := by
    unfold Machine.load
    split <;> rfl
  obtain ⟨loadless, machine, attempts⟩ := Drive.comesDownTo _ program once
  obtain ⟨loadless', machine', attempts'⟩ := Drive.comesDownTo _ program once'
  rw [machine, machine']
  rw [attempts] at secluded sameCount
  rw [attempts'] at sameCount
  exact Machine.core_after_eq start awake loadless loadless' secluded sameCount

/-! ### A program that rolls once -/

/-- A random number, and then a word that is no instruction. -/
def rolling : List UInt8 := [0xC0, 0xFF, 0x00, 0x00]

namespace Machine

/-- A machine that is about to roll. -/
structure Rolls (machine : Machine) (pc : Nat) : Prop where
  memory : ∃ memory : Memory, machine.memory = memory.overwrite programStart rolling
  running : machine.halted = false
  awake : machine.awaiting = none
  pc : machine.pc = pc

theorem Rolls.word {machine : Machine} {pc offset : Nat} (rolls : machine.Rolls pc)
    (place : pc = programStart + offset) (inside : offset + 1 < rolling.length) :
    machine.word = Word.ofBytes rolling[offset] rolling[offset + 1] := by
  obtain ⟨memory, written⟩ := rolls.memory
  exact word_of_written rolling offset written (rolls.pc.trans place) inside (by decide)

theorem Rolls.first {machine : Machine} (rolls : machine.Rolls 0x200) :
    machine.fetch = .ok 0xC0FF ∧ machine.cycle.machine.Rolls 0x202 := by
  have written : machine.word = 0xC0FF := @Rolls.word _ _ 0 rolls rfl (by decide)
  have inside : machine.pc ≤ 0xFFE := by rw [rolls.pc]; decide
  have decoded : Instruction.decode machine.word = some (.random 0 0xFF) := by
    rw [written]
    rfl
  obtain ⟨-, rolled⟩ := dispatched?_of_executed rolls.running rolls.awake inside decoded rfl
  refine ⟨by rw [fetch_eq, if_pos inside, written], ?_⟩
  rw [rolled]
  exact ⟨rolls.memory, rolls.running, rolls.awake, congrArg (· + 2) rolls.pc⟩

theorem Rolls.second {machine : Machine} (rolls : machine.Rolls 0x202) :
    machine.fetch = .ok 0 ∧ machine.cycle.machine.halted = true := by
  have written : machine.word = 0 := @Rolls.word _ _ 2 rolls rfl (by decide)
  have inside : machine.pc ≤ 0xFFE := by rw [rolls.pc]; decide
  have fetched : machine.fetch = .ok 0 := by rw [fetch_eq, if_pos inside, written]
  have failed : machine.cycle.result = .error (.unknownWord 0 machine.pc) := by
    rw [cycle_result_of_ready _ rolls.running rolls.awake, fetched]
    rfl
  exact ⟨fetched, halted_of_cycle_eq_error failed⟩

theorem Rolls.attempts {machine : Machine} (rolls : machine.Rolls 0x200) (count : Nat) :
    machine.attempts (List.replicate (count + 2) .cycle) = [.ok 0xC0FF, .ok 0] := by
  obtain ⟨fetched, next⟩ := rolls.first
  obtain ⟨fetched', halted⟩ := next.second
  have idle : machine.cycle.machine.cycle.machine.IsIdle := .inl halted
  show attemptsIn machine.cycle.notices ++ (attemptsIn machine.cycle.machine.cycle.notices ++
    machine.cycle.machine.cycle.machine.attempts (List.replicate count .cycle)) = _
  rw [attempts_replicate_of_isIdle idle, attemptsIn_cycle, attemptsIn_cycle, rolls.running,
    rolls.awake, next.running, next.awake, fetched, fetched']
  rfl

theorem attempts_tick (machine : Machine) (rest : List Command) :
    machine.attempts (.tick :: rest) = machine.tick.attempts rest := rfl

/-- A key event leaves the machine about to roll and attempts nothing. -/
theorem Rolls.keyEvent {machine : Machine} {pc : Nat} (rolls : machine.Rolls pc)
    (event : KeyEvent) (rest : List Command) :
    (machine.applyKeyEvent event).machine.Rolls pc ∧
      machine.attempts (.keyEvent event :: rest) =
        (machine.applyKeyEvent event).machine.attempts rest := by
  obtain ⟨core, awake, none⟩ := @core_perform machine rolls.awake (.keyEvent event) rfl nofun nofun
  have still : machine.core.Rolls pc := ⟨rolls.memory, rolls.running, rolls.awake, rolls.pc⟩
  rw [← core] at still
  refine ⟨⟨still.memory, still.running, awake, still.pc⟩, ?_⟩
  rw [Machine.attempts, none]
  rfl

end Machine

/-- One machine is driven by hand and one by a scheduler with other settings. Both roll the same
number and fail at the word behind it. -/
theorem driving_is_invisible_rolling :
    let settings : Settings := { seed := some 7 }
    let settings' : Settings := { tickrate := 2, cyclesPerTick := 30, seed := some 7 }
    let fresh := Machine.create settings Generator.zeros
    let fresh' := Machine.create settings' { Generator.zeros with unseeded := fun _ => 1 }
    let drive : Drive := .direct [.tick, .keyEvent (.down 3), .run 5]
    let drive' : Drive := .scheduled 4 [.activate 5, .feed [.event (.down 1), .pause], .poll 9]
    fresh.random = fresh'.random ∧ drive.LoadsOnce ∧ drive'.LoadsOnce ∧
      Secluded (drive.attempts fresh rolling) ∧
      (drive'.attempts fresh' rolling).length = (drive.attempts fresh rolling).length ∧
      (drive.machine fresh rolling).core = (drive'.machine fresh' rolling).core := by
  intro settings settings' fresh fresh' drive drive'
  have once : drive.LoadsOnce := by simp [drive, Drive.LoadsOnce, Machine.Command.isLoad]
  have once' : drive'.LoadsOnce := by simp [drive', Drive.LoadsOnce, Scheduler.Command.isLoad]
  have commands : drive.commands fresh rolling = [.tick, .keyEvent (.down 3), .run 5] := rfl
  have commands' : drive'.commands fresh' rolling = [.keyEvent (.down 1), .run 30, .tick] := rfl
  have rolls (settings : Settings) (generator : Generator) :
      ((Machine.create settings generator).load rolling).machine.Rolls 0x200 := by
    unfold Machine.load
    rw [if_pos (by decide)]
    exact ⟨⟨_, rfl⟩, rfl, rfl, rfl⟩
  have attempts : drive.attempts fresh rolling = [.ok 0xC0FF, .ok 0] := by
    have ticked : (fresh.load rolling).machine.tick.Rolls 0x200 :=
      have start := rolls settings Generator.zeros
      ⟨start.memory, start.running, start.awake, start.pc⟩
    obtain ⟨keyed, later⟩ := ticked.keyEvent (.down 3) [.run 5]
    rw [(Drive.comesDownTo fresh rolling once).2.2, commands, Machine.attempts_tick, later,
      ← Machine.attempts_unroll]
    exact keyed.attempts 3
  have attempts' : drive'.attempts fresh' rolling = [.ok 0xC0FF, .ok 0] := by
    obtain ⟨keyed, later⟩ :=
      (rolls settings' { Generator.zeros with unseeded := fun _ => 1 }).keyEvent (.down 1)
        [.run 30, .tick]
    have written : Machine.unroll [.run 30, .tick] = List.replicate (28 + 2) .cycle ++ [.tick] :=
      rfl
    rw [(Drive.comesDownTo fresh' rolling once').2.2, commands', later,
      ← Machine.attempts_unroll, written, Machine.attempts_append, keyed.attempts 28,
      Machine.attempts_tick]
    rfl
  have secluded : Secluded (drive.attempts fresh rolling) := by
    rw [attempts, Secluded]
    decide
  have sameCount : (drive'.attempts fresh' rolling).length =
      (drive.attempts fresh rolling).length := by
    rw [attempts, attempts']
  exact ⟨rfl, once, once', secluded, sameCount,
    driving_is_invisible settings settings' _ _ rfl rolling drive drive' once once' secluded
      sameCount⟩

end ChipEight
