/-
This file proves once for all that machines which are alike stay alike.

A likeness says how far the settings, the call stacks, the timers and the keypads of two machines
may be apart; all else has to be equal. Few instructions use these parts, each in one way, so a
likeness has to allow little for an instruction to end alike on both machines. What goes for
instructions goes for a cycle, by induction for a run, and with ticks, keys and loads for every
operation. A property of machines that builds on this only says what may differ.
-/

import ChipEight.Proofs.Driving

namespace ChipEight

/-! ### Likenesses -/

/-- How far the parts of two machines may be apart. Calls and returns have to go the same way on
call stacks that are alike. -/
structure Likeness where
  settings : Settings → Settings → Prop
  stack : CallStack → CallStack → Prop
  delay : UInt8 → UInt8 → Prop
  sound : UInt8 → UInt8 → Prop
  keypad : Keypad → Keypad → Prop
  depth : ∀ {left right}, stack left right → left.depth = right.depth
  push : ∀ {left right}, stack left right → ∀ address,
    Option.Rel stack (left.push? address) (right.push? address)
  pop : ∀ {left right}, stack left right →
    Option.Rel (fun entry entry' => entry.1 = entry'.1 ∧ stack entry.2 entry'.2)
      left.pop? right.pop?

/-- The parts in which machines that are alike may differ. -/
structure Machine.Parts where
  settings : Settings
  stack : CallStack
  delay : UInt8
  sound : UInt8
  keypad : Keypad

def Machine.parts (machine : Machine) : Parts where
  settings := machine.settings
  stack := machine.stack
  delay := machine.delay
  sound := machine.sound
  keypad := machine.keypad

def Machine.withParts (machine : Machine) (parts : Parts) : Machine :=
  { machine with
    settings := parts.settings
    stack := parts.stack
    delay := parts.delay
    sound := parts.sound
    keypad := parts.keypad }

namespace Likeness

theorem optionRel_refl {Value : Type} {related : Value → Value → Prop}
    (reflexive : ∀ value, related value value) (value? : Option Value) :
    Option.Rel related value? value? := by
  cases value? with
  | none => exact .none
  | some value => exact .some (reflexive value)

/-- The likeness of machines that are equal. -/
def equality : Likeness where
  settings := Eq
  stack := Eq
  delay := Eq
  sound := Eq
  keypad := Eq
  depth := congrArg CallStack.depth
  push := by
    rintro stack _ rfl address
    exact optionRel_refl (fun _ => rfl) _
  pop := by
    rintro stack _ rfl
    exact optionRel_refl (fun _ => ⟨rfl, rfl⟩) _

variable (like : Likeness)

structure OnParts (left right : Machine.Parts) : Prop where
  settings : like.settings left.settings right.settings
  stack : like.stack left.stack right.stack
  delay : like.delay left.delay right.delay
  sound : like.sound left.sound right.sound
  keypad : like.keypad left.keypad right.keypad

/-- Machines are alike if the one is the other with other parts, which are alike. -/
def OnMachines (machine machine' : Machine) : Prop :=
  ∃ parts, like.OnParts machine.parts parts ∧ machine' = machine.withParts parts

/-- Instructions end alike if both fail with one error, or both succeed with one flow and one
report and leave machines that are alike. -/
inductive OnSteps : Except Error Step → Except Error Step → Prop
  | error (cause : Error) : OnSteps (.error cause) (.error cause)
  | ok {machine machine' : Machine} {flow : Flow} {notices : Array Notice}
      (alike : like.OnMachines machine machine') :
      OnSteps (.ok ⟨machine, flow, notices⟩) (.ok ⟨machine', flow, notices⟩)

/-- Operations end alike if they answer and report the same and leave machines that are alike. -/
structure OnOutcomes {Result : Type} (outcome outcome' : Outcome Result) : Prop where
  result : outcome.result = outcome'.result
  machine : like.OnMachines outcome.machine outcome'.machine
  notices : outcome.notices = outcome'.notices

/-- What a likeness has to allow for an instruction to end alike. A timer or a keypad that the
instruction looks at has to be the same on both machines, and a timer that it sets has to count
as like itself. -/
def Allows : Instruction → Prop
  | .readDelay _ => ∀ timer timer', like.delay timer timer' → timer = timer'
  | .setDelay _ => ∀ timer, like.delay timer timer
  | .setSound _ => ∀ timer, like.sound timer timer
  | .skipIfKey _ | .skipUnlessKey _ =>
    ∀ keypad keypad', like.keypad keypad keypad' → keypad = keypad'
  | _ => True

/-- A likeness goes through attempts of instructions that it allows. -/
def Passes (attempts : List Attempt) : Prop :=
  ∀ word, .ok word ∈ attempts →
    ∀ instruction, Instruction.decode word = some instruction → like.Allows instruction

variable {like}

theorem Passes.of_append {first second : List Attempt} (passes : like.Passes (first ++ second)) :
    like.Passes first ∧ like.Passes second :=
  ⟨fun word member => passes word (List.mem_append_left second member),
    fun word member => passes word (List.mem_append_right first member)⟩

/-! ### Instructions and cycles -/

section Through

variable {machine machine' : Machine} (alike : like.OnMachines machine machine')
include alike

/-- An instruction that a likeness allows ends alike on machines that are alike. -/
theorem onSteps_execute (pc : Nat) {instruction : Instruction}
    (allowed : like.Allows instruction) :
    like.OnSteps (machine.execute pc instruction) (machine'.execute pc instruction) := by
  obtain ⟨parts, on, rfl⟩ := alike
  cases instruction with
  | leave =>
    have stack : (machine.withParts parts).stack = parts.stack := rfl
    have popped : Option.Rel _ machine.stack.pop? parts.stack.pop? := like.pop on.stack
    simp only [Machine.execute, stack]
    cases found : machine.stack.pop? <;> cases found' : parts.stack.pop? <;>
      rw [found, found'] at popped
    case none.none => exact .error _
    case some.some entry entry' =>
      obtain ⟨same, rest⟩ := Option.rel_some_some.mp popped
      simp only [same]
      exact .ok ⟨{ parts with stack := entry'.2 },
        ⟨on.settings, rest, on.delay, on.sound, on.keypad⟩, rfl⟩
    all_goals cases popped
  | call target =>
    have stack : (machine.withParts parts).stack = parts.stack := rfl
    have pc : (machine.withParts parts).pc = machine.pc := rfl
    have depth : machine.stack.depth = parts.stack.depth := like.depth on.stack
    have pushed : Option.Rel like.stack (machine.stack.push? (UInt16.ofNat machine.pc))
        (parts.stack.push? (UInt16.ofNat machine.pc)) := like.push on.stack _
    simp only [Machine.execute, stack, pc, depth]
    cases found : machine.stack.push? (UInt16.ofNat machine.pc) <;>
      cases found' : parts.stack.push? (UInt16.ofNat machine.pc) <;>
      rw [found, found'] at pushed
    case none.none => exact .error _
    case some.some deeper deeper' =>
      exact .ok ⟨{ parts with stack := deeper' },
        ⟨on.settings, Option.rel_some_some.mp pushed, on.delay, on.sound, on.keypad⟩, rfl⟩
    all_goals cases pushed
  | readDelay x =>
    have same : (machine.withParts parts).delay = machine.delay := (allowed _ _ on.delay).symm
    simp only [Machine.execute, same]
    exact .ok ⟨parts, on, rfl⟩
  | setDelay x =>
    exact .ok ⟨{ parts with delay := machine.registers.read x },
      ⟨on.settings, on.stack, allowed _, on.sound, on.keypad⟩, rfl⟩
  | setSound x =>
    exact .ok ⟨{ parts with sound := machine.registers.read x },
      ⟨on.settings, on.stack, on.delay, allowed _, on.keypad⟩, rfl⟩
  | skipIfKey x | skipUnlessKey x =>
    have same : (machine.withParts parts).keypad = machine.keypad :=
      (allowed _ _ on.keypad).symm
    simp only [Machine.execute, same]
    simp only [Machine.skipIf_eq]
    exact .ok ⟨parts, on, rfl⟩
  | skipIfByte | skipUnlessByte | skipIfSame | skipUnlessSame =>
    simp only [Machine.execute, Machine.skipIf_eq]
    exact .ok ⟨parts, on, rfl⟩
  | draw | storeDecimal | storeRegisters | readRegisters =>
    have index : (machine.withParts parts).index = machine.index := rfl
    simp only [Machine.execute, Machine.checkRange, index]
    split
    · exact .ok ⟨parts, on, rfl⟩
    · exact .error _
  | _ => exact .ok ⟨parts, on, rfl⟩

theorem onMachines_advance : like.OnMachines machine.advance machine'.advance := by
  obtain ⟨parts, on, rfl⟩ := alike
  exact ⟨parts, on, rfl⟩

theorem onOutcomes_stopOn (cause : Error) (notices : Array Notice) :
    like.OnOutcomes (machine.stopOn cause notices) (machine'.stopOn cause notices) := by
  obtain ⟨parts, on, rfl⟩ := alike
  exact ⟨rfl, ⟨parts, on, rfl⟩, rfl⟩

/-- The parts have no say in where and in what state a machine is. -/
theorem steering_eq :
    machine'.halted = machine.halted ∧ machine'.awaiting = machine.awaiting ∧
      machine'.pc = machine.pc ∧ machine'.fetch = machine.fetch := by
  obtain ⟨parts, on, rfl⟩ := alike
  exact ⟨rfl, rfl, rfl, rfl⟩

/-- Cycles attempt the same on machines that are alike. -/
theorem attemptsIn_cycle_eq :
    attemptsIn machine'.cycle.notices = attemptsIn machine.cycle.notices := by
  obtain ⟨halted, awaiting, -, fetch⟩ := steering_eq alike
  rw [machine'.attemptsIn_cycle, machine.attemptsIn_cycle, halted, awaiting, fetch]

theorem onSteps_dispatch {word : Word} (passes : like.Passes [.ok word]) :
    like.OnSteps (machine.dispatch word) (machine'.dispatch word) := by
  obtain ⟨-, -, pc, -⟩ := steering_eq alike
  unfold Machine.dispatch
  rw [pc]
  cases decoded : Instruction.decode word with
  | none => exact .error _
  | some instruction =>
    exact onSteps_execute (onMachines_advance alike) machine.pc
      (passes word List.mem_cons_self instruction decoded)

/-- A cycle ends alike on machines that are alike if its attempt is allowed. -/
theorem onOutcomes_cycle (passes : like.Passes (attemptsIn machine.cycle.notices)) :
    like.OnOutcomes machine.cycle machine'.cycle := by
  obtain ⟨halted, awaiting, pc, fetch⟩ := steering_eq alike
  rw [machine.attemptsIn_cycle] at passes
  unfold Machine.cycle
  rw [halted, awaiting, fetch]
  by_cases stopped : machine.halted = true
  · rw [if_pos stopped, if_pos stopped]
    exact ⟨rfl, alike, rfl⟩
  by_cases waits : machine.awaiting.isSome = true
  · rw [if_neg stopped, if_neg stopped, if_pos waits, if_pos waits]
    exact ⟨rfl, alike, rfl⟩
  rw [if_neg stopped, if_neg stopped, if_neg waits, if_neg waits]
  rw [if_neg (by simp [stopped, waits])] at passes
  cases fetched : machine.fetch with
  | error cause => exact onOutcomes_stopOn alike cause #[]
  | ok word =>
    rw [fetched] at passes
    have ends := onSteps_dispatch alike passes
    simp only [pc]
    cases found : machine.dispatch word <;> cases found' : machine'.dispatch word <;>
      rw [found, found'] at ends
    case error.error cause cause' =>
      cases ends
      exact onOutcomes_stopOn (onMachines_advance alike) cause _
    case ok.ok =>
      cases ends with
      | ok after => exact ⟨rfl, after, rfl⟩
    all_goals cases ends

end Through

/-! ### Runs -/

/-- A run ends alike on machines that are alike if what its cycles attempt is allowed. -/
theorem onOutcomes_runFrom {machine machine' : Machine}
    (alike : like.OnMachines machine machine') (last : Flow) (notices : Array Notice)
    (count : Nat) (passes : like.Passes (machine.attempts (List.replicate count .cycle))) :
    like.OnOutcomes (Machine.runFrom last notices count machine)
      (Machine.runFrom last notices count machine') := by
  induction count generalizing machine machine' last notices with
  | zero => exact ⟨rfl, alike, rfl⟩
  | succ count previous =>
    obtain ⟨here, later⟩ := passes.of_append
    obtain ⟨result, after, reported⟩ := onOutcomes_cycle alike here
    simp only [Machine.runFrom, ← result, ← reported]
    cases machine.cycle.result with
    | error cause => exact ⟨rfl, after, rfl⟩
    | ok flow =>
      simp only
      split
      · exact ⟨rfl, after, rfl⟩
      · exact previous after flow _ later

/-- Cycles attempt the same on machines that are alike, if what they attempt on the one or on the
other is allowed. -/
theorem attempts_replicate_eq {machine machine' : Machine}
    (alike : like.OnMachines machine machine') (count : Nat)
    (passes : like.Passes (machine.attempts (List.replicate count .cycle)) ∨
      like.Passes (machine'.attempts (List.replicate count .cycle))) :
    machine'.attempts (List.replicate count .cycle) =
      machine.attempts (List.replicate count .cycle) := by
  -- The first cycle attempts the same in any case, and then the machines are alike behind it.
  induction count generalizing machine machine' with
  | zero => rfl
  | succ count previous =>
    have first : attemptsIn (machine'.perform .cycle).notices =
        attemptsIn (machine.perform .cycle).notices := attemptsIn_cycle_eq alike
    rw [List.replicate_succ, Machine.attempts, Machine.attempts, first] at passes ⊢
    have here : like.Passes (attemptsIn machine.cycle.notices) :=
      passes.elim (fun without => without.of_append.1) fun behind => behind.of_append.1
    have later := passes.imp (fun without => without.of_append.2) fun behind => behind.of_append.2
    exact congrArg _ (previous (onOutcomes_cycle alike here).machine later)

/-! ### Operations -/

variable (like)

/-- What a likeness has to allow for an operation from outside to end alike: the parts of a machine
that was just loaded have to count as like themselves, timers have to stay alike when they count
down and be audible together, and keypads have to stay alike under a key. -/
def AllowsOperation : Machine.Command → Prop
  | .load _ =>
    like.stack .empty .empty ∧ like.delay 0 0 ∧ like.sound 0 0 ∧ like.keypad .released .released
  | .tick =>
    (∀ timer timer', like.delay timer timer' →
      like.delay (Machine.countDown timer) (Machine.countDown timer')) ∧
    ∀ timer timer', like.sound timer timer' →
      (timer = 0 ↔ timer' = 0) ∧ like.sound (Machine.countDown timer) (Machine.countDown timer')
  | .keyEvent _ | .setKey _ _ =>
    ∀ keypad keypad', like.keypad keypad keypad' → ∀ key pressed,
      like.keypad (keypad.update key pressed) (keypad'.update key pressed)
  | .loadFont | .cycle | .run _ => True

variable {like}

section Operations

variable {machine machine' : Machine} (alike : like.OnMachines machine machine')
include alike

theorem onMachines_loaded {program : List UInt8}
    (allowed : like.AllowsOperation (.load program)) :
    like.OnMachines (machine.loaded program) (machine'.loaded program) := by
  obtain ⟨parts, on, rfl⟩ := alike
  obtain ⟨stack, delay, sound, keypad⟩ := allowed
  exact ⟨⟨parts.settings, .empty, 0, 0, .released⟩, ⟨on.settings, stack, delay, sound, keypad⟩,
    rfl⟩

theorem onMachines_loadFont : like.OnMachines machine.loadFont machine'.loadFont := by
  obtain ⟨parts, on, rfl⟩ := alike
  -- The parts are compared field by field, as the font is not to be written out.
  have kept : machine.loadFont.parts = machine.parts := by
    simp only [Machine.parts, Machine.loadFont]
  refine ⟨parts, by rwa [kept], ?_⟩
  unfold Machine.loadFont
  rfl

theorem onMachines_setKey {key : Key} {pressed : Bool}
    (allowed : like.AllowsOperation (.setKey key pressed)) :
    like.OnMachines (machine.setKey key pressed).1 (machine'.setKey key pressed).1 ∧
      (machine.setKey key pressed).2 = (machine'.setKey key pressed).2 := by
  obtain ⟨parts, on, rfl⟩ := alike
  let updated := { parts with keypad := parts.keypad.update key pressed }
  have before : (machine.setKey key pressed).1.parts =
      { machine.parts with keypad := machine.keypad.update key pressed } := by
    unfold Machine.setKey
    split <;> rfl
  have through : (machine.withParts parts).setKey key pressed =
      ((machine.setKey key pressed).1.withParts updated, (machine.setKey key pressed).2) := by
    have awaiting : (machine.withParts parts).awaiting = machine.awaiting := rfl
    unfold Machine.setKey
    rw [awaiting]
    split <;> rfl
  rw [through]
  refine ⟨⟨updated, ?_, rfl⟩, rfl⟩
  rw [before]
  exact ⟨on.settings, on.stack, on.delay, on.sound, allowed _ _ on.keypad key pressed⟩

theorem onOutcomes_load {program : List UInt8} (allowed : like.AllowsOperation (.load program)) :
    like.OnOutcomes (machine.load program) (machine'.load program) := by
  unfold Machine.load
  split
  · exact ⟨rfl, onMachines_loaded alike allowed, rfl⟩
  · exact ⟨rfl, alike, rfl⟩

omit alike in
theorem OnOutcomes.replying {Result : Type} {outcome outcome' : Outcome Result}
    (ends : like.OnOutcomes outcome outcome') (reply : Result → Machine.Reply) :
    like.OnOutcomes (Machine.replying outcome reply) (Machine.replying outcome' reply) :=
  ⟨congrArg (Except.map reply) ends.result, ends.machine, ends.notices⟩

/-- Every operation that a likeness allows ends alike on machines that are alike. -/
theorem onOutcomes_perform {command : Machine.Command} (allowed : like.AllowsOperation command)
    (passes : like.Passes (attemptsIn (machine.perform command).notices)) :
    like.OnOutcomes (machine.perform command) (machine'.perform command) := by
  cases command with
  | load program => exact (onOutcomes_load alike allowed).replying _
  | loadFont => exact ⟨rfl, onMachines_loadFont alike, rfl⟩
  | cycle => exact (onOutcomes_cycle alike passes).replying .flow
  | run count =>
    rw [← Machine.attempts_unrolled] at passes
    exact (onOutcomes_runFrom alike .next #[] count passes).replying .flow
  | tick =>
    obtain ⟨parts, on, rfl⟩ := alike
    obtain ⟨silent, sound⟩ := allowed.2 _ _ on.sound
    refine ⟨?_, ⟨{ parts with
        delay := Machine.countDown parts.delay
        sound := Machine.countDown parts.sound },
      ⟨on.settings, on.stack, allowed.1 _ _ on.delay, sound, on.keypad⟩, rfl⟩, rfl⟩
    have buzzing : machine.isBuzzing = (machine.withParts parts).isBuzzing :=
      decide_eq_decide.mpr (not_congr silent)
    exact congrArg (fun on => Except.ok (Machine.Reply.buzzing on)) buzzing
  | setKey key pressed =>
    obtain ⟨after, notices⟩ := onMachines_setKey alike allowed
    exact ⟨rfl, after, notices⟩
  | keyEvent event =>
    simp only [Machine.perform, Machine.applyKeyEvent]
    cases Key.ofByte? event.index with
    | none => exact ⟨rfl, alike, rfl⟩
    | some key =>
      obtain ⟨after, notices⟩ := @onMachines_setKey _ _ _ alike key event.isPress allowed
      exact ⟨rfl, after, notices⟩

end Operations

/-! ### Likenesses that last -/

variable (like)

/-- A likeness lasts if it allows every instruction and every operation. -/
structure Lasts : Prop where
  instruction : ∀ instruction, like.Allows instruction
  operation : ∀ command, like.AllowsOperation command

variable {like}

/-- A likeness lasts if only settings and call stacks may differ. -/
theorem lasts_of_eq (delay : like.delay = Eq) (sound : like.sound = Eq)
    (keypad : like.keypad = Eq) (empty : like.stack .empty .empty) : like.Lasts where
  instruction instruction := by
    cases instruction <;> simp [Allows, delay, sound, keypad]
  operation command := by
    cases command <;> simp +contextual [AllowsOperation, delay, sound, keypad, empty]

theorem Lasts.onOutcomes_perform (lasts : like.Lasts) {machine machine' : Machine}
    (alike : like.OnMachines machine machine') (command : Machine.Command) :
    like.OnOutcomes (machine.perform command) (machine'.perform command) :=
  Likeness.onOutcomes_perform alike (lasts.operation command)
    fun _ _ instruction _ => lasts.instruction instruction

end Likeness

end ChipEight
