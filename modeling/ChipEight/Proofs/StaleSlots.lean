/-
This file proves that nothing ever shows what is left in the slots of the call stack that are
not in use.

Leaving a call lowers the depth and leaves the address in its slot. A return reads the one slot
that it gives up, which was in use, and a call writes its slot before the depth covers it. So
call stacks that agree on the slots in use go on to agree, and nothing else looks at the stack
at all: to differ in stale slots alone is a likeness that lasts. Two machines that are alike in
this way can never be told apart, and what a machine shows tells which machines are.
-/

import ChipEight.Proofs.Keypad
import ChipEight.Proofs.Likeness

namespace ChipEight

/-! ### Stacks -/

namespace CallStack

/-- Two stacks agree on everything but the slots that are not in use. -/
structure Agree (left right : CallStack) : Prop where
  depth : left.depth = right.depth
  slots : ∀ position < left.depth, left.slots[position]? = right.slots[position]?

/-- The addresses in use are all that stacks have to agree on. -/
theorem agree_iff {left right : CallStack} :
    left.Agree right ↔ left.depth = right.depth ∧ left.live = right.live := by
  constructor
  · rintro ⟨depth, slots⟩
    refine ⟨depth, List.ext_getElem? fun position => ?_⟩
    rw [live, live, ← depth, List.getElem?_take, List.getElem?_take]
    split
    case isFalse => rfl
    case isTrue used => simpa using slots position used
  · rintro ⟨depth, live⟩
    refine ⟨depth, fun position used => ?_⟩
    have same := congrArg (fun addresses => addresses[position]?) live
    simp only [CallStack.live, ← depth, List.getElem?_take, used, if_true] at same
    simpa using same

theorem Agree.refl (stack : CallStack) : stack.Agree stack := ⟨rfl, fun _ _ => rfl⟩

/-- A call overwrites what is left in its slot. -/
theorem Agree.push? {left right : CallStack} (agree : left.Agree right) (address : UInt16) :
    Option.Rel Agree (left.push? address) (right.push? address) := by
  obtain ⟨slots', depth⟩ := right
  obtain rfl : left.depth = depth := agree.depth
  by_cases free : left.depth < stackSize
  · simp only [CallStack.push?, free, dif_pos]
    refine .some ⟨rfl, fun position used => ?_⟩
    rw [Vector.getElem?_set, Vector.getElem?_set]
    split
    case isTrue => rfl
    case isFalse older =>
      have covered : position < left.depth + 1 := used
      exact agree.slots position (by omega)
  · simp only [CallStack.push?, free, dif_neg, not_false_eq_true]
    exact .none

/-- A return takes the newest address and only lowers the depth. -/
theorem pop?_of_depth_eq {stack : CallStack} {depth : Nat} (used : stack.depth = depth + 1) :
    stack.pop? = some (stack.slots[depth]?.getD 0, { stack with depth := depth }) := by
  obtain ⟨slots, _⟩ := stack
  obtain rfl := used
  rfl

/-- The address that a return takes was in use. -/
theorem Agree.pop? {left right : CallStack} (agree : left.Agree right) :
    Option.Rel (fun entry entry' => entry.1 = entry'.1 ∧ entry.2.Agree entry'.2)
      left.pop? right.pop? := by
  cases used : left.depth with
  | zero =>
    have used' : right.depth = 0 := agree.depth ▸ used
    simp only [CallStack.pop?, used, used']
    exact .none
  | succ depth =>
    have slots {position : Nat} (covered : position < depth + 1) :
        left.slots[position]? = right.slots[position]? := agree.slots position (used ▸ covered)
    rw [pop?_of_depth_eq used, pop?_of_depth_eq (agree.depth ▸ used)]
    exact .some ⟨by rw [slots (Nat.lt_add_one depth)],
      ⟨rfl, fun _ covered => slots (Nat.lt_succ_of_lt covered)⟩⟩

end CallStack

/-! ### Machines -/

def Machine.withStack (machine : Machine) (stack : CallStack) : Machine :=
  { machine with stack := stack }

/-- Two machines agree on everything but the slots of the call stack that are not in use. -/
structure Machine.SameButStale (machine machine' : Machine) : Prop where
  others : machine' = machine.withStack machine'.stack
  depth : machine.stack.depth = machine'.stack.depth
  slots : ∀ position < machine.stack.depth,
    machine.stack.slots[position]? = machine'.stack.slots[position]?

theorem Machine.SameButStale.agree {machine machine' : Machine}
    (same : machine.SameButStale machine') : machine.stack.Agree machine'.stack :=
  ⟨same.depth, same.slots⟩

namespace Likeness

/-- The likeness of machines that differ in stale slots alone. -/
def butStale : Likeness :=
  { equality with
    stack := CallStack.Agree
    depth := CallStack.Agree.depth
    push := CallStack.Agree.push?
    pop := CallStack.Agree.pop? }

theorem onMachines_butStale_iff {machine machine' : Machine} :
    butStale.OnMachines machine machine' ↔ machine.SameButStale machine' := by
  constructor
  · rintro ⟨⟨_, _, _, _, _⟩, ⟨rfl, agree, rfl, rfl, rfl⟩, rfl⟩
    exact ⟨rfl, agree.depth, agree.slots⟩
  · intro same
    exact ⟨{ machine.parts with stack := machine'.stack }, ⟨rfl, same.agree, rfl, rfl, rfl⟩,
      same.others⟩

/-- No instruction and no operation looks at a stale slot. -/
theorem lasts_butStale : butStale.Lasts := lasts_of_eq rfl rfl rfl (.refl .empty)

end Likeness

namespace Machine

/-! ### Questions -/

/-- What can be asked of a machine: an operation, or one of its texts. -/
inductive Question
  | perform (command : Command)
  | memory (count : Nat)
  | registers
  | screen
  | keys
  deriving DecidableEq, Repr

/-- What a machine says: what an operation answers and reports, or a text. -/
inductive Response
  | performed (result : Except Error Reply) (notices : Array Notice)
  | text (text : String)

def respond (machine : Machine) : Question → Response
  | .perform command =>
    .performed (machine.perform command).result (machine.perform command).notices
  | .memory count => .text (machine.memoryText count)
  | .registers => .text machine.registersText
  | .screen => .text machine.screenText
  | .keys => .text machine.keysText

/-- The machine after a question, which only an operation changes. -/
def afterQuestion (machine : Machine) : Question → Machine
  | .perform command => (machine.perform command).machine
  | _ => machine

/-- What a machine says to questions, one after the other. -/
def responses (machine : Machine) : List Question → List Response
  | [] => []
  | question :: rest => machine.respond question :: (machine.afterQuestion question).responses rest

def afterQuestions (machine : Machine) (questions : List Question) : Machine :=
  questions.foldl afterQuestion machine

/-- Of the call stack, the texts show the addresses in use and how many they are. -/
theorem registersText_of_agree {machine : Machine} {stack : CallStack}
    (agree : machine.stack.Agree stack) :
    (machine.withStack stack).registersText = machine.registersText := by
  have depth : (machine.withStack stack).stack.depth = machine.stack.depth := agree.depth.symm
  have live : (machine.withStack stack).stack.live = machine.stack.live :=
    (CallStack.agree_iff.mp agree).2.symm
  unfold registersText stackText
  rw [depth, live]
  rfl

section Twins

variable {machine machine' : Machine} (same : machine.SameButStale machine')
include same

/-- Machines that differ in stale slots alone say the same, and stay so. -/
theorem SameButStale.respond (question : Question) :
    machine.respond question = machine'.respond question ∧
      (machine.afterQuestion question).SameButStale (machine'.afterQuestion question) := by
  cases question with
  | perform command =>
    obtain ⟨result, after, notices⟩ := Likeness.lasts_butStale.onOutcomes_perform
      (Likeness.onMachines_butStale_iff.mpr same) command
    exact ⟨congrArg₂ Response.performed result notices,
      Likeness.onMachines_butStale_iff.mp after⟩
  | registers =>
    have text : machine.registersText = machine'.registersText := by
      rw [same.others, registersText_of_agree same.agree]
    exact ⟨congrArg Response.text text, same⟩
  | memory | screen | keys =>
    refine ⟨?_, same⟩
    rw [same.others]
    rfl

theorem SameButStale.responses (questions : List Question) :
    machine.responses questions = machine'.responses questions ∧
      (machine.afterQuestions questions).SameButStale (machine'.afterQuestions questions) := by
  induction questions generalizing machine machine' with
  | nil => exact ⟨rfl, same⟩
  | cons question rest previous =>
    obtain ⟨response, after⟩ := same.respond question
    obtain ⟨later, last⟩ := previous after
    exact ⟨congrArg₂ List.cons response later, last⟩

end Twins

/-! ### What determines the future -/

/-- What a machine shows of its state apart from its memory, its screen, its random numbers and
its settings. Of the call stack this is the part in use, and the keys are shown as text. -/
structure View where
  pc : Nat
  depth : Nat
  index : UInt16
  registers : Registers
  delay : UInt8
  sound : UInt8
  stack : List UInt16
  awaiting : Option Register
  halted : Bool
  keys : String
  deriving DecidableEq, Repr

def view (machine : Machine) : View where
  pc := machine.pc
  depth := machine.stack.depth
  index := machine.index
  registers := machine.registers
  delay := machine.delay
  sound := machine.sound
  stack := machine.stack.live
  awaiting := machine.awaiting
  halted := machine.halted
  keys := machine.keysText

/-- What a machine shows, with its memory, its screen, its random numbers and its settings, is
everything but what is left in the stack. -/
theorem sameButStale_iff_view {machine machine' : Machine} :
    machine.SameButStale machine' ↔
      machine.view = machine'.view ∧ machine.memory = machine'.memory ∧
        machine.screen = machine'.screen ∧ machine.random = machine'.random ∧
        machine.settings = machine'.settings := by
  constructor
  · intro same
    obtain ⟨depth, live⟩ := CallStack.agree_iff.mp same.agree
    have shown : machine.view = machine'.view := by
      unfold view
      rw [depth, live, same.others]
      rfl
    have others := same.others
    exact ⟨shown, (congrArg Machine.memory others).symm, (congrArg Machine.screen others).symm,
      (congrArg Machine.random others).symm, (congrArg Machine.settings others).symm⟩
  · rintro ⟨shown, memory, screen, random, settings⟩
    simp only [view, View.mk.injEq] at shown
    obtain ⟨pc, depth, index, registers, delay, sound, live, awaiting, halted, keys⟩ := shown
    have agree := CallStack.agree_iff.mpr ⟨depth, live⟩
    have keypad := Keypad.text_inj.mp keys
    refine ⟨?_, agree.depth, agree.slots⟩
    simp only [withStack, pc, index, registers, delay, sound, awaiting, halted, keypad, memory,
      screen, random, settings]

/-- Two machines say the same to all questions, whatever is asked first, and what is left in the
slots of their stacks that are not in use is all in which they ever differ. -/
def Indistinguishable (machine machine' : Machine) : Prop :=
  ∀ questions,
    machine.responses questions = machine'.responses questions ∧
      (machine.afterQuestions questions).SameButStale (machine'.afterQuestions questions)

/-- What is left in the slots of the call stack that are not in use never shows. Two machines that
agree on everything else say the same for ever, whatever operations are performed on them and
whatever texts of them are looked at in between, and go on to agree on everything else. So what a
machine shows of its state, with its memory, its screen, its random numbers and its settings,
determines all that it will ever do. -/
theorem stale_slots_stay_hidden (machine machine' : Machine) :
    (machine.SameButStale machine' → machine.Indistinguishable machine') ∧
    (machine.view = machine'.view → machine.memory = machine'.memory →
      machine.screen = machine'.screen → machine.random = machine'.random →
      machine.settings = machine'.settings → machine.Indistinguishable machine') := by
  have hidden (alike : machine.SameButStale machine') : machine.Indistinguishable machine' :=
    alike.responses
  refine ⟨hidden, fun shown memory screen random settings => hidden ?_⟩
  exact sameButStale_iff_view.mpr ⟨shown, memory, screen, random, settings⟩

/-- A loop with a call in it: the third word returns, and the second jumps back to the call. -/
def circling : List UInt8 := [0x22, 0x04, 0x12, 0x00, 0x00, 0xEE]

/-- A machine that is about to call for the first time. -/
def firstTurn : Machine := (blank {} (RandomSource.start fun _ => 0)).loaded circling

/-- The call stack within the call. -/
def calledStack : CallStack := (CallStack.empty.push? 0x202).getD CallStack.empty

/-- A machine that is about to call for the second time. -/
def secondTurn : Machine := { firstTurn with stack := { calledStack with depth := 0 } }

/-- A machine within the call. -/
def called : Machine := { firstTurn with pc := 0x204, stack := calledStack }

/-- A machine behind the return. -/
def returned : Machine := { secondTurn with pc := 0x202 }

/-- What a machine in the loop attempts, and where it goes. -/
theorem cycle_circling {machine : Machine} {offset : Nat} {instruction : Instruction} {step : Step}
    (written : machine.memory = firstTurn.memory) (running : machine.halted = false)
    (awake : machine.awaiting = none) (place : machine.pc = programStart + offset)
    (inside : offset + 1 < circling.length)
    (decoded : Instruction.decode (Word.ofBytes circling[offset] circling[offset + 1]) =
      some instruction)
    (succeeded : machine.advance.execute machine.pc instruction = .ok step) :
    attemptsIn machine.cycle.notices = [.ok (Word.ofBytes circling[offset] circling[offset + 1])] ∧
      machine.cycle.machine = step.machine := by
  have length : circling.length = 6 := rfl
  have start : programStart = 0x200 := rfl
  have within : machine.pc ≤ 0xFFE := by omega
  have loaded : machine.memory = _ :=
    written.trans (memory_loaded (blank {} (RandomSource.start fun _ => 0)) circling)
  have word := word_of_written circling offset loaded place inside (by decide)
  rw [← word] at decoded ⊢
  obtain ⟨-, after⟩ := dispatched?_of_executed running awake within decoded succeeded
  refine ⟨?_, after⟩
  rw [attemptsIn_cycle, running, awake, fetch_eq, if_pos within]
  rfl

theorem cycle_firstTurn : firstTurn.cycle.machine = called :=
  (@cycle_circling firstTurn 0 (.call 0x204) _ rfl rfl rfl rfl (by decide) rfl rfl).2

theorem cycle_secondTurn :
    attemptsIn secondTurn.cycle.notices = [.ok 0x2204] ∧ secondTurn.cycle.machine = called := by
  have pushed : secondTurn.advance.stack.push? (UInt16.ofNat secondTurn.advance.pc) =
      some calledStack := by decide
  have succeeded : secondTurn.advance.execute secondTurn.pc (.call 0x204) =
      .ok { machine := called, flow := .jump } := by
    simp only [execute, pushed]
    rfl
  exact @cycle_circling secondTurn 0 (.call 0x204) ⟨called, .jump, #[]⟩ rfl rfl rfl rfl
    (by decide) rfl succeeded

theorem cycle_called :
    attemptsIn called.cycle.notices = [.ok 0x00EE] ∧ called.cycle.machine = returned :=
  @cycle_circling called 4 .leave _ rfl rfl rfl rfl (by decide) rfl rfl

theorem cycle_returned : returned.cycle.machine = secondTurn :=
  (@cycle_circling returned 2 (.jump 0x200) _ rfl rfl rfl rfl (by decide) rfl rfl).2

/-- The first turn of the loop leaves an address in the slot that the call of the second turn uses
and its return gives up. Nothing shows of it, in that turn or later. -/
theorem stale_slots_stay_hidden_secondTurn :
    let questions : List Question :=
      [.perform .cycle, .registers, .perform .cycle, .registers, .perform (.run 9), .memory 5]
    firstTurn.after [.cycle, .cycle, .cycle] = secondTurn ∧ secondTurn ≠ firstTurn ∧
      secondTurn.attempts [.cycle, .cycle] = [.ok 0x2204, .ok 0x00EE] ∧
      secondTurn.SameButStale firstTurn ∧ secondTurn.view = firstTurn.view ∧
      secondTurn.responses questions = firstTurn.responses questions ∧
      (secondTurn.afterQuestions questions).SameButStale (firstTurn.afterQuestions questions) := by
  intro questions
  have turned : firstTurn.after [.cycle, .cycle, .cycle] = secondTurn := by
    simp only [after, perform, replying, cycle_firstTurn, cycle_called.2, cycle_returned]
  have different : secondTurn ≠ firstTurn := by
    intro same
    have slots := congrArg (fun machine : Machine => machine.stack.slots) same
    exact absurd slots (by decide)
  have attempts : secondTurn.attempts [.cycle, .cycle] = [.ok 0x2204, .ok 0x00EE] := by
    simp only [Machine.attempts, perform, replying, cycle_secondTurn, cycle_called]
    rfl
  have alike : secondTurn.SameButStale firstTurn :=
    ⟨rfl, rfl, fun position used => absurd used (Nat.not_lt_zero position)⟩
  have shown : secondTurn.view = firstTurn.view := (sameButStale_iff_view.mp alike).1
  obtain ⟨hidden, determined⟩ := stale_slots_stay_hidden secondTurn firstTurn
  exact ⟨turned, different, attempts, alike, shown, (hidden alike questions).1,
    (determined shown rfl rfl rfl rfl questions).2⟩

end Machine

end ChipEight
