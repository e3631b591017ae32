/-
This file proves that calls and returns nest.

What a history executes is written down as a list, each instruction with the machine
before and after it. Which return belongs to which call is read off this list by
counting alone, the way brackets are matched, without a look at any call stack. The
call stack is then shown to hold exactly the addresses behind the calls that no
return belongs to. The way there is one equation for a stretch of execution between
any two call stacks: its unmatched returns have taken addresses from the end of the
first, and its unmatched calls have put theirs behind what is left.
-/

import ChipEight.Proofs.Invariant
import ChipEight.Proofs.Stop

namespace ChipEight

/-- The return addresses in use as numbers, the oldest first. -/
def CallStack.addresses (stack : CallStack) : List Nat := stack.live.map UInt16.toNat

theorem CallStack.length_addresses {stack : CallStack} (bounded : stack.depth ≤ stackSize) :
    stack.addresses.length = stack.depth := by
  rw [addresses, List.length_map, length_live bounded]

/-! ### What a history executes -/

/-- An instruction that was executed, with the machine before and after it. -/
structure Dispatch where
  before : Machine
  instruction : Instruction
  after : Machine

namespace Machine

/-- The instruction that a cycle executes: the one at the program counter, unless the machine
is idle or the cycle fails. -/
def dispatched? (machine : Machine) : Option Dispatch :=
  if machine.halted || machine.awaiting.isSome then none
  else
    match machine.cycle.result, Instruction.decode machine.word with
    | .ok _, some instruction => some ⟨machine, instruction, machine.cycle.machine⟩
    | _, _ => none

/-- The instructions that a number of cycles execute. -/
def trail : Nat → Machine → List Dispatch
  | 0, _ => []
  | count + 1, machine => machine.dispatched?.toList ++ trail count machine.cycle.machine

/-- The instructions that an operation executes. A run executes those of its cycles: after it
stops early, the machine is idle. -/
def performed (machine : Machine) : Command → List Dispatch
  | .cycle => machine.dispatched?.toList
  | .run count => trail count machine
  | _ => []

/-- The instructions that a history executes, the first first. -/
def dispatches (machine : Machine) : List Command → List Dispatch
  | [] => []
  | command :: rest =>
    machine.performed command ++ (machine.perform command).machine.dispatches rest

end Machine

/-! ### Matching returns to calls -/

/-- What an instruction is to the nesting of calls: a call, a return, or neither. -/
inductive Bracket
  | opening
  | closing
  | neutral
  deriving DecidableEq, Repr

def Instruction.bracket : Instruction → Bracket
  | .call _ => .opening
  | .leave => .closing
  | _ => .neutral

/-- Whether a call is returned from in what is executed after it, when a number of other calls
have to be returned from first. -/
def returned : Nat → List Dispatch → Bool
  | _, [] => false
  | inner, dispatch :: rest =>
    match dispatch.instruction.bracket with
    | .opening => returned (inner + 1) rest
    | .closing => inner = 0 || returned (inner - 1) rest
    | .neutral => returned inner rest

/-- The addresses of the calls that are not returned from, the oldest first. -/
def openCalls : List Dispatch → List Nat
  | [] => []
  | dispatch :: rest =>
    if dispatch.instruction.bracket = .opening ∧ returned 0 rest = false then
      dispatch.before.pc :: openCalls rest
    else openCalls rest

/-- The number of returns that belong to no call. -/
def surplus : List Dispatch → Nat
  | [] => 0
  | dispatch :: rest =>
    match dispatch.instruction.bracket with
    | .opening => surplus rest - 1
    | .closing => surplus rest + 1
    | .neutral => surplus rest

/-- A call is returned from if the returns after it are too many for the calls before them. -/
theorem returned_eq (inner : Nat) (dispatches : List Dispatch) :
    returned inner dispatches = decide (inner < surplus dispatches) := by
  induction dispatches generalizing inner with
  | nil => rfl
  | cons dispatch rest previous =>
    unfold returned surplus
    cases dispatch.instruction.bracket with
    | opening =>
      simp only [previous]
      exact decide_eq_decide.mpr (by omega)
    | closing =>
      simp only [previous, ← Bool.decide_or]
      exact decide_eq_decide.mpr (by omega)
    | neutral => exact previous inner

section Counting

variable {dispatch : Dispatch} {rest : List Dispatch}

theorem surplus_of_opening (same : dispatch.instruction.bracket = .opening) :
    surplus (dispatch :: rest) = surplus rest - 1 := by
  simp only [surplus, same]

theorem surplus_of_closing (same : dispatch.instruction.bracket = .closing) :
    surplus (dispatch :: rest) = surplus rest + 1 := by
  simp only [surplus, same]

theorem surplus_of_neutral (same : dispatch.instruction.bracket = .neutral) :
    surplus (dispatch :: rest) = surplus rest := by
  simp only [surplus, same]

/-- A call that no return is left over for is open. -/
theorem openCalls_of_surplus_eq_zero (same : dispatch.instruction.bracket = .opening)
    (none : surplus rest = 0) :
    openCalls (dispatch :: rest) = dispatch.before.pc :: openCalls rest := by
  rw [openCalls, if_pos ⟨same, by rw [returned_eq, none]; rfl⟩]

/-- A call that a return is left over for is not. -/
theorem openCalls_of_surplus_ne_zero (some : surplus rest ≠ 0) :
    openCalls (dispatch :: rest) = openCalls rest := by
  rw [openCalls, if_neg]
  rintro ⟨-, unreturned⟩
  rw [returned_eq, decide_eq_false_iff_not] at unreturned
  omega

theorem openCalls_of_ne_opening (other : dispatch.instruction.bracket ≠ .opening) :
    openCalls (dispatch :: rest) = openCalls rest := by
  rw [openCalls, if_neg fun both => other both.1]

end Counting

/-! ### What an instruction does to the call stack -/

/-- What an executed instruction did to the return addresses in use. -/
inductive Dispatch.Effect (dispatch : Dispatch) : Prop
  | opening (same : dispatch.instruction.bracket = .opening)
      (pushed : dispatch.after.stack.addresses =
        dispatch.before.stack.addresses ++ [dispatch.before.pc + 2])
  | closing (same : dispatch.instruction.bracket = .closing)
      (popped : dispatch.before.stack.addresses =
        dispatch.after.stack.addresses ++ [dispatch.after.pc])
  | neutral (same : dispatch.instruction.bracket = .neutral)
      (kept : dispatch.after.stack.addresses = dispatch.before.stack.addresses)

theorem Instruction.bracket_eq_neutral {instruction : Instruction}
    (notLeave : instruction ≠ .leave) (notCall : ∀ target, instruction ≠ .call target) :
    instruction.bracket = .neutral := by
  cases instruction with
  | leave => exact absurd rfl notLeave
  | call target => exact absurd rfl (notCall target)
  | _ => rfl

theorem Instruction.bracket_eq_closing_iff {instruction : Instruction} :
    instruction.bracket = .closing ↔ instruction = .leave := by
  cases instruction with
  | leave => exact iff_of_true rfl rfl
  | _ => exact iff_of_false nofun nofun

/-- A fetched instruction that steers as it should has its effect. The program counter is small
enough for a return address to hold it. -/
theorem Dispatch.effect_of_steered {dispatch : Dispatch} (sound : dispatch.before.Sound)
    (inside : dispatch.before.pc ≤ 0xFFE)
    (steered : Machine.Steered dispatch.before.advance dispatch.instruction dispatch.after) :
    dispatch.Effect := by
  cases steered with
  | @leave address stack same popped result =>
    refine .closing (by rw [same]; rfl) ?_
    have lives : dispatch.before.stack.live = stack.live ++ [address] :=
      CallStack.live_of_pop? popped sound.depth_le
    rw [result, CallStack.addresses, lives, List.map_append]
    rfl
  | @call target stack same pushed result =>
    refine .opening (by rw [same]; rfl) ?_
    have lives : stack.live =
        dispatch.before.stack.live ++ [UInt16.ofNat (dispatch.before.pc + 2)] :=
      CallStack.live_of_push? pushed
    have whole : (UInt16.ofNat (dispatch.before.pc + 2)).toNat = dispatch.before.pc + 2 := by
      rw [UInt16.toNat_ofNat', Nat.mod_eq_of_lt (by omega)]
    rw [result]
    show stack.live.map UInt16.toNat = dispatch.before.stack.live.map UInt16.toNat ++ _
    rw [lives, List.map_append, List.map_singleton, whole]
  | awaitKey same result =>
    refine .neutral (by rw [same]; rfl) ?_
    rw [result]
    rfl
  | other notLeave notCall stack =>
    refine .neutral (Instruction.bracket_eq_neutral notLeave notCall) ?_
    rw [stack]
    rfl

/-- An executed instruction has its effect, between call stacks no deeper than their slots. -/
structure Dispatch.Valid (dispatch : Dispatch) : Prop where
  before_le : dispatch.before.stack.depth ≤ stackSize
  after_le : dispatch.after.stack.depth ≤ stackSize
  effect : dispatch.Effect

/-- Executed instructions that follow each other from one call stack to another. -/
inductive Chain : CallStack → List Dispatch → CallStack → Prop
  | nil {stack : CallStack} : Chain stack [] stack
  | cons {stack final : CallStack} {dispatch : Dispatch} {rest : List Dispatch}
      (starts : dispatch.before.stack = stack) (valid : dispatch.Valid)
      (later : Chain dispatch.after.stack rest final) : Chain stack (dispatch :: rest) final

theorem Chain.append {first middle last : CallStack} {earlier later : List Dispatch}
    (left : Chain first earlier middle) (right : Chain middle later last) :
    Chain first (earlier ++ later) last := by
  induction left with
  | nil => exact right
  | cons starts valid _ previous => exact .cons starts valid (previous right)

theorem Chain.valid {first last : CallStack} {dispatches : List Dispatch}
    (chain : Chain first dispatches last) : ∀ dispatch ∈ dispatches, dispatch.Valid := by
  induction chain with
  | nil => exact fun _ member => absurd member List.not_mem_nil
  | cons _ valid _ previous =>
    intro dispatch member
    rcases List.mem_cons.mp member with rfl | later
    · exact valid
    · exact previous dispatch later

theorem Chain.cut {first last : CallStack} {earlier later : List Dispatch}
    (chain : Chain first (earlier ++ later) last) :
    ∃ middle, Chain first earlier middle ∧ Chain middle later last := by
  induction earlier generalizing first with
  | nil => exact ⟨first, .nil, chain⟩
  | cons dispatch rest previous =>
    cases chain with
    | cons starts valid others =>
      obtain ⟨middle, left, right⟩ := previous others
      exact ⟨middle, .cons starts valid left, right⟩

namespace Machine

/-- A cycle executes one instruction, which has its effect, or it executes none and leaves the
call stack alone. -/
theorem chain_dispatched? {machine : Machine} (sound : machine.Sound) :
    Chain machine.stack machine.dispatched?.toList machine.cycle.machine.stack := by
  unfold dispatched?
  cases machine.cycled with
  | stopped halted same =>
    rw [if_pos (by rw [halted]; rfl), same]
    exact .nil
  | waiting _ waits same =>
    rw [if_pos (by rw [waits]; exact Bool.or_true _), same]
    exact .nil
  | unfetched running awake _ same | refused running awake _ _ same =>
    rw [if_neg (by rw [running, awake]; exact Bool.false_ne_true), same]
    exact .nil
  | @executed instruction step running awake inside decoded succeeded same =>
    have soundAfter := sound.cycle
    rw [same] at soundAfter ⊢
    rw [if_neg (by rw [running, awake]; exact Bool.false_ne_true), decoded]
    have effect : (Dispatch.mk machine instruction step.machine).Effect :=
      Dispatch.effect_of_steered sound inside (steered_of_execute succeeded)
    exact .cons rfl ⟨sound.depth_le, soundAfter.depth_le, effect⟩ .nil

theorem chain_trail {machine : Machine} (sound : machine.Sound) (count : Nat) :
    Chain machine.stack (machine.trail count) (machine.cycles count).stack := by
  induction count generalizing machine with
  | zero => exact .nil
  | succ count previous => exact (chain_dispatched? sound).append (previous sound.cycle)

/-- What an operation executes is a chain. An operation that executes nothing leaves the call
stack alone, unless it is a load that succeeds. -/
theorem chain_performed {machine : Machine} (sound : machine.Sound) {command : Command}
    (stays : command.reloads = false) :
    Chain machine.stack (machine.performed command) (machine.perform command).machine.stack := by
  have keyed (key : Key) (pressed : Bool) :
      (machine.setKey key pressed).1.stack = machine.stack := by
    obtain ⟨_, _, _, same⟩ := machine.exists_setKey key pressed
    rw [same]
  cases command with
  | cycle => exact chain_dispatched? sound
  | run count =>
    have trail := chain_trail sound count
    rw [← machine_runFrom] at trail
    exact trail
  | load program =>
    rw [perform, load_of_not_reloads stays]
    exact .nil
  | loadFont =>
    rw [perform, loadFont]
    exact .nil
  | tick =>
    rw [perform, tick]
    exact .nil
  | keyEvent event =>
    rw [perform, applyKeyEvent]
    cases Key.ofByte? event.index with
    | none => exact .nil
    | some key =>
      show Chain machine.stack [] (machine.setKey key event.isPress).1.stack
      rw [keyed]
      exact .nil
  | setKey key pressed =>
    show Chain machine.stack [] (machine.setKey key pressed).1.stack
    rw [keyed]
    exact .nil

/-- What a history executes is a chain, as long as no load succeeds. -/
theorem chain_dispatches {machine : Machine} (sound : machine.Sound) {commands : List Command}
    (stays : ∀ command ∈ commands, command.reloads = false) :
    Chain machine.stack (machine.dispatches commands) (machine.after commands).stack := by
  induction commands generalizing machine with
  | nil => exact .nil
  | cons command rest previous =>
    have first := chain_performed sound (stays command List.mem_cons_self)
    have others := fun other member => stays other (List.mem_cons_of_mem command member)
    have soundNext : (machine.perform command).machine.Sound := sound.after [command]
    exact first.append (previous soundNext others)

end Machine

/-! ### Chains and open calls -/

/-- A chain takes an address from the end of the first call stack for each return that belongs
to no call, and puts behind what is left those of the calls that are not returned from. -/
theorem Chain.addresses_eq {first last : CallStack} {dispatches : List Dispatch}
    (chain : Chain first dispatches last) :
    last.addresses =
      first.addresses.take (first.addresses.length - surplus dispatches)
        ++ (openCalls dispatches).map (· + 2) := by
  -- Every instruction is judged with what follows it at hand: whether a call stays open is
  -- known only there, and what follows sees the call stack behind it.
  induction chain with
  | nil => simp [surplus, openCalls]
  | @cons stack final dispatch rest starts valid later previous =>
    subst starts
    rw [previous]
    cases valid.effect with
    | opening same pushed =>
      rw [pushed, List.length_append, List.length_singleton]
      by_cases unreturned : surplus rest = 0
      · rw [openCalls_of_surplus_eq_zero same unreturned, surplus_of_opening same, unreturned]
        rw [List.take_of_length_le (by simp), List.take_of_length_le (by simp)]
        simp
      · rw [openCalls_of_surplus_ne_zero unreturned, surplus_of_opening same,
          List.take_append_of_le_length (by omega)]
        congr 2
        omega
    | closing same popped =>
      rw [openCalls_of_ne_opening (by rw [same]; decide), surplus_of_closing same, popped,
        List.length_append, List.length_singleton, List.take_append_of_le_length (by omega)]
      congr 2
      omega
    | neutral same kept =>
      rw [openCalls_of_ne_opening (by rw [same]; decide), surplus_of_neutral same, kept]

/-! ### The return of a call -/

section Returning

variable {base : List Nat} {address : Nat}

/-- An address stays in its slot as long as no return takes the call stack below it. -/
theorem Dispatch.Effect.keeps {dispatch : Dispatch} (effect : dispatch.Effect)
    (held : base ++ [address] <+: dispatch.before.stack.addresses)
    (above : dispatch.instruction = .leave →
      dispatch.after.stack.addresses.length ≠ base.length) :
    base ++ [address] <+: dispatch.after.stack.addresses := by
  cases effect with
  | opening _ pushed =>
    rw [pushed]
    exact held.trans (List.prefix_append _ _)
  | closing same popped =>
    rw [popped] at held
    -- Either the return takes this very address, which `above` rules out, or a later one.
    rcases List.prefix_concat_iff.mp held with whole | kept
    · have lengths := congrArg List.length whole
      rw [List.length_append, List.length_append, List.length_singleton,
        List.length_singleton] at lengths
      exact absurd (by omega) (above (Instruction.bracket_eq_closing_iff.mp same))
    · exact kept
  | neutral _ kept =>
    rw [kept]
    exact held

theorem Chain.keeps {first last : CallStack} {dispatches : List Dispatch}
    (chain : Chain first dispatches last) (held : base ++ [address] <+: first.addresses)
    (above : ∀ dispatch ∈ dispatches, dispatch.instruction = .leave →
      dispatch.after.stack.addresses.length ≠ base.length) :
    base ++ [address] <+: last.addresses ∧
      ∀ dispatch ∈ dispatches, base ++ [address] <+: dispatch.after.stack.addresses := by
  induction chain with
  | nil => exact ⟨held, fun _ member => absurd member List.not_mem_nil⟩
  | @cons stack final dispatch rest starts valid _ previous =>
    subst starts
    have next := valid.effect.keeps held (above dispatch List.mem_cons_self)
    obtain ⟨ending, others⟩ :=
      previous next fun other member => above other (List.mem_cons_of_mem _ member)
    refine ⟨ending, fun other member => ?_⟩
    rcases List.mem_cons.mp member with rfl | later
    · exact next
    · exact others other later

theorem Dispatch.Effect.pushes {dispatch : Dispatch} (effect : dispatch.Effect)
    (opening : dispatch.instruction.bracket = .opening) :
    dispatch.after.stack.addresses =
      dispatch.before.stack.addresses ++ [dispatch.before.pc + 2] := by
  cases effect with
  | opening _ pushed => exact pushed
  | closing other | neutral other =>
    rw [opening] at other
    cases other

/-- The return that takes an address from its slot goes there. -/
theorem Dispatch.Effect.returns {dispatch : Dispatch} (effect : dispatch.Effect)
    (same : dispatch.instruction = .leave)
    (held : base ++ [address] <+: dispatch.before.stack.addresses)
    (level : dispatch.after.stack.addresses.length = base.length) :
    dispatch.after.pc = address ∧ dispatch.after.stack.addresses = base := by
  have closing := Instruction.bracket_eq_closing_iff.mpr same
  cases effect with
  | opening other | neutral other =>
    rw [closing] at other
    cases other
  | closing _ popped =>
    rw [popped] at held
    have whole : base ++ [address] = dispatch.after.stack.addresses ++ [dispatch.after.pc] :=
      held.eq_of_length (by simp [level])
    obtain ⟨bases, addresses⟩ := List.append_inj whole level.symm
    exact ⟨(List.singleton_inj.mp addresses).symm, bases.symm⟩

end Returning

/-- A call and the first return that brings the call stack back to its depth. -/
structure Closes (call : Dispatch) (between : List Dispatch) (back : Dispatch) : Prop where
  calls : ∃ target, call.instruction = .call target
  returns : back.instruction = .leave
  level : back.after.stack.depth = call.before.stack.depth
  first : ∀ dispatch ∈ between, dispatch.instruction = .leave →
    dispatch.after.stack.depth ≠ call.before.stack.depth

theorem Closes.of_next {before inside after : Machine} {target : Fin 4096}
    (level : after.stack.depth = before.stack.depth) :
    Closes ⟨before, .call target, inside⟩ [] ⟨inside, .leave, after⟩ where
  calls := ⟨target, rfl⟩
  returns := rfl
  level := level
  first := fun _ member => absurd member List.not_mem_nil

/-- The return of a call goes behind it and leaves the call stack that it found. Until then the
addresses below its own stay. -/
theorem Chain.closes {first last : CallStack} {call back : Dispatch} {between after : List Dispatch}
    (chain : Chain first (call :: (between ++ back :: after)) last)
    (closes : Closes call between back) :
    back.after.pc = call.before.pc + 2 ∧
    back.after.stack.addresses = call.before.stack.addresses ∧
    ∀ dispatch ∈ between,
      dispatch.after.stack.addresses.take call.before.stack.depth =
        call.before.stack.addresses := by
  cases chain with
  | cons _ valid later =>
    obtain ⟨middle, inner, outer⟩ := later.cut
    obtain ⟨target, calls⟩ := closes.calls
    have depth := CallStack.length_addresses valid.before_le
    have pushed := valid.effect.pushes (by rw [calls]; rfl)
    have above : ∀ dispatch ∈ between, dispatch.instruction = .leave →
        dispatch.after.stack.addresses.length ≠ call.before.stack.addresses.length := by
      intro dispatch member returns
      rw [CallStack.length_addresses (inner.valid dispatch member).after_le, depth]
      exact closes.first dispatch member returns
    have entered : call.before.stack.addresses ++ [call.before.pc + 2] <+:
        call.after.stack.addresses := ⟨[], by rw [pushed, List.append_nil]⟩
    obtain ⟨held, stayed⟩ := inner.keeps entered above
    cases outer with
    | cons starts backValid _ =>
      have level : back.after.stack.addresses.length = call.before.stack.addresses.length := by
        rw [CallStack.length_addresses backValid.after_le, depth, closes.level]
      obtain ⟨target, restored⟩ :=
        backValid.effect.returns closes.returns (by rw [starts]; exact held) level
      refine ⟨target, restored, fun dispatch member => ?_⟩
      have below := (List.prefix_append _ _).trans (stayed dispatch member)
      rw [← depth, ← List.prefix_iff_eq_take.mp below]

namespace Machine

/-- After a load, and until the next, the call stack holds the addresses behind the calls that
are not returned from, and each call is returned from to the address behind it. -/
theorem stack_holds_open_calls (settings : Settings) (generator : Generator)
    (earlier history : List Command) (program : List UInt8)
    (fits : program.length ≤ maximumProgramSize)
    (stays : ∀ command ∈ history, command.reloads = false) :
    let start := (create settings generator).after (earlier ++ [.load program])
    let executed := start.dispatches history
    let stack := (start.after history).stack
    stack.addresses = (openCalls executed).map (· + 2) ∧
    stack.depth = (openCalls executed).length ∧
    ∀ before call between back after,
      executed = before ++ call :: (between ++ back :: after) → Closes call between back →
      back.after.pc = call.before.pc + 2 ∧
      back.after.stack.addresses = call.before.stack.addresses ∧
      ∀ dispatch ∈ between,
        dispatch.after.stack.addresses.take call.before.stack.depth =
          call.before.stack.addresses := by
  intro start executed stack
  have sound : start.Sound := Reachable.sound ⟨settings, generator, _, rfl⟩
  have soundAfter : (start.after history).Sound := sound.after history
  have empty : start.stack.addresses = [] := by
    show ((create settings generator).after (earlier ++ [.load program])).stack.addresses = []
    rw [after_append, after, perform, load, if_pos fits]
    rfl
  have chain : Chain start.stack executed stack := chain_dispatches sound stays
  have holds : stack.addresses = (openCalls executed).map (· + 2) := by
    rw [chain.addresses_eq, empty, List.take_nil, List.nil_append]
  refine ⟨holds, ?_, fun before call between back after split closes => ?_⟩
  · rw [← CallStack.length_addresses soundAfter.depth_le, holds, List.length_map]
  · rw [split] at chain
    obtain ⟨_, -, fromCall⟩ := chain.cut
    exact fromCall.closes closes

/-- A call to the third word, which returns. -/
def subroutine : List UInt8 := [0x22, 0x04, 0x00, 0x00, 0x00, 0xEE]

def beforeCall : Machine := (blank {} (RandomSource.start fun _ => 0)).loaded subroutine

def inCall : Machine :=
  { beforeCall with pc := 0x204, stack := ⟨(Vector.replicate stackSize 0).set 0 0x202, 1⟩ }

theorem word_beforeCall : beforeCall.word = 0x2204 := by
  have written : beforeCall.memory = _ := memory_loaded unloaded subroutine
  have place : beforeCall.pc = programStart := rfl
  exact word_of_written subroutine 0 written place (by decide) (by decide)

theorem word_inCall : inCall.word = 0x00EE := by
  have written : inCall.memory = _ := memory_loaded unloaded subroutine
  have place : inCall.pc = programStart + 4 := rfl
  exact word_of_written subroutine 4 written place (by decide) (by decide)

theorem dispatched?_of_executed {machine : Machine} {instruction : Instruction} {step : Step}
    (running : machine.halted = false) (awake : machine.awaiting = none)
    (inside : machine.pc ≤ 0xFFE) (decoded : Instruction.decode machine.word = some instruction)
    (succeeded : machine.advance.execute machine.pc instruction = .ok step) :
    machine.dispatched? = some ⟨machine, instruction, machine.cycle.machine⟩ ∧
      machine.cycle.machine = step.machine := by
  have same := cycle_of_executed running awake inside decoded succeeded
  rw [dispatched?, if_neg (by rw [running, awake]; exact Bool.false_ne_true), same, decoded]
  exact ⟨rfl, rfl⟩

/-- The call and its return close, with nothing in between, and the return goes behind the
call. -/
theorem stack_holds_open_calls_subroutine :
    let call : Dispatch := ⟨beforeCall, .call 0x204, inCall⟩
    let back : Dispatch := ⟨inCall, .leave, inCall.cycle.machine⟩
    subroutine.length ≤ maximumProgramSize ∧
      (∀ command ∈ [Command.cycle, .cycle], command.reloads = false) ∧
      beforeCall.dispatches [.cycle, .cycle] = [call, back] ∧ Closes call [] back ∧
      back.after.pc = 0x202 ∧ (beforeCall.after [.cycle, .cycle]).stack.addresses = [] := by
  intro call back
  have called : beforeCall.dispatched? = some call ∧ beforeCall.cycle.machine = inCall := by
    have decoded : Instruction.decode beforeCall.word = some (.call 0x204) := by
      rw [word_beforeCall]
      rfl
    obtain ⟨executed, after⟩ := dispatched?_of_executed rfl rfl (by decide) decoded rfl
    rw [after] at executed
    exact ⟨executed, after⟩
  have left : inCall.dispatched? = some back ∧ inCall.cycle.machine.stack.depth = 0 := by
    have decoded : Instruction.decode inCall.word = some .leave := by
      rw [word_inCall]
      rfl
    obtain ⟨executed, after⟩ := dispatched?_of_executed rfl rfl (by decide) decoded rfl
    exact ⟨executed, by rw [after]⟩
  have executed : beforeCall.dispatches [.cycle, .cycle] = [call, back] := by
    simp only [dispatches, performed, perform, replying, called.1, called.2, left.1]
    rfl
  have stays : ∀ command ∈ [Command.cycle, .cycle], command.reloads = false := by decide
  have level : inCall.cycle.machine.stack.depth = beforeCall.stack.depth := by
    rw [left.2]
    rfl
  have closes : Closes call [] back := .of_next level
  obtain ⟨holds, -, returns⟩ := stack_holds_open_calls {} Generator.zeros []
    [.cycle, .cycle] subroutine (by decide) stays
  have loaded : (create {} Generator.zeros).after ([] ++ [.load subroutine]) =
      beforeCall := by
    rw [List.nil_append, after, after, perform, load, if_pos (by decide)]
    rfl
  rw [loaded] at holds returns
  refine ⟨by decide, stays, executed, closes, ?_, ?_⟩
  · exact (returns [] call [] back [] executed closes).1
  · rw [holds, executed]
    rfl

end Machine

end ChipEight
