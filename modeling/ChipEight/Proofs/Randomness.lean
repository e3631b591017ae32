/-
This file proves that random bytes are taken one by one and in order.

A machine takes its random bytes from a sequence, of which it keeps the place it has got to. One
instruction takes a byte and moves the place on by one, whatever it masks the byte with. Nothing
else moves it: no other instruction, no error, no key, no tick, and no load, after which the bytes
go on where they were. So the place is the number of those instructions so far, and the byte that
one of them takes is told by how many there were before it.

How a seed becomes a sequence is up to the generator. All that is assumed of it is that there is
a sequence of words for each seed, of which each byte is the low byte of the next.
-/

import ChipEight.Keystream
import ChipEight.Proofs.Chronicle

namespace ChipEight

/-! ### The instructions in a chronicle -/

namespace Machine

/-- The instruction that is executed in an event, if one is. -/
def Event.dispatch? : Event → Option Dispatch
  | executed dispatch => some dispatch
  | _ => none

/-- The instructions in the chronicle of a history are those that it executes. -/
theorem filterMap_dispatch?_chronicle (machine : Machine) (commands : List Command) :
    (machine.chronicle commands).filterMap Event.dispatch? = machine.dispatches commands := by
  have executed (dispatches : List Dispatch) :
      (dispatches.map Event.executed).filterMap Event.dispatch? = dispatches := by
    rw [List.filterMap_map]
    exact List.filterMap_some
  induction commands generalizing machine with
  | nil => rfl
  | cons command rest previous =>
    have here : (machine.eventsOf command).filterMap Event.dispatch? =
        machine.performed command := by
      cases command with
      | cycle | run => exact executed _
      | load | keyEvent | setKey => simp only [eventsOf]; split <;> rfl
      | loadFont | tick => rfl
    rw [chronicle, List.filterMap_append, here, previous, dispatches]

/-- What a history executes is what the words in memory stand for. -/
theorem decode_of_mem_dispatches {machine : Machine} {commands : List Command}
    {dispatch : Dispatch} (member : dispatch ∈ machine.dispatches commands) :
    Instruction.decode dispatch.before.word = some dispatch.instruction := by
  have single {machine : Machine} (member : dispatch ∈ machine.dispatched?.toList) :
      Instruction.decode dispatch.before.word = some dispatch.instruction := by
    have dispatched := Option.mem_toList.mp member
    unfold dispatched? at dispatched
    split at dispatched
    case isTrue => contradiction
    case isFalse =>
      split at dispatched
      case h_1 decoded =>
        cases dispatched
        exact decoded
      case h_2 => contradiction
  have several {machine : Machine} {count : Nat} (member : dispatch ∈ machine.trail count) :
      Instruction.decode dispatch.before.word = some dispatch.instruction := by
    induction count generalizing machine with
    | zero => contradiction
    | succ count previous => exact (List.mem_append.mp member).elim single previous
  induction commands generalizing machine with
  | nil => contradiction
  | cons command rest previous =>
    refine (List.mem_append.mp member).elim (fun here => ?_) previous
    cases command with
    | cycle => exact single here
    | run count => exact several here
    | load | loadFont | tick | keyEvent | setKey => contradiction

end Machine

/-! ### The bytes that are taken -/

/-- Whether an instruction that was executed takes a random byte. -/
def Dispatch.isRandom (dispatch : Dispatch) : Bool := dispatch.instruction.footprint.random

/-- An instruction that was executed has taken a random byte and left what its mask lets through
in its register. -/
def Dispatch.Takes (dispatch : Dispatch) (byte : UInt8) : Prop :=
  ∃ x mask, dispatch.instruction = .random x mask ∧
    dispatch.after.registers.read x = mask &&& byte

namespace Machine

/-- The instructions among events that take a random byte, in order. -/
def takers (events : List Event) : List Dispatch :=
  (events.filterMap Event.dispatch?).filter Dispatch.isRandom

theorem takers_append (first second : List Event) :
    takers (first ++ second) = takers first ++ takers second := by
  simp [takers]

/-- In what happened to a machine the bytes of a sequence were taken in order, up to where the
machine has got to. -/
structure Taken (byte : Nat → UInt8) (events : List Event) (machine : Machine) : Prop where
  random : machine.random = ⟨byte, (takers events).length⟩
  inOrder : ∀ (position : Nat) (dispatch : Dispatch), (takers events)[position]? = some dispatch →
    dispatch.Takes (byte position)

section Taking

variable {byte : Nat → UInt8} {events new : List Event} {before after : Machine}

/-- Events that take no byte leave the place in the sequence as it is. -/
theorem Taken.idle (taken : Taken byte events before) (none : takers new = [])
    (same : after.random = before.random) : Taken byte (events ++ new) after := by
  have kept : takers (events ++ new) = takers events := by
    rw [takers_append, none, List.append_nil]
  exact ⟨by rw [kept, same]; exact taken.random, by rw [kept]; exact taken.inOrder⟩

/-- An instruction that takes the byte that comes next moves the place on by one. -/
theorem Taken.take {dispatch : Dispatch} (taken : Taken byte events before)
    (random : dispatch.isRandom = true) (takes : dispatch.Takes before.random.peek)
    (moved : after.random = before.random.skip) :
    Taken byte (events ++ [.executed dispatch]) after := by
  have more : takers (events ++ [.executed dispatch]) = takers events ++ [dispatch] := by
    rw [takers_append]
    exact congrArg _ (List.filter_cons_of_pos random)
  refine ⟨?_, fun position other found => ?_⟩
  · rw [more, moved, taken.random, List.length_append]
    rfl
  · rw [more] at found
    rcases Nat.lt_trichotomy position (takers events).length with earlier | here | beyond
    · rw [List.getElem?_append_left earlier] at found
      exact taken.inOrder position other found
    · subst here
      obtain rfl := Option.some.inj (List.getElem?_concat_length.symm.trans found)
      rw [taken.random] at takes
      exact takes
    · rw [List.getElem?_eq_none (by simp; omega)] at found
      contradiction

/-- However a machine evolves, the bytes are taken on in order. -/
theorem Taken.evolves (taken : Taken byte events before) (evolves : Evolves before new after) :
    Taken byte (events ++ new) after := by
  cases evolves with
  | nothing | ticked | loaded => exact taken.idle rfl rfl
  | pressed pressed =>
    obtain ⟨_, _, _, same⟩ := before.exists_setKey pressed true
    exact taken.idle rfl (by rw [same])
  | @executed instruction step _ succeeded =>
    have covers := (covers_of_execute succeeded).of_advance
    cases instruction with
    | random x mask =>
      cases succeeded
      have written := before.registers.read_write_self x (mask &&& before.random.peek)
      exact taken.take rfl ⟨x, mask, rfl, written⟩ rfl
    | _ => exact taken.idle rfl (covers.random rfl)

end Taking

/-- The bytes that a machine starts with are taken in order, from its creation on. -/
theorem taken_create (settings : Settings) (generator : Generator) (history : List Command) :
    let start := create settings generator
    Taken (generator.source settings.seed).byte (start.chronicle history)
      (start.after history) := by
  intro start
  have fresh : start.random = ⟨(generator.source settings.seed).byte, 0⟩ := by
    show generator.source settings.seed = _
    cases settings.seed <;> rfl
  have nothing : Taken (generator.source settings.seed).byte [] start :=
    ⟨fresh, fun _ _ found => nomatch found⟩
  exact holds_of_chronicle (fun evolves taken => taken.evolves evolves) nothing history

end Machine

/-- What is assumed of a generator: a seed stands for an endless sequence of words, and each byte
is the low byte of the next one. -/
def Generator.TakesLowBytes (generator : Generator) (words : UInt64 → Nat → UInt32) : Prop :=
  ∀ seed position, generator.seeded seed position = (words seed position).toUInt8

namespace Machine

/-- Of a machine with a seed, the place in the bytes of its seed is the number of instructions
that took a random byte since it was created, whatever else has happened to it. Each of them took
the word at the place that says how many came before it, and put the low byte of the word into its
register, as far as its mask lets it through. -/
theorem random_bytes_are_taken_in_order (generator : Generator) (words : UInt64 → Nat → UInt32)
    (assumed : generator.TakesLowBytes words) (settings : Settings) (seed : UInt64)
    (history : List Command) :
    let start := create { settings with seed := some seed } generator
    let random := (start.dispatches history).filter fun dispatch =>
      dispatch.before.word.fits "CXNN"
    (start.after history).random = ⟨generator.seeded seed, random.length⟩ ∧
    ∀ position dispatch, random[position]? = some dispatch →
      dispatch.after.registers.read dispatch.before.word.x =
        dispatch.before.word.lowByte &&& (words seed position).toUInt8 := by
  intro start random
  have taken : Taken (generator.seeded seed) (start.chronicle history) (start.after history) :=
    taken_create { settings with seed := some seed } generator history
  have same : takers (start.chronicle history) = random := by
    rw [takers, filterMap_dispatch?_chronicle]
    refine List.filter_congr fun dispatch member => ?_
    show dispatch.instruction.footprint.random = dispatch.before.word.footprint.random
    rw [Word.footprint_of_decode (decode_of_mem_dispatches member)]
  rw [← same]
  refine ⟨taken.random, fun position dispatch found => ?_⟩
  have executed : dispatch ∈ start.dispatches history := by
    have member := List.mem_of_getElem? found
    rw [same] at member
    exact (List.mem_filter.mp member).1
  obtain ⟨x, mask, taker, takes⟩ := taken.inOrder position dispatch found
  have carries := Instruction.carries_of_decode (decode_of_mem_dispatches executed)
  rw [taker] at carries
  obtain ⟨rfl, rfl⟩ := carries
  rw [← assumed seed position]
  exact takes

/-- A program that takes two random bytes and keeps nothing of the first. -/
def dice : List UInt8 := [0xC0, 0x00, 0xCF, 0x0F]

section Rolling

variable (machine : Machine)

/-- The machine with the program loaded and its first byte taken. -/
def rolledOnce : Machine :=
  { (machine.loaded dice).setRegister Register.offset (0 &&& machine.random.peek) with
    pc := 0x202, random := machine.random.skip }

/-- The machine with both bytes taken. -/
def rolledTwice : Machine :=
  { machine.rolledOnce.setRegister Register.flag (0x0F &&& machine.rolledOnce.random.peek) with
    pc := 0x204, random := machine.rolledOnce.random.skip }

theorem word_loaded_dice : (machine.loaded dice).word = 0xC000 :=
  word_of_written dice 0 (memory_loaded machine dice) rfl (by decide) (by decide)

theorem word_rolledOnce : machine.rolledOnce.word = 0xCF0F := by
  have written : machine.rolledOnce.memory = _ := memory_loaded machine dice
  exact word_of_written dice 2 written rfl (by decide) (by decide)

/-- A load, and the cycle that takes the first byte. -/
theorem chronicle_dice (rest : List Command) :
    machine.chronicle (.load dice :: .cycle :: rest) =
      .loaded :: .executed ⟨machine.loaded dice, .random Register.offset 0, machine.rolledOnce⟩ ::
        machine.rolledOnce.chronicle rest := by
  have decoded :
      Instruction.decode (machine.loaded dice).word = some (.random Register.offset 0) := by
    rw [word_loaded_dice]
    rfl
  rw [chronicle_load (by decide), chronicle_cycle rfl rfl (Nat.le_of_ble_eq_true rfl) decoded rfl]
  rfl

/-- The cycle that takes the second byte. -/
theorem chronicle_rolledOnce :
    machine.rolledOnce.chronicle [.cycle] =
      [.executed ⟨machine.rolledOnce, .random Register.flag 0x0F, machine.rolledTwice⟩] := by
  have decoded :
      Instruction.decode machine.rolledOnce.word = some (.random Register.flag 0x0F) := by
    rw [word_rolledOnce]
    rfl
  rw [chronicle_cycle rfl rfl (Nat.le_of_ble_eq_true rfl) decoded rfl]
  rfl

end Rolling

/-- With the generator that the program comes with. A load between them does not start the bytes
over, and the one that is masked out counts. -/
theorem random_bytes_are_taken_in_order_dice :
    let generator := Keystream.generator (Vector.replicate 8 0)
    let words := fun seed => Keystream.word (Keystream.keyOfSeed seed)
    let start := create { ({} : Settings) with seed := some 7 } generator
    let history : List Command := [.load dice, .cycle, .load dice, .cycle, .cycle]
    let last : Dispatch :=
      ⟨start.rolledOnce.rolledOnce, .random Register.flag 0x0F, start.rolledOnce.rolledTwice⟩
    let random := (start.dispatches history).filter fun dispatch =>
      dispatch.before.word.fits "CXNN"
    generator.TakesLowBytes words ∧ random[2]? = some last ∧
      (start.after history).random = ⟨generator.seeded 7, 3⟩ ∧
      last.after.registers.read Register.flag = 0x0F &&& (words 7 2).toUInt8 := by
  intro generator words start history last random
  have executed : start.dispatches history =
      [⟨start.loaded dice, .random Register.offset 0, start.rolledOnce⟩,
        ⟨start.rolledOnce.loaded dice, .random Register.offset 0, start.rolledOnce.rolledOnce⟩,
        last] := by
    rw [← filterMap_dispatch?_chronicle, chronicle_dice, chronicle_dice, chronicle_rolledOnce]
    rfl
  have all : random = start.dispatches history := by
    have first : (0xC000 : Word).fits "CXNN" = true := by decide
    have second : (0xCF0F : Word).fits "CXNN" = true := by decide
    refine List.filter_eq_self.mpr ?_
    rw [executed]
    simp [last, word_loaded_dice, word_rolledOnce, first, second]
  have assumed : generator.TakesLowBytes words := fun _ _ => rfl
  obtain ⟨place, bytes⟩ := random_bytes_are_taken_in_order generator words assumed {} 7 history
  have found : random[2]? = some last := by
    rw [all, executed]
    rfl
  refine ⟨assumed, found, ?_, ?_⟩
  · have three : random.length = 3 := by
      rw [all, executed]
      rfl
    rw [← three]
    exact place
  · have taken := bytes 2 last found
    have word : last.before.word = 0xCF0F := word_rolledOnce _
    rw [word] at taken
    exact taken

end Machine

end ChipEight
