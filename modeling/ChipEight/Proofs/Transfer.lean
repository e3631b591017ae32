/-
This file proves that block transfers lose nothing.

Three instructions move a run of bytes between the registers and the memory at the index register:
one stores registers, one reads them back, and one stores the decimal digits of a register. Each
needs its whole window in memory and asks for nothing else, so the window may lie over the font or
over the code. What was stored is read back as long as the window holds it, whatever else has
happened, and storing what was read changes nothing. A window holds what was stored in it until an
instruction writes there or the font or a program is loaded.
-/

import ChipEight.Proofs.Frame

namespace ChipEight

/-! ### Runs of bytes -/

namespace Registers

variable (registers : Registers)

theorem getElem?_upTo {last register : Register} (within : register ≤ last) :
    (registers.upTo last)[register.val]? = some (registers.read register) := by
  have below : register.val < last.val + 1 := Nat.lt_succ_of_le within
  simp [upTo, read, below]

/-- Registers that a slice of memory is written over hold the slice as far as it reaches. -/
theorem read_overwrite_slice (memory : Memory) (start length : Nat) (register : Register) :
    (registers.overwrite (memory.slice start length)).read register =
      if register.val < length then memory.read (start + register)
      else registers.read register := by
  by_cases within : register.val < length
  · simp [overwrite, read, Memory.slice, within]
  · simp [overwrite, read, Memory.slice, within]

theorem upTo_overwrite_slice (memory : Memory) (start : Nat) (last : Register) :
    (registers.overwrite (memory.slice start (last + 1))).upTo last =
      memory.slice start (last + 1) := by
  refine List.ext_getElem? fun position => ?_
  by_cases within : position < last.val + 1
  · have register : position < 16 := by omega
    have found := getElem?_upTo (registers.overwrite (memory.slice start (last + 1)))
      (show (⟨position, register⟩ : Register) ≤ last from Nat.le_of_lt_succ within)
    rw [read_overwrite_slice, if_pos within] at found
    rw [found]
    simp [Memory.slice, within]
  · rw [List.getElem?_eq_none, List.getElem?_eq_none]
    · rw [Memory.length_slice]; omega
    · rw [length_upTo]; omega

end Registers

/-- Writing back what is there changes nothing. -/
theorem Memory.overwrite_slice (memory : Memory) (start length : Nat)
    (fits : start + length ≤ memorySize) :
    memory.overwrite start (memory.slice start length) = memory := by
  refine ext_read fun address _ => ?_
  by_cases outside : address < start ∨ start + length ≤ address
  · exact read_overwrite_other _ _ _ _ (by rwa [length_slice])
  · obtain ⟨offset, rfl⟩ := Nat.exists_eq_add_of_le (show start ≤ address by omega)
    have within : offset < (memory.slice start length).length := by rw [length_slice]; omega
    rw [read_overwrite_self _ _ _ _ within (by rwa [length_slice])]
    simp [slice]

/-! ### One transfer -/

namespace Machine

section Cycles

variable {machine : Machine}

/-- An instruction that needs a run of memory succeeds exactly if the run lies in memory. -/
theorem cycle_of_checkRange {instruction : Instruction} {length : Nat} {action : Unit → Step}
    (able : machine.CanFetch) (decoded : Instruction.decode machine.word = some instruction)
    (checked : machine.advance.execute machine.pc instruction =
      machine.advance.checkRange length machine.pc action) :
    ((∃ flow, machine.cycle.result = .ok flow) ↔ machine.index.toNat + length ≤ 4096) ∧
      (machine.index.toNat + length ≤ 4096 → machine.cycle.machine = (action ()).machine) := by
  by_cases fits : machine.index.toNat + length ≤ 4096
  · have executed : machine.advance.execute machine.pc instruction = .ok (action ()) :=
      checked.trans (checkRange_eq_ok_iff.mpr ⟨fits, rfl⟩)
    rw [cycle_of_executed able.running able.awake able.inside decoded executed]
    exact ⟨iff_of_true ⟨_, rfl⟩ fits, fun _ => rfl⟩
  · have failed : machine.dispatch machine.word =
        .error (.outOfBounds .memory (machine.index.toNat + length - 1) machine.pc) := by
      rw [dispatch, decoded]
      exact checked.trans (if_neg fits)
    refine ⟨iff_of_false ?_ fits, fun within => absurd within fits⟩
    rintro ⟨flow, succeeded⟩
    rw [cycle_result_of_ready _ able.running able.awake, fetch_eq, if_pos able.inside] at succeeded
    simp [Except.bind, Except.map, failed] at succeeded

theorem cycle_of_stores (able : machine.CanFetch) (stores : machine.word.fits "FX55" = true) :
    ((∃ flow, machine.cycle.result = .ok flow) ↔
      machine.index.toNat + (machine.word.x + 1) ≤ 4096) ∧
    (machine.index.toNat + (machine.word.x + 1) ≤ 4096 →
      machine.cycle.machine = { machine.advance with
        memory := machine.memory.overwrite machine.index.toNat
          (machine.registers.upTo machine.word.x) }) := by
  have decoded : Instruction.decode machine.word = some (.storeRegisters machine.word.x) :=
    Instruction.decode_of_fits stores rfl
  exact cycle_of_checkRange able decoded (by rw [execute])

theorem cycle_of_reads (able : machine.CanFetch) (reads : machine.word.fits "FX65" = true) :
    ((∃ flow, machine.cycle.result = .ok flow) ↔
      machine.index.toNat + (machine.word.x + 1) ≤ 4096) ∧
    (machine.index.toNat + (machine.word.x + 1) ≤ 4096 →
      machine.cycle.machine = machine.advance.withRegisters
        (machine.registers.overwrite
          (machine.memory.slice machine.index.toNat (machine.word.x + 1)))) := by
  have decoded : Instruction.decode machine.word = some (.readRegisters machine.word.x) :=
    Instruction.decode_of_fits reads rfl
  exact cycle_of_checkRange able decoded (by rw [execute])

theorem cycle_of_converts (able : machine.CanFetch) (converts : machine.word.fits "FX33" = true) :
    ((∃ flow, machine.cycle.result = .ok flow) ↔ machine.index.toNat + 3 ≤ 4096) ∧
    (machine.index.toNat + 3 ≤ 4096 →
      machine.cycle.machine = { machine.advance with
        memory := machine.memory.overwrite machine.index.toNat
          (decimalDigits (machine.registers.read machine.word.x)) }) := by
  have decoded : Instruction.decode machine.word = some (.storeDecimal machine.word.x) :=
    Instruction.decode_of_fits converts rfl
  exact cycle_of_checkRange able decoded (by rw [execute])

/-- Reading gives the registers up to the last that is asked for the bytes of the window, and
leaves the others and the index register alone. -/
theorem read_of_reads (able : machine.CanFetch) (reads : machine.word.fits "FX65" = true)
    (fits : machine.index.toNat + (machine.word.x + 1) ≤ 4096) :
    (∀ register, machine.cycle.machine.registers.read register =
      if register ≤ machine.word.x then machine.memory.read (machine.index.toNat + register)
      else machine.registers.read register) ∧
    machine.cycle.machine.index = machine.index := by
  rw [(cycle_of_reads able reads).2 fits]
  refine ⟨fun register => ?_, rfl⟩
  show (machine.registers.overwrite _).read register = _
  rw [Registers.read_overwrite_slice]
  exact ite_congr (propext Nat.lt_succ_iff) (fun _ => rfl) fun _ => rfl

/-- Storing puts the registers up to the last that is asked for into the window and leaves all
other bytes alone. -/
theorem memory_of_stores (able : machine.CanFetch) (stores : machine.word.fits "FX55" = true)
    (fits : machine.index.toNat + (machine.word.x + 1) ≤ 4096) :
    (∀ register ≤ machine.word.x, machine.cycle.machine.memory.read
      (machine.index.toNat + register) = machine.registers.read register) ∧
    ∀ address,
      address < machine.index.toNat ∨ machine.index.toNat + machine.word.x < address →
      machine.cycle.machine.memory.read address = machine.memory.read address := by
  have length := machine.registers.length_upTo machine.word.x
  rw [(cycle_of_stores able stores).2 fits]
  refine ⟨fun register within => ?_, fun address outside => ?_⟩
  · have found := machine.registers.getElem?_upTo within
    obtain ⟨inside, same⟩ := List.getElem?_eq_some_iff.mp found
    rw [← same]
    exact Memory.read_overwrite_self _ _ _ _ inside (by rwa [length])
  · exact Memory.read_overwrite_other _ _ _ _ (by rw [length]; omega)

/-- A register that is stored in decimal puts its digits into the window and leaves all other bytes
alone. -/
theorem memory_of_converts (able : machine.CanFetch) (converts : machine.word.fits "FX33" = true)
    (fits : machine.index.toNat + 3 ≤ 4096) :
    machine.cycle.machine.memory.slice machine.index.toNat 3 =
      decimalDigits (machine.registers.read machine.word.x) ∧
    ∀ address, address < machine.index.toNat ∨ machine.index.toNat + 2 < address →
      machine.cycle.machine.memory.read address = machine.memory.read address := by
  rw [(cycle_of_converts able converts).2 fits]
  refine ⟨Memory.slice_overwrite_self _ _ (decimalDigits _) fits, fun address outside => ?_⟩
  exact Memory.read_overwrite_other _ _ _ _ (outside.imp_right Nat.succ_le_of_lt)

/-- Three bytes are read into the first three registers. -/
theorem read_of_slice (able : machine.CanFetch) (word : machine.word = 0xF265)
    (fits : machine.index.toNat + 3 ≤ 4096) {first second third : UInt8}
    (slice : machine.memory.slice machine.index.toNat 3 = [first, second, third]) :
    (∃ flow, machine.cycle.result = .ok flow) ∧
      machine.cycle.machine.registers.read 0 = first ∧
      machine.cycle.machine.registers.read 1 = second ∧
      machine.cycle.machine.registers.read 2 = third := by
  have last : machine.word.x.val = 2 := by rw [word]; rfl
  have reads : machine.word.fits "FX65" = true := by rw [word]; decide
  have inside : machine.index.toNat + (machine.word.x + 1) ≤ 4096 := by rwa [last]
  have bytes : [machine.memory.read (machine.index.toNat + 0),
      machine.memory.read (machine.index.toNat + 1),
      machine.memory.read (machine.index.toNat + 2)] = [first, second, third] := slice
  obtain ⟨read, -⟩ := read_of_reads able reads inside
  rw [word] at read
  simp only [List.cons.injEq, and_true] at bytes
  obtain ⟨byFirst, bySecond, byThird⟩ := bytes
  exact ⟨(cycle_of_reads able reads).1.mpr inside, (read 0).trans byFirst,
    (read 1).trans bySecond, (read 2).trans byThird⟩

/-- Storing what was read a cycle before changes no byte. -/
theorem memory_of_reads_stores (able : machine.CanFetch)
    (reads : machine.word.fits "FX65" = true)
    (fits : machine.index.toNat + (machine.word.x + 1) ≤ 4096)
    (ableNext : machine.cycle.machine.CanFetch)
    (stores : machine.cycle.machine.word.fits "FX55" = true)
    (same : machine.cycle.machine.word.x = machine.word.x) :
    (∃ flow, machine.cycle.machine.cycle.result = .ok flow) ∧
      machine.cycle.machine.cycle.machine.memory = machine.memory := by
  obtain ⟨succeeds, stored⟩ := cycle_of_stores ableNext stores
  have read := (cycle_of_reads able reads).2 fits
  have index : machine.cycle.machine.index = machine.index := by rw [read]; rfl
  rw [same, index] at succeeds stored
  refine ⟨succeeds.mpr fits, ?_⟩
  rw [stored fits]
  show machine.cycle.machine.memory.overwrite _ (machine.cycle.machine.registers.upTo _) = _
  rw [read]
  show machine.memory.overwrite _ ((machine.registers.overwrite _).upTo _) = _
  rw [Registers.upTo_overwrite_slice, Memory.overwrite_slice _ _ _ fits]

end Cycles

/-! ### Windows over time -/

end Machine

/-- An executed instruction does not write the byte at an address. -/
def Dispatch.Spares (dispatch : Dispatch) (address : Nat) : Prop :=
  address < dispatch.before.index.toNat ∨
    dispatch.before.index.toNat + dispatch.instruction.footprint.memory ≤ address

namespace Machine

section Windows

variable {machine : Machine} {address : Nat}

theorem read_of_dispatched?
    (spared : ∀ dispatch ∈ machine.dispatched?.toList, dispatch.Spares address) :
    machine.cycle.machine.memory.read address = machine.memory.read address := by
  cases machine.cycled with
  | stopped _ same | waiting _ _ same => rw [same]
  | unfetched _ _ _ same | refused _ _ _ _ same =>
    rw [same]
    rfl
  | executed running awake inside decoded executed =>
    obtain ⟨dispatched, same⟩ := dispatched?_of_executed running awake inside decoded executed
    rw [dispatched] at spared
    rw [same]
    exact (covers_of_execute executed).memory address (spared _ (List.mem_singleton_self _))

theorem read_of_trail {count : Nat}
    (spared : ∀ dispatch ∈ machine.trail count, dispatch.Spares address) :
    (machine.cycles count).memory.read address = machine.memory.read address := by
  induction count generalizing machine with
  | zero => rfl
  | succ count previous =>
    rw [cycles, previous fun dispatch member => spared dispatch (List.mem_append_right _ member)]
    exact read_of_dispatched? fun dispatch member =>
      spared dispatch (List.mem_append_left _ member)

theorem read_of_performed {command : Command} (stays : command.reloads = false)
    (noFont : command ≠ .loadFont)
    (spared : ∀ dispatch ∈ machine.performed command, dispatch.Spares address) :
    (machine.perform command).machine.memory.read address = machine.memory.read address := by
  have keyed (key : Key) (pressed : Bool) :
      (machine.setKey key pressed).1.memory = machine.memory := by
    obtain ⟨_, _, _, same⟩ := machine.exists_setKey key pressed
    rw [same]
  cases command with
  | cycle => exact read_of_dispatched? spared
  | run count =>
    show (machine.run count).machine.memory.read address = _
    rw [run, machine_runFrom]
    exact read_of_trail spared
  | load program => rw [perform, load_of_not_reloads stays]; rfl
  | loadFont => contradiction
  | tick => rfl
  | keyEvent event =>
    rw [perform, applyKeyEvent]
    cases Key.ofByte? event.index with
    | none => rfl
    | some key => exact congrArg (Memory.read · address) (keyed key event.isPress)
  | setKey key pressed => exact congrArg (Memory.read · address) (keyed key pressed)

/-- A byte stays until an instruction writes it or the font or a program is loaded. -/
theorem read_of_spared {history : List Command}
    (stays : ∀ command ∈ history, command.reloads = false ∧ command ≠ .loadFont)
    (spared : ∀ dispatch ∈ machine.dispatches history, dispatch.Spares address) :
    (machine.after history).memory.read address = machine.memory.read address := by
  induction history generalizing machine with
  | nil => rfl
  | cons command rest previous =>
    obtain ⟨loadless, noFont⟩ := stays command List.mem_cons_self
    rw [after, previous (fun other member => stays other (List.mem_cons_of_mem _ member))
      fun dispatch member => spared dispatch (List.mem_append_right _ member)]
    exact read_of_performed loadless noFont fun dispatch member =>
      spared dispatch (List.mem_append_left _ member)

end Windows

/-! ### Transfers and back -/

/-- The decimal digits of a byte. -/
theorem decimal_of_digits (byte : UInt8) :
    byte / 100 ≤ 2 ∧ byte / 10 % 10 ≤ 9 ∧ byte % 10 ≤ 9 ∧
      100 * (byte / 100).toNat + 10 * (byte / 10 % 10).toNat + (byte % 10).toNat = byte.toNat := by
  have bound := byte.toNat_lt
  simp only [UInt8.le_iff_toNat_le, UInt8.toNat_div, UInt8.toNat_mod, UInt8.toNat_ofNat,
    Nat.reducePow, Nat.reduceMod]
  omega

/-- Transfers of a block of bytes succeed exactly if their window lies in memory, wherever it lies
there. Registers that are stored are the only bytes that change, stay until they are overwritten,
and are read back as they were by any machine that still has them at its index register. Registers
that are read can be stored again without a change. A register that is stored in decimal is read
back digit by digit. -/
theorem transfers_lose_nothing (machine : Machine) (able : machine.CanFetch) :
    let start := machine.index.toNat
    let x := machine.word.x
    let next := machine.cycle.machine
    (machine.word.fits "FX55" = true →
      ((∃ flow, machine.cycle.result = .ok flow) ↔ start + x ≤ 0xFFF) ∧
      (start + x ≤ 0xFFF →
        (∀ register ≤ x,
          next.memory.read (start + register) = machine.registers.read register) ∧
        (∀ address, address < start ∨ start + x < address →
          next.memory.read address = machine.memory.read address) ∧
        (∀ history, (∀ command ∈ history, command.reloads = false ∧ command ≠ .loadFont) →
          (∀ dispatch ∈ next.dispatches history, ∀ register ≤ x,
            dispatch.Spares (start + register)) →
          ∀ register ≤ x, (next.after history).memory.read (start + register) =
            machine.registers.read register) ∧
        ∀ later : Machine, later.CanFetch → later.word.fits "FX65" = true → later.word.x ≤ x →
          later.index = machine.index →
          (∀ register ≤ x,
            later.memory.read (start + register) = next.memory.read (start + register)) →
          (∃ flow, later.cycle.result = .ok flow) ∧
          (∀ register, later.cycle.machine.registers.read register =
            if register ≤ later.word.x then machine.registers.read register
            else later.registers.read register) ∧
          later.cycle.machine.index = later.index)) ∧
    (machine.word.fits "FX65" = true →
      ((∃ flow, machine.cycle.result = .ok flow) ↔ start + x ≤ 0xFFF) ∧
      (start + x ≤ 0xFFF → next.CanFetch → next.word.fits "FX55" = true → next.word.x = x →
        (∃ flow, next.cycle.result = .ok flow) ∧
        next.cycle.machine.memory = machine.memory)) ∧
    (machine.word.fits "FX33" = true →
      ((∃ flow, machine.cycle.result = .ok flow) ↔ start + 2 ≤ 0xFFF) ∧
      (start + 2 ≤ 0xFFF →
        ∃ hundreds tens ones : UInt8, hundreds ≤ 2 ∧ tens ≤ 9 ∧ ones ≤ 9 ∧
          100 * hundreds.toNat + 10 * tens.toNat + ones.toNat =
            (machine.registers.read x).toNat ∧
          next.memory.slice start 3 = [hundreds, tens, ones] ∧
          (∀ address, address < start ∨ start + 2 < address →
            next.memory.read address = machine.memory.read address) ∧
          ∀ later : Machine, later.CanFetch → later.word = 0xF265 →
            later.index = machine.index →
            later.memory.slice start 3 = next.memory.slice start 3 →
            (∃ flow, later.cycle.result = .ok flow) ∧
            later.cycle.machine.registers.read 0 = hundreds ∧
            later.cycle.machine.registers.read 1 = tens ∧
            later.cycle.machine.registers.read 2 = ones)) := by
  intro start x next
  refine ⟨fun stores => ?_, fun reads => ?_, fun converts => ?_⟩
  · refine ⟨(cycle_of_stores able stores).1.trans (by omega), fun fits => ?_⟩
    obtain ⟨stored, others⟩ := memory_of_stores able stores (by omega)
    refine ⟨stored, others, fun history stays spared register within => ?_,
      fun later ableLater readsLater fewer sameIndex kept => ?_⟩
    · rw [read_of_spared stays fun dispatch member => spared dispatch member register within]
      exact stored register within
    · have inside : later.index.toNat + (later.word.x + 1) ≤ 4096 := by rw [sameIndex]; omega
      obtain ⟨read, index⟩ := read_of_reads ableLater readsLater inside
      refine ⟨(cycle_of_reads ableLater readsLater).1.mpr inside, fun register => ?_, index⟩
      rw [read, sameIndex]
      refine ite_congr rfl (fun within => ?_) fun _ => rfl
      have asked := Fin.le_trans within fewer
      exact (kept register asked).trans (stored register asked)
  · refine ⟨(cycle_of_reads able reads).1.trans (by omega), fun fits ableNext stores same => ?_⟩
    exact memory_of_reads_stores able reads (by omega) ableNext stores same
  · refine ⟨(cycle_of_converts able converts).1.trans (by omega), fun fits => ?_⟩
    obtain ⟨hundreds, tens, ones, sum⟩ := decimal_of_digits (machine.registers.read x)
    obtain ⟨slice, others⟩ := memory_of_converts able converts (by omega)
    refine ⟨_, _, _, hundreds, tens, ones, sum, slice, others,
      fun later ableLater word sameIndex kept => ?_⟩
    refine read_of_slice ableLater word (by rw [sameIndex]; omega) ?_
    rw [sameIndex]
    exact kept.trans slice

/-- A machine whose last word of memory stores the first two registers there, which hold the word
that reads them. -/
def overwritingItself : Machine :=
  { blank {} (RandomSource.start fun _ => 0) with
    pc := 0xFFE
    index := 0xFFE
    memory := Memory.zero.overwrite 0xFFE [0xF1, 0x55]
    registers := Registers.zero.overwrite [0xF1, 0x65] }

/-- The same machine after the store, back at its last word and with empty registers. -/
def readingItself : Machine :=
  { overwritingItself.cycle.machine with pc := 0xFFE, registers := Registers.zero }

theorem word_overwritingItself : overwritingItself.word = 0xF155 :=
  word_of_written [0xF1, 0x55] 0 rfl rfl (by decide) (by decide)

theorem canFetch_overwritingItself : overwritingItself.CanFetch := ⟨rfl, rfl, by decide⟩

theorem readingItself_eq :
    readingItself = { overwritingItself with
      memory := overwritingItself.memory.overwrite 0xFFE [0xF1, 0x65]
      registers := Registers.zero } := by
  have stores : overwritingItself.word.fits "FX55" = true := by
    rw [word_overwritingItself]
    decide
  have stored := (cycle_of_stores canFetch_overwritingItself stores).2
  rw [word_overwritingItself] at stored
  rw [readingItself, stored (by decide)]
  rfl

/-- The store replaces itself by the word that undoes it, which reads itself. -/
theorem transfers_lose_nothing_overwritingItself :
    overwritingItself.CanFetch ∧ (∃ flow, overwritingItself.cycle.result = .ok flow) ∧
      readingItself.word = 0xF165 ∧ (∃ flow, readingItself.cycle.result = .ok flow) ∧
      readingItself.cycle.machine.registers.read 0 = 0xF1 ∧
      readingItself.cycle.machine.registers.read 1 = 0x65 := by
  have able : readingItself.CanFetch := by
    rw [readingItself_eq]
    exact ⟨rfl, rfl, by decide⟩
  have word : readingItself.word = 0xF165 := by
    rw [readingItself_eq]
    exact word_of_written [0xF1, 0x65] 0 rfl rfl (by decide) (by decide)
  obtain ⟨stores, -, -⟩ := transfers_lose_nothing overwritingItself canFetch_overwritingItself
  rw [word_overwritingItself] at stores
  obtain ⟨succeeds, stored⟩ := stores (by decide)
  obtain ⟨-, -, -, restores⟩ := stored (by decide)
  have stays (next : Machine) :
      ({ next with pc := 0xFFE, registers := Registers.zero } : Machine).memory = next.memory := rfl
  have kept : readingItself.memory = overwritingItself.cycle.machine.memory := stays _
  obtain ⟨reads, registers, -⟩ := restores readingItself able (by rw [word]; decide)
    (by rw [word]; decide) (by rw [readingItself_eq]) fun _ _ => by rw [kept]
  rw [word] at registers
  exact ⟨canFetch_overwritingItself, succeeds.mpr (by decide), word, reads,
    registers 0, registers 1⟩

end Machine

end ChipEight
