/-
This file runs the machine with nothing taken for granted.

The machine itself computes with natural numbers of any size and reads storage
through total functions, so nothing in it can break down. Here every operation is
spelled out once more on storage that refuses a position it does not have, with
sums that must stay below a bound, copies that must agree in length, a return address
cut to sixteen bits only if that loses nothing, and a wait for a key that must not
begin inside another. An operation that breaks down ends in a `Fault`, which is not
an error of the machine: no caller ever gets to see one. Whether any operation can
break down is then a question about this second machine.
-/

import ChipEight.Machine.Command

namespace ChipEight

/-- A way to break down. -/
inductive Fault
  /-- A position or a range that the storage does not have. -/
  | outside
  /-- A number that does not fit, or that would be negative. -/
  | overflow
  /-- A copy between runs of different lengths. -/
  | mismatch
  /-- A wait for a key that begins during another. -/
  | nestedWait
  /-- A word that belongs to no family. -/
  | noFamily
  deriving DecidableEq, Repr

/-- A value, unless its computation breaks down. -/
abbrev Checked (Value : Type) := Except Fault Value

namespace Checked

/-! ### Numbers and storage -/

/-- The bound of the numbers that addresses and positions are computed with, which have
thirty-two bits. Wider numbers have room for whatever these can hold. -/
def addressBound : Nat := 0x100000000

def wordBound : Nat := 0x10000

/-- A number, if it is below the bound of its kind. -/
def fit (bound value : Nat) : Checked Nat :=
  if value < bound then .ok value else .error .overflow

def difference (left right : Nat) : Checked Nat :=
  if right ≤ left then .ok (left - right) else .error .overflow

/-- A number as sixteen bits, if none is lost. -/
def narrow (value : Nat) : Checked UInt16 := do
  let fitting ← fit wordBound value
  return UInt16.ofNat fitting

/-- A position in storage of a size. -/
def position (size index : Nat) : Checked (Fin size) :=
  if inside : index < size then .ok ⟨index, inside⟩ else .error .outside

/-- A range in storage of a size, as the number of its elements. -/
def range (size start stop : Nat) : Checked Nat :=
  if start ≤ stop ∧ stop ≤ size then .ok (stop - start) else .error .outside

def readMemory (memory : Memory) (start stop : Nat) : Checked (List UInt8) := do
  let length ← range memorySize start stop
  return memory.slice start length

/-- The memory after bytes are copied over a range of exactly their length. -/
def writeMemory (memory : Memory) (start stop : Nat) (bytes : List UInt8) : Checked Memory := do
  let length ← range memorySize start stop
  if length = bytes.length then .ok (memory.overwrite start bytes) else .error .mismatch

def readRegisters (registers : Registers) (last : Register) : Checked (List UInt8) := do
  let stop ← fit addressBound (last + 1)
  let _ ← range 16 0 stop
  return registers.upTo last

def writeRegisters (registers : Registers) (last : Register) (bytes : List UInt8) :
    Checked Registers := do
  let stop ← fit addressBound (last + 1)
  let length ← range 16 0 stop
  if length = bytes.length then .ok (registers.overwrite bytes) else .error .mismatch

/-! ### Instructions -/

/-- The instruction that a word stands for. The fields of the word are found by dividing, so
that the first digit names a family and the next two name registers has to be checked. -/
def decode (word : Word) : Checked (Option Instruction) := do
  let x ← position 16 (word.toNat / 256 % 16)
  let y ← position 16 (word.toNat / 16 % 16)
  match word.toNat / 4096 with
  | 0x0 => .ok (Instruction.decodeSystem word)
  | 0x1 => .ok (some (.jump word.address))
  | 0x2 => .ok (some (.call word.address))
  | 0x3 => .ok (some (.skipIfByte x word.lowByte))
  | 0x4 => .ok (some (.skipUnlessByte x word.lowByte))
  | 0x5 => .ok (some (.skipIfSame x y))
  | 0x6 => .ok (some (.loadByte x word.lowByte))
  | 0x7 => .ok (some (.addByte x word.lowByte))
  | 0x8 => .ok (Instruction.decodeArithmetic x y word.n)
  | 0x9 => .ok (some (.skipUnlessSame x y))
  | 0xA => .ok (some (.loadIndex word.address))
  | 0xB => .ok (some (.jumpOffset word.address))
  | 0xC => .ok (some (.random x word.lowByte))
  | 0xD => .ok (some (.draw x y word.n))
  | 0xE => .ok (Instruction.decodeKeypad x word.lowByte)
  | 0xF => .ok (Instruction.decodeMiscellaneous x word.lowByte)
  | _ => .error .noFamily

def advance (machine : Machine) : Checked Machine := do
  let pc ← fit addressBound (machine.pc + Machine.instructionSize)
  return { machine with pc := pc }

def skipIf (machine : Machine) (condition : Bool) : Checked Step := do
  if condition then
    let skipped ← advance machine
    return { machine := skipped }
  else return { machine := machine }

/-- Whether a byte names a pressed key. A key is looked up by moving a bit by its number, and
there are sixteen bits to move it in. -/
def isPressedAt (keypad : Keypad) (index : UInt8) : Checked Bool := do
  if index.toNat < 16 then
    let key ← position 16 index.toNat
    return keypad.isPressed key
  else return false

/-- Go on with the end of the range of memory at the index register, or give the error that
says where it runs past the end of memory. -/
def withRange (machine : Machine) (length pc : Nat) (action : Nat → Checked Step) :
    Checked (Except Error Step) := do
  let stop ← fit addressBound (machine.index.toNat + length)
  if memorySize < stop then
    let last ← difference stop 1
    return .error (.outOfBounds .memory last pc)
  else
    let step ← action stop
    return .ok step

/-! ### Drawing -/

/-- A screen and the registers in the course of drawing. -/
abbrev Canvas := Framebuffer × Registers

/-- Inverting the pixel of a sprite in a column and row of it. Erasing sets the flag. -/
def drawPixel (x y row column : Nat) (canvas : Canvas) : Checked Canvas := do
  let right ← fit addressBound (x + column)
  let down ← fit addressBound (y + row)
  let skipped ← fit addressBound (down * Screen.width)
  let place ← fit addressBound (right + skipped)
  let pixel ← position Screen.size (place % Screen.size)
  let registers :=
    if canvas.1.isLit pixel then canvas.2.write Register.flag 1 else canvas.2
  return (canvas.1.toggle pixel, registers)

/-- Drawing columns of one row of a sprite. A bit of the row is found by moving the high bit of
a byte, and there are eight bits to move it in. -/
def drawColumns (x y row : Nat) (bits : UInt8) : List Nat → Canvas → Checked Canvas
  | [], canvas => .ok canvas
  | column :: rest, canvas => do
    let bit ← position 8 column
    let drawn ←
      if Framebuffer.spriteBit bits bit then drawPixel x y row column canvas else .ok canvas
    drawColumns x y row bits rest drawn

def drawRows (x y : Nat) : Nat → List UInt8 → Canvas → Checked Canvas
  | _, [], canvas => .ok canvas
  | row, bits :: rest, canvas => do
    let drawn ← drawColumns x y row bits (List.range 8) canvas
    drawRows x y (row + 1) rest drawn

/-- Drawing the sprite at the index register, whose range ends at `stop`. -/
def drawSprite (machine : Machine) (x y : Register) (stop : Nat) : Checked Step := do
  let cleared := machine.registers.write Register.flag 0
  let rows ← readMemory machine.memory machine.index.toNat stop
  let (screen, registers) ←
    drawRows (cleared.read x).toNat (cleared.read y).toNat 0 rows (machine.screen, cleared)
  return { machine := { machine with screen := screen, registers := registers }, flow := .draw }

/-! ### Execution -/

/-- Execute an instruction that stood at `pc`, on a machine already past it. What cannot break
down is left to the machine. -/
def execute (machine : Machine) (pc : Nat) : Instruction → Checked (Except Error Step)
  | .leave => do
    match machine.stack.depth with
    | 0 => return .error (.outOfBounds .stackUnderflow 0 pc)
    | depth + 1 =>
      let slot ← position stackSize depth
      return .ok
        { machine :=
            { machine with
              stack := { machine.stack with depth := depth }
              pc := machine.stack.slots[slot].toNat }
          flow := .jump }
  | .call target => do
    let address ← narrow machine.pc
    if free : machine.stack.depth < stackSize then
      let depth ← fit addressBound (machine.stack.depth + 1)
      return .ok
        { machine :=
            { machine with
              stack := ⟨machine.stack.slots.set machine.stack.depth address, depth⟩
              pc := target }
          flow := .jump }
    else return .error (.outOfBounds .stackOverflow machine.stack.depth pc)
  | .skipIfByte x byte => return .ok (← skipIf machine (machine.registers.read x = byte))
  | .skipUnlessByte x byte => return .ok (← skipIf machine (machine.registers.read x ≠ byte))
  | .skipIfSame x y =>
    return .ok (← skipIf machine (machine.registers.read x = machine.registers.read y))
  | .skipUnlessSame x y =>
    return .ok (← skipIf machine (machine.registers.read x ≠ machine.registers.read y))
  | .jumpOffset base => do
    let target ← fit addressBound ((machine.registers.read Register.offset).toNat + base)
    return .ok { machine := machine.goTo target, flow := .jump }
  | .draw x y height => withRange machine height pc (drawSprite machine x y)
  | .skipIfKey x => do
    let pressed ← isPressedAt machine.keypad (machine.registers.read x)
    return .ok (← skipIf machine pressed)
  | .skipUnlessKey x => do
    let pressed ← isPressedAt machine.keypad (machine.registers.read x)
    return .ok (← skipIf machine (!pressed))
  | .awaitKey x =>
    if machine.awaiting.isSome then .error .nestedWait else .ok (machine.execute pc (.awaitKey x))
  | .glyph x => do
    let place ← fit wordBound ((machine.registers.read x).toNat * Font.glyphHeight)
    return .ok { machine := { machine with index := UInt16.ofNat place } }
  | .storeDecimal x =>
    withRange machine 3 pc fun stop => do
      let memory ← writeMemory machine.memory machine.index.toNat stop
        (Machine.decimalDigits (machine.registers.read x))
      return { machine := { machine with memory := memory } }
  | .storeRegisters x => do
    let length ← fit addressBound (x + 1)
    withRange machine length pc fun stop => do
      let bytes ← readRegisters machine.registers x
      let memory ← writeMemory machine.memory machine.index.toNat stop bytes
      return { machine := { machine with memory := memory } }
  | .readRegisters x => do
    let length ← fit addressBound (x + 1)
    withRange machine length pc fun stop => do
      let bytes ← readMemory machine.memory machine.index.toNat stop
      let registers ← writeRegisters machine.registers x bytes
      return { machine := machine.withRegisters registers }
  | other => .ok (machine.execute pc other)

/-- Fetch and execute one instruction, if the machine is able to. A fetch asks for both bytes
and is told when there is none, so it cannot break down. -/
def cycle (machine : Machine) : Checked (Outcome Flow) := do
  if machine.halted then return ⟨.ok .halt, machine, #[]⟩
  else if machine.awaiting.isSome then return ⟨.ok .keyWait, machine, #[]⟩
  else
    match machine.fetch with
    | .error cause => return machine.stopOn cause #[]
    | .ok word =>
      let notices := #[.executing machine.pc word]
      let advanced ← advance machine
      match ← decode word with
      | none => return advanced.stopOn (.unknownWord word machine.pc) notices
      | some instruction =>
        match ← execute advanced machine.pc instruction with
        | .error cause => return advanced.stopOn cause notices
        | .ok step => return ⟨.ok step.flow, step.machine, notices ++ step.notices⟩

def runFrom (last : Flow) (notices : Array Notice) : Nat → Machine → Checked (Outcome Flow)
  | 0, machine => return ⟨.ok last, machine, notices⟩
  | count + 1, machine => do
    let outcome ← cycle machine
    let notices := notices ++ outcome.notices
    match outcome.result with
    | .error cause => return ⟨.error cause, outcome.machine, notices⟩
    | .ok flow =>
      if flow.isBlocked then return ⟨.ok flow, outcome.machine, notices⟩
      else runFrom flow notices count outcome.machine

/-! ### Operations -/

def loadFont (machine : Machine) : Checked Machine := do
  let memory ← writeMemory machine.memory 0 80 Font.bytes
  return { machine with memory := memory }

def load (machine : Machine) (program : List UInt8) : Checked (Outcome Unit) := do
  if program.length ≤ maximumProgramSize then
    let fresh ← loadFont (Machine.blank machine.settings machine.random)
    let stop ← fit addressBound (programStart + program.length)
    let memory ← writeMemory fresh.memory programStart stop program
    return ⟨.ok (), { fresh with memory := memory }, #[.loaded program.length]⟩
  else return ⟨.error (.largeProgram program.length), machine, #[]⟩

/-- Press or release a key. The key is recorded by moving a bit by its number, and a waiting
register is found by its number. -/
def setKey (machine : Machine) (key : Key) (pressed : Bool) :
    Checked (Machine × Array Notice) := do
  let place ← position 16 key
  let updated := { machine with keypad := machine.keypad.update place pressed }
  match pressed, machine.awaiting with
  | true, some waiting =>
    let register ← position 16 waiting
    let woken :=
      { updated with
        awaiting := none
        registers := machine.registers.write register key.toByte }
    return (woken, #[.keyReceived key register])
  | _, _ => return (updated, #[])

def applyKeyEvent (machine : Machine) (event : KeyEvent) : Checked (Outcome Unit) := do
  match Key.ofByte? event.index with
  | some key =>
    let (updated, notices) ← setKey machine key event.isPress
    return ⟨.ok (), updated, notices⟩
  | none => return ⟨.error (.invalidKey event.index), machine, #[]⟩

/-- Perform an operation. Counting the timers down stops at zero and cannot break down. -/
def perform (machine : Machine) : Machine.Command → Checked (Outcome Machine.Reply)
  | .load program => return Machine.replying (← load machine program) fun _ => .done
  | .loadFont => return ⟨.ok .done, ← loadFont machine, #[]⟩
  | .cycle => return Machine.replying (← cycle machine) .flow
  | .run count => return Machine.replying (← runFrom .next #[] count machine) .flow
  | .tick => .ok (machine.perform .tick)
  | .keyEvent event => return Machine.replying (← applyKeyEvent machine event) fun _ => .done
  | .setKey key pressed => do
    let (updated, notices) ← setKey machine key pressed
    return ⟨.ok .done, updated, notices⟩

end Checked

end ChipEight
