/-
This file proves how the program ends: with which status, and what it has printed by then.

Everything that can fail stands in front of the first thing that is printed, so the program fails
exactly if one of its stages does, and then it has printed nothing. Each stage is told by when it
succeeds and with what. A run of zero seconds is over at its first reading of the clock: its loops
are started and stopped again before the first poll, which finds no loop due and no input. So the
machine it shows is the one that was loaded. What is shown of that machine are the parts that
every load puts back, and so the text is one and the same for all programs and settings.
-/

import ChipEight.CommandLine.Program
import ChipEight.Proofs.Driving
import ChipEight.Proofs.Loading
import ChipEight.Proofs.SettingsFile
import ChipEight.Proofs.StopRequest

namespace ChipEight

namespace CommandLine

/-- What a run shows of a machine that has done nothing since its program was loaded. -/
def untouchedText : String :=
  String.join (List.replicate 32 (String.ofList (List.replicate 64 '.') ++ "\n"))
    ++ "\n"
    ++ ("PC: 0200 SP: 00 I: 0000\n"
      ++ "DT: 000 ST: 000\n"
      ++ "V0=00 V1=00 V2=00 V3=00 V4=00 V5=00 V6=00 V7=00\n"
      ++ "V8=00 V9=00 VA=00 VB=00 VC=00 VD=00 VE=00 VF=00\n"
      ++ "stack:\n")
    ++ "\n"

end CommandLine

/-! ### The text of a fresh machine -/

namespace Machine.IsFresh

variable {machine : Machine} {program : List UInt8}

theorem screenText_eq (fresh : machine.IsFresh program) :
    machine.screenText =
      String.join (List.replicate 32 (String.ofList (List.replicate 64 '.') ++ "\n")) := by
  have row (row : Nat) : machine.screen.rowText row = String.ofList (List.replicate 64 '.') := by
    have dark (column : Nat) :
        Framebuffer.pixelChar (machine.screen.isLit (Pixel.wrap column row)) = '.' := by
      rw [fresh.screen]
      rfl
    rw [Framebuffer.rowText]
    simp only [dark, List.map_const', List.length_range, Screen.width]
  rw [Machine.screenText, Framebuffer.text]
  simp only [row, List.map_const', List.length_range, Screen.height]

theorem registerLines_eq (fresh : machine.IsFresh program) :
    String.join ((List.finRange 16).map fun register =>
        machine.registerText register ++ registerSeparator register) =
      "V0=00 V1=00 V2=00 V3=00 V4=00 V5=00 V6=00 V7=00\n"
        ++ "V8=00 V9=00 VA=00 VB=00 VC=00 VD=00 VE=00 VF=00\n" := by
  have cleared (register : Register) : machine.registerText register =
      Instruction.registerName register ++ "=" ++ Numeral.hexadecimal 2 0 := by
    rw [registerText, fresh.registers]
    rfl
  simp only [cleared]
  decide +kernel

theorem registersText_eq (fresh : machine.IsFresh program) :
    machine.registersText =
      "PC: 0200 SP: 00 I: 0000\n"
        ++ "DT: 000 ST: 000\n"
        ++ "V0=00 V1=00 V2=00 V3=00 V4=00 V5=00 V6=00 V7=00\n"
        ++ "V8=00 V9=00 VA=00 VB=00 VC=00 VD=00 VE=00 VF=00\n"
        ++ "stack:\n" := by
  have start : Numeral.hexadecimal 4 0x200 = "0200" := by decide +kernel
  have depth : Numeral.hexadecimal 2 0 = "00" := by decide +kernel
  have index : Numeral.hexadecimal 4 0 = "0000" := by decide +kernel
  have timer : Numeral.decimal 3 0 = "000" := by decide +kernel
  have unwound : machine.stackText = "stack:" := by
    rw [stackText, CallStack.live, fresh.depth]
    rfl
  unfold Machine.registersText
  -- The numbers are replaced by their texts, so that only texts are left to be joined.
  simp only [fresh.registerLines_eq, unwound, fresh.pc, fresh.depth, fresh.index, fresh.delay,
    fresh.sound, UInt16.toNat_zero, UInt8.toNat_zero, start, depth, index, timer]
  rfl

theorem report_eq (fresh : machine.IsFresh program) :
    CommandLine.report machine = CommandLine.untouchedText := by
  rw [CommandLine.report, fresh.screenText_eq, fresh.registersText_eq]
  rfl

end Machine.IsFresh

namespace CommandLine

variable {surroundings : Surroundings} {now : Nat} {file : String} {config : Option String}

/-! ### The stages of a run -/

/-- Bytes are a text if they are its encoding. -/
theorem fromUTF8?_eq_some_iff {bytes : ByteArray} {text : String} :
    String.fromUTF8? bytes = some text ↔ bytes = text.toUTF8 := by
  constructor
  · intro read
    unfold String.fromUTF8? at read
    split at read
    · cases read
      rfl
    · contradiction
  · rintro rfl
    unfold String.fromUTF8?
    rw [String.toUTF8_eq_toByteArray, dif_pos text.isValidUTF8]
    rfl

theorem readText_eq_ok_iff {name text : String} :
    surroundings.readText name = .ok text ↔
      surroundings.files name = some text.toUTF8.data.toList := by
  unfold Surroundings.readText
  cases found : surroundings.files name with
  | none => simp
  | some bytes =>
    have decoded : String.fromUTF8? ⟨bytes.toArray⟩ = some text ↔
        bytes = text.toUTF8.data.toList := by
      rw [fromUTF8?_eq_some_iff]
      constructor
      · intro same
        rw [← same]
      · rintro rfl
        rfl
    simp only [Option.bind_some, Option.some_inj]
    rw [← decoded]
    cases String.fromUTF8? ⟨bytes.toArray⟩ <;> simp

theorem readBytes_eq_ok_iff {name : String} {bytes : List UInt8} :
    surroundings.readBytes name = .ok bytes ↔ surroundings.files name = some bytes := by
  unfold Surroundings.readBytes
  cases surroundings.files name <;> simp

namespace Surroundings

/-- The settings that a run gets: those that the reader takes from the file if one is named, and
else those that hold if nothing is set. -/
def Configures (surroundings : Surroundings) : Option String → Settings → Prop
  | some name, settings =>
    ∃ text, surroundings.files name = some text.toUTF8.data.toList ∧
      Settings.ofText surroundings.reader text = .ok settings
  | none, settings => settings = {}

/-- A run can start if its settings can be read, and its program can be read and fits. -/
def CanStart (surroundings : Surroundings) (file : String) (config : Option String) : Prop :=
  (∃ settings, surroundings.Configures config settings) ∧
    ∃ program, surroundings.files file = some program ∧ program.length ≤ 3584

end Surroundings

theorem readSettings_eq_ok_iff {settings : Settings} :
    surroundings.readSettings config = .ok settings ↔
      surroundings.Configures config settings := by
  cases config with
  | none => exact ⟨fun read => (Except.ok.inj read).symm, fun same => congrArg _ same.symm⟩
  | some name =>
    refine bind_eq_ok_iff.trans ?_
    simp only [Surroundings.Configures, readText_eq_ok_iff]
    refine exists_congr fun text => and_congr_right fun _ => ?_
    cases Settings.ofText surroundings.reader text <;> simp [Except.mapError]

theorem prepare_eq_ok_iff {scheduler : Scheduler} :
    surroundings.prepare now file config = .ok scheduler ↔
      ∃ settings, surroundings.Configures config settings ∧
        ∃ program, surroundings.files file = some program ∧ program.length ≤ 3584 ∧
          Scheduler.create ((Machine.create settings surroundings.generator).loaded program) now =
            scheduler := by
  have stages : surroundings.prepare now file config =
      surroundings.readSettings config >>= fun settings =>
        surroundings.readBytes file >>= fun program =>
          let idle := Scheduler.create (Machine.create settings surroundings.generator) now
          (idle.load program).1 >>= fun _ => .ok (idle.load program).2.scheduler := rfl
  rw [stages, bind_eq_ok_iff]
  refine exists_congr fun settings => and_congr readSettings_eq_ok_iff ?_
  rw [bind_eq_ok_iff]
  refine exists_congr fun program => and_congr readBytes_eq_ok_iff ?_
  rw [bind_eq_ok_iff]
  by_cases fits : program.length ≤ 3584
  · rw [Scheduler.load_of_reloads _ (decide_eq_true fits)]
    simp only [exists_const, Except.ok.injEq, fits, true_and]
    rfl
  · rw [Scheduler.load_of_not_reloads _ (decide_eq_false fits)]
    simp [fits]

theorem exists_prepare_eq_ok_iff :
    (∃ scheduler, surroundings.prepare now file config = .ok scheduler) ↔
      surroundings.CanStart file config := by
  simp only [prepare_eq_ok_iff, Surroundings.CanStart]
  constructor
  · rintro ⟨_, settings, configured, program, found, fits, -⟩
    exact ⟨⟨settings, configured⟩, program, found, fits⟩
  · rintro ⟨⟨settings, configured⟩, program, found, fits⟩
    exact ⟨_, settings, configured, program, found, fits, rfl⟩

/-! ### A run that is over at once -/

/-- A new scheduler whose run is over at the first reading of the clock starts its loops and stops
them, and does nothing else. -/
theorem runUntil_create_of_passed (machine : Machine) {first : Nat} (passed : now ≤ first)
    (later : List Nat) :
    let run := (Scheduler.create machine now).runUntil (some now) now (first :: later)
    run.ended = some (.ok ()) ∧ run.turn.scheduler.machine = machine ∧
      run.turn.activity = #[.notice .loopsStarting, .notice .loopsStopping] := by
  have performed := (Scheduler.create machine now).perform_run_of_passed passed now later
  rw [Scheduler.perform] at performed
  generalize (Scheduler.create machine now).runUntil (some now) now (first :: later) = run
    at performed ⊢
  obtain ⟨turn, ended⟩ := run
  have answer := congrArg Scheduler.Performed.result performed
  have work := congrArg Scheduler.Performed.turn performed
  cases ended with
  | none => cases answer
  | some result =>
    cases result with
    | error => cases answer
    | ok => exact ⟨rfl, congrArg (·.scheduler.machine) work, congrArg Turn.activity work⟩

theorem deadline_zero : deadline now 0 = now := by
  simp [deadline]

/-- A run that cannot start fails and prints nothing, however long it should last. -/
theorem runProgram_of_not_canStart (cannot : ¬ surroundings.CanStart file config)
    (readings : List Nat) (seconds : UInt64) :
    surroundings.runProgram now readings file seconds config = some Exit.failed := by
  unfold Surroundings.runProgram
  cases prepared : surroundings.prepare now file config with
  | error => rfl
  | ok scheduler => exact absurd (exists_prepare_eq_ok_iff.mp ⟨scheduler, prepared⟩) cannot

section Zero

variable {settings : Settings} {program : List UInt8}
  (configured : surroundings.Configures config settings)
  (found : surroundings.files file = some program) (fits : program.length ≤ 3584)

include configured found fits

/-- A run of no time leaves the machine as it was loaded and executes nothing. -/
theorem exists_prepare_and_runUntil {first : Nat} (passed : now ≤ first) (later : List Nat) :
    let machine := (Machine.create settings surroundings.generator).loaded program
    ∃ scheduler, surroundings.prepare now file config = .ok scheduler ∧
      scheduler.machine = machine ∧
      let run := scheduler.runUntil (some (deadline now 0)) now (first :: later)
      run.ended = some (.ok ()) ∧ run.turn.scheduler.machine = machine ∧
        attemptsOf run.turn.activity = [] := by
  intro machine
  obtain ⟨ended, untouched, activity⟩ := runUntil_create_of_passed machine passed later
  rw [deadline_zero]
  exact ⟨Scheduler.create machine now,
    prepare_eq_ok_iff.mpr ⟨settings, configured, program, found, fits, rfl⟩, rfl, ended, untouched,
    by rw [activity]; rfl⟩

theorem runProgram_zero {first : Nat} (passed : now ≤ first) (later : List Nat) :
    surroundings.runProgram now (first :: later) file 0 config = some ⟨0, untouchedText⟩ := by
  obtain ⟨scheduler, prepared, -, ended, untouched, -⟩ :=
    exists_prepare_and_runUntil configured found fits passed later
  have shown : report ((Machine.create settings surroundings.generator).loaded program) =
      untouchedText := (Machine.isFresh_loaded _ fits).report_eq
  simp only [Surroundings.runProgram, prepared, ended, Option.map_some, conclude]
  rw [← shown, ← untouched]
  rfl

end Zero

/-! ### The end of the program -/

/-- The program ends with the status and the output that its arguments and files call for.
Arguments that make no request are answered with the help. A listing succeeds if the file can be
read, whatever its size, and looks at no other file. A run of zero seconds, however they are
written, succeeds if it can start: if the file with the settings, when one is named, holds a text
that says settings, and the program can be read and fits. Such a run executes nothing and shows
the machine that was loaded, which is the same text for all programs and all settings. Whatever
fails prints nothing. -/
theorem exits_are_exact (surroundings : Surroundings) (now : Nat) (readings : List Nat)
    (arguments : List String) :
    let exit := surroundings.perform now readings arguments
    (parse arguments = none → exit = some ⟨64, help⟩) ∧
    (∀ file, parse arguments = some (.list file) →
      (∀ bytes, surroundings.files file = some bytes →
        exit = some ⟨0, Listing.text bytes⟩) ∧
      (surroundings.files file = none → exit = some ⟨1, ""⟩) ∧
      ∀ others : Surroundings, others.files file = surroundings.files file →
        others.perform now readings arguments = exit) ∧
    ∀ file config first, parse arguments = some (.run file 0 config) →
      readings.head? = some first → now ≤ first →
        (exit.map Exit.status = some 0 ↔ surroundings.CanStart file config) ∧
        (¬ surroundings.CanStart file config → exit = some ⟨1, ""⟩) ∧
        ∀ settings program, surroundings.Configures config settings →
          surroundings.files file = some program → program.length ≤ 3584 →
            let machine := ((Machine.create settings surroundings.generator).load program).machine
            exit = some ⟨0, untouchedText⟩ ∧
            untouchedText = machine.screenText ++ "\n" ++ machine.registersText ++ "\n" ∧
            ∃ scheduler, surroundings.prepare now file config = .ok scheduler ∧
              scheduler.machine = machine ∧
              let run := scheduler.runUntil (some (deadline now 0)) now readings
              run.ended = some (.ok ()) ∧ run.turn.scheduler.machine = machine ∧
                attemptsOf run.turn.activity = [] := by
  refine ⟨fun misused => ?_, fun file parsed => ?_, fun file config first parsed read passed => ?_⟩
  · rw [Surroundings.perform, misused]
    rfl
  · have listed (surroundings : Surroundings) :
        surroundings.perform now readings arguments = some (surroundings.listProgram file) := by
      rw [Surroundings.perform, parsed]
    refine ⟨fun bytes found => ?_, fun missing => ?_, fun others same => ?_⟩
    · rw [listed, Surroundings.listProgram, Surroundings.readBytes, found]
      rfl
    · rw [listed, Surroundings.listProgram, Surroundings.readBytes, missing]
      rfl
    · rw [listed, listed, Surroundings.listProgram, Surroundings.listProgram,
        Surroundings.readBytes, Surroundings.readBytes, same]
  · obtain ⟨later, rfl⟩ : ∃ later, readings = first :: later := List.head?_eq_some_iff.mp read
    have ran : surroundings.perform now (first :: later) arguments =
        surroundings.runProgram now (first :: later) file 0 config := by
      rw [Surroundings.perform, parsed]
    rw [ran]
    have fails (cannot : ¬ surroundings.CanStart file config) :
        surroundings.runProgram now (first :: later) file 0 config = some ⟨1, ""⟩ :=
      runProgram_of_not_canStart cannot _ 0
    have succeeds : surroundings.CanStart file config →
        surroundings.runProgram now (first :: later) file 0 config = some ⟨0, untouchedText⟩ := by
      rintro ⟨⟨settings, configured⟩, program, found, fits⟩
      exact runProgram_zero configured found fits passed later
    refine ⟨?_, fails, fun settings program configured found fits => ?_⟩
    · by_cases can : surroundings.CanStart file config
      · simp [succeeds can, can]
      · simp [fails can, can]
    · have loaded : ((Machine.create settings surroundings.generator).load program).machine =
          (Machine.create settings surroundings.generator).loaded program :=
        congrArg Outcome.machine (Machine.load_of_reloads (decide_eq_true fits))
      rw [loaded]
      exact ⟨succeeds ⟨⟨settings, configured⟩, program, found, fits⟩,
        (Machine.isFresh_loaded _ fits).report_eq.symm,
        exists_prepare_and_runUntil configured found fits passed later⟩

/-- Files of which one holds a program, one is too large to be one, and one holds settings. -/
def fewFiles : Files
  | "pong.rom" => some [0x12, 0x00]
  | "large.rom" => some (List.replicate 3585 0)
  | "seeded.yaml" => some (Settings.fileText [(.seed, 7)] true).toUTF8.data.toList
  | _ => none

/-- With the reader and the generator that the program comes with: no argument at all, a listing
that is given a file for settings which does not exist, a listing of no file, a run with settings
and no time, and a run of a program that is too large. -/
theorem exits_are_exact_fewFiles :
    let surroundings := shipped fewFiles (Vector.replicate 8 0)
    let exit := surroundings.perform 7 [8]
    exit [] = some ⟨64, help⟩ ∧
    exit ["dis", "pong.rom", "--config", "none.yaml"] =
      some ⟨0, Listing.text [0x12, 0x00]⟩ ∧
    exit ["dis", "none.rom"] = some ⟨1, ""⟩ ∧
    exit ["run", "--config", "seeded.yaml", "pong.rom", "+000"] = some ⟨0, untouchedText⟩ ∧
    exit ["run", "large.rom", "0"] = some ⟨1, ""⟩ := by
  intro surroundings exit
  have ends := exits_are_exact surroundings 7 [8]
  have read : Settings.ofText Yaml.reader (Settings.fileText [(.seed, 7)] true) =
      .ok { seed := some 7 } := by
    refine (Settings.ofText_fileText_eq_ok_iff Yaml.readsLines).mpr
      ⟨⟨by decide, fun line member => ?_⟩, rfl⟩
    rw [List.mem_singleton.mp member]
    exact ⟨by decide, by decide⟩
  have configured : surroundings.Configures (some "seeded.yaml") { seed := some 7 } :=
    ⟨_, rfl, read⟩
  have cannot : ¬ surroundings.CanStart "large.rom" none := by
    rintro ⟨-, program, found, fits⟩
    obtain rfl : List.replicate 3585 0 = program := Option.some.inj found
    rw [List.length_replicate] at fits
    omega
  obtain ⟨misused, -, -⟩ := ends []
  obtain ⟨-, listed, -⟩ := ends ["dis", "pong.rom", "--config", "none.yaml"]
  obtain ⟨-, missed, -⟩ := ends ["dis", "none.rom"]
  obtain ⟨-, -, ran⟩ := ends ["run", "--config", "seeded.yaml", "pong.rom", "+000"]
  obtain ⟨-, -, refused⟩ := ends ["run", "large.rom", "0"]
  obtain ⟨-, -, shown⟩ := ran "pong.rom" (some "seeded.yaml") 8 rfl rfl (by decide)
  exact ⟨misused rfl, (listed "pong.rom" rfl).1 _ rfl, (missed "none.rom" rfl).2.1 rfl,
    (shown _ [0x12, 0x00] configured rfl (by decide)).1,
    (refused "large.rom" none 8 rfl rfl (by decide)).2.1 cannot⟩

end CommandLine

end ChipEight
