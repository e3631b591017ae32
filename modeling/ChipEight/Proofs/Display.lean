/-
This file proves that the screen which a scheduler shows is never stale.

A scheduler shows the screen of its machine after every cycle that ended by drawing, and at no
other time. The two instructions that end so are the only ones that write the screen, so each of
them is shown once and in its turn, and between two of them the screen stays as it was shown. A
load clears the screen and shows nothing, which is why everything is counted from the last load
that succeeded. On a display that only sets single pixels, showing a screen sets every pixel
once, row after row.
-/

import ChipEight.Proofs.Driving
import ChipEight.Proofs.Frame

namespace ChipEight

/-! ### Displays that set single pixels -/

/-- The pixel in a column and row of the screen. -/
def Pixel.ofPosition (column : Fin Screen.width) (row : Fin Screen.height) : Pixel :=
  ⟨column + Screen.width * row, by
    have inColumns : column.val < 64 := column.isLt
    have inRows : row.val < 32 := row.isLt
    show column.val + 64 * row.val < 2048
    omega⟩

theorem Pixel.ofPosition_eq_iff {column : Fin Screen.width} {row : Fin Screen.height}
    {pixel : Pixel} :
    pixel = ofPosition column row ↔ pixel.column = column ∧ pixel.row = row := by
  have inColumns : column.val < 64 := column.isLt
  show _ ↔ pixel.val % 64 = column.val ∧ pixel.val / 64 = row.val
  rw [Fin.ext_iff]
  show pixel.val = column.val + 64 * row.val ↔ _
  omega

/-- A display that keeps what each of its pixels, by column and row, was set to last. -/
abbrev PixelGrid := Nat → Nat → Bool

namespace PixelGrid

def set (grid : PixelGrid) (write : Nat × Nat × Bool) : PixelGrid :=
  fun column row => if column = write.1 ∧ row = write.2.1 then write.2.2 else grid column row

/-- The display once a screen is shown on it, pixel by pixel. -/
def flush (grid : PixelGrid) (screen : Framebuffer) : PixelGrid :=
  screen.pixelWrites.foldl set grid

end PixelGrid

namespace Framebuffer

variable (screen : Framebuffer)

theorem length_pixelWrites : screen.pixelWrites.length = 2048 := by
  rw [pixelWrites, List.length_map, pixels, List.length_finRange]
  rfl

theorem getElem?_pixelWrites (pixel : Pixel) :
    screen.pixelWrites[pixel.val]? = some (pixel.column, pixel.row, screen.isLit pixel) := by
  have inside : pixel.val < (List.finRange Screen.size).length :=
    Nat.lt_of_lt_of_eq pixel.isLt List.length_finRange.symm
  have here : (List.finRange Screen.size)[pixel.val]? = some pixel := by
    rw [List.getElem?_eq_getElem inside, List.getElem_finRange]
    exact congrArg some (Fin.ext rfl)
  rw [pixelWrites, pixels, List.getElem?_map, here, Option.map_some]

/-- The write of a pixel stands where the pixel stands when they are counted row after row, and
nowhere else. -/
theorem exists_getElem?_pixelWrites_iff (column : Fin Screen.width) (row : Fin Screen.height)
    (position : Nat) :
    (∃ lit, screen.pixelWrites[position]? = some (column.val, row.val, lit)) ↔
      position = column + 64 * row := by
  constructor
  · rintro ⟨lit, written⟩
    have inside := (List.getElem?_eq_some_iff.mp written).1
    rw [length_pixelWrites] at inside
    have here := screen.getElem?_pixelWrites ⟨position, inside⟩
    rw [written] at here
    obtain ⟨columns, rest⟩ := Prod.mk.inj (Option.some.inj here)
    obtain ⟨rows, -⟩ := Prod.mk.inj rest
    exact congrArg Fin.val (Pixel.ofPosition_eq_iff.mpr ⟨columns.symm, rows.symm⟩)
  · rintro rfl
    obtain ⟨columns, rows⟩ := Pixel.ofPosition_eq_iff.mp (Eq.refl (Pixel.ofPosition column row))
    have here := screen.getElem?_pixelWrites (.ofPosition column row)
    rw [columns, rows] at here
    exact ⟨screen.isLit (.ofPosition column row), here⟩

/-- A pixel that is written shows as it is on the screen, and any other as before. All writes to
one pixel agree, so their order does not matter. -/
theorem foldl_set_apply (grid : PixelGrid) (written : List Pixel) (column : Fin Screen.width)
    (row : Fin Screen.height) :
    let pixel := Pixel.ofPosition column row
    let result := (written.map fun pixel => (pixel.column, pixel.row, screen.isLit pixel)).foldl
      PixelGrid.set grid column row
    (pixel ∈ written → result = screen.isLit pixel) ∧
      (pixel ∉ written → result = grid column row) := by
  intro pixel
  induction written generalizing grid with
  | nil => exact ⟨nofun, fun _ => rfl⟩
  | cons first rest previous =>
    intro result
    obtain ⟨among, beside⟩ := previous (grid.set (first.column, first.row, screen.isLit first))
    by_cases later : pixel ∈ rest
    · exact ⟨fun _ => among later, fun absent => absurd (List.mem_cons_of_mem _ later) absent⟩
    · have same : result = _ := beside later
      by_cases here : first = pixel
      · obtain ⟨columns, rows⟩ := Pixel.ofPosition_eq_iff.mp here
        rw [same, PixelGrid.set, if_pos ⟨columns.symm, rows.symm⟩, here]
        exact ⟨fun _ => rfl, fun absent => absurd List.mem_cons_self absent⟩
      · have elsewhere : ¬ (column.val = first.column ∧ row.val = first.row) := fun both =>
          here (Pixel.ofPosition_eq_iff.mpr ⟨both.1.symm, both.2.symm⟩)
        rw [same, PixelGrid.set, if_neg elsewhere]
        refine ⟨fun member => ?_, fun _ => rfl⟩
        rcases List.mem_cons.mp member with equal | member
        · exact absurd equal.symm here
        · exact absurd member later

/-- A display on which a screen was shown pixel by pixel shows that screen. -/
theorem flush_apply (grid : PixelGrid) (column : Fin Screen.width) (row : Fin Screen.height) :
    grid.flush screen column row = screen.isLit (.ofPosition column row) := by
  have written := (screen.foldl_set_apply grid pixels column row).1
  exact written (List.mem_finRange _)

end Framebuffer

/-! ### What is shown and what is drawn -/

def Activity.screen? : Activity → Option Framebuffer
  | flush screen => some screen
  | _ => none

/-- The screens that are shown, in order. -/
def screensOf (activity : Array Activity) : List Framebuffer :=
  activity.toList.filterMap Activity.screen?

theorem screensOf_append (first second : Array Activity) :
    screensOf (first ++ second) = screensOf first ++ screensOf second := by
  simp [screensOf]

theorem screensOf_reporting (notices : Array Notice) :
    screensOf (Scheduler.reporting notices) = [] := by
  rw [screensOf, Scheduler.reporting, Array.toList_map, List.filterMap_map,
    List.filterMap_eq_nil_iff]
  intro notice _
  rfl

/-- Whether an instruction that was executed draws. -/
def Dispatch.draws (dispatch : Dispatch) : Bool := dispatch.before.word.fitsAny ["00E0", "DXYN"]

/-- The screens just after the instructions that draw, in order. -/
def drawn (dispatches : List Dispatch) : List Framebuffer :=
  (dispatches.filter Dispatch.draws).map fun dispatch => dispatch.after.screen

theorem drawn_append (first second : List Dispatch) :
    drawn (first ++ second) = drawn first ++ drawn second := by
  simp [drawn]

namespace Machine

/-! ### Cycles -/

/-- A cycle draws if it ends by drawing, and otherwise the screen stays. -/
theorem drawn_dispatched? (machine : Machine) :
    drawn machine.dispatched?.toList =
        (match machine.cycle.result with
          | .ok flow => if flow.isDirty then [machine.cycle.machine.screen] else []
          | .error _ => []) ∧
      machine.cycle.machine.screen =
        (drawn machine.dispatched?.toList).getLastD machine.screen := by
  cases machine.cycled with
  | stopped halted same => simp [dispatched?, same, halted, drawn, Flow.isDirty]
  | waiting _ waits same => simp [dispatched?, same, waits, drawn, Flow.isDirty]
  | unfetched running awake _ same | refused running awake _ _ same =>
    simp [dispatched?, same, running, awake, drawn, stopOn, advance]
  | @executed instruction step running awake inside decoded succeeded same =>
    have dispatched : machine.dispatched? = some ⟨machine, instruction, step.machine⟩ := by
      rw [dispatched?, if_neg (by rw [running, awake]; exact Bool.false_ne_true), same, decoded]
    have covers := covers_of_execute succeeded
    rw [← Word.footprint_of_decode decoded] at covers
    have dirty : step.flow.isDirty = machine.word.fitsAny ["00E0", "DXYN"] := by
      rw [flow_of_execute succeeded, Instruction.fitsAny_eq_of_decode decoded (by decide)]
      cases instruction with
      | combine operation x y => cases operation <;> rfl
      | _ => rfl
    rw [dispatched, same]
    by_cases draws : machine.word.fitsAny ["00E0", "DXYN"] = true
    · rw [draws] at dirty
      simp [drawn, Dispatch.draws, draws, dirty]
    · have stays : machine.word.fitsAny ["00E0", "DXYN"] = false := Bool.not_eq_true _ ▸ draws
      rw [stays] at dirty
      simp [drawn, Dispatch.draws, stays, dirty, covers.screen stays, advance]

/-- Cycles of an idle machine execute nothing. -/
theorem trail_of_isIdle {machine : Machine} (idle : machine.IsIdle) (count : Nat) :
    machine.trail count = [] := by
  have nothing : machine.dispatched? = none := by
    rw [dispatched?, if_pos (by rwa [Bool.or_eq_true])]
  induction count with
  | zero => rfl
  | succ count previous => rw [trail, nothing, (cycle_of_isIdle idle).1, previous]; rfl

/-- A scheduler that executes cycles up to a number of them shows what they draw. -/
theorem screensOf_shown (machine : Machine) (count : Nat) :
    screensOf (machine.shown count) = drawn (machine.trail count) := by
  induction count generalizing machine with
  | zero => rfl
  | succ count previous =>
    rw [shown, screensOf_append, screensOf_reporting, List.nil_append, trail, drawn_append,
      (machine.drawn_dispatched?).1]
    cases ended : machine.cycle.result with
    | error cause =>
      have idle : machine.cycle.machine.IsIdle := .inl (halted_of_cycle_eq_error ended)
      rw [trail_of_isIdle idle]
      rfl
    | ok flow =>
      have shows : screensOf
          (if flow.isDirty then #[.flush machine.cycle.machine.screen] else #[]) =
          if flow.isDirty then [machine.cycle.machine.screen] else [] := by
        split <;> rfl
      rw [screensOf_append, shows]
      cases blocked : flow.isBlocked with
      | true => rw [trail_of_isIdle (isIdle_of_isBlocked ended blocked)]; rfl
      | false => rw [if_neg Bool.false_ne_true, previous]

theorem screen_cycles (machine : Machine) (count : Nat) :
    (machine.cycles count).screen = (drawn (machine.trail count)).getLastD machine.screen := by
  induction count generalizing machine with
  | zero => rfl
  | succ count previous =>
    rw [cycles, previous, (machine.drawn_dispatched?).2, trail, drawn_append, getLastD_append]

/-! ### Histories of a machine -/

/-- Whatever is no load that succeeds leaves the screen as it was drawn last. -/
theorem screen_perform (machine : Machine) {command : Command}
    (stays : command.reloads = false) :
    (machine.perform command).machine.screen =
      (drawn (machine.performed command)).getLastD machine.screen := by
  cases command with
  | cycle => exact (machine.drawn_dispatched?).2
  | run count =>
    have screen := machine.screen_cycles count
    rw [← machine_runFrom] at screen
    exact screen
  | load program =>
    rw [perform, load_of_not_reloads stays]
    rfl
  | loadFont =>
    rw [perform, loadFont]
    rfl
  | tick =>
    rw [perform, tick]
    rfl
  | keyEvent event =>
    obtain ⟨_, _, _, keyed⟩ := Scheduler.after_keyEvents machine [event]
    have screens := congrArg Machine.screen keyed
    exact screens
  | setKey key pressed =>
    obtain ⟨_, _, _, keyed⟩ := machine.exists_setKey key pressed
    have screens := congrArg Machine.screen keyed
    exact screens

theorem screen_after (machine : Machine) {commands : List Command}
    (stays : ∀ command ∈ commands, command.reloads = false) :
    (machine.after commands).screen =
      (drawn (machine.dispatches commands)).getLastD machine.screen := by
  induction commands generalizing machine with
  | nil => rfl
  | cons command rest previous =>
    have here := machine.screen_perform (stays command List.mem_cons_self)
    rw [after, previous _ fun command member => stays command (List.mem_cons_of_mem _ member),
      here, dispatches, drawn_append, getLastD_append]

theorem dispatches_append (machine : Machine) (first second : List Command) :
    machine.dispatches (first ++ second) =
      machine.dispatches first ++ (machine.after first).dispatches second := by
  induction first generalizing machine with
  | nil => rfl
  | cons command rest previous =>
    rw [List.cons_append, dispatches, previous, ← List.append_assoc]
    rfl

/-- What a scheduler shows of the operations in a poll is what they draw. -/
theorem screensOf_exhibits (machine : Machine) {commands : List Command}
    (polled : ∀ command ∈ commands, command.isPolled = true) :
    screensOf (machine.exhibits commands) = drawn (machine.dispatches commands) := by
  induction commands generalizing machine with
  | nil => rfl
  | cons command rest previous =>
    have here : screensOf (machine.exhibit command) = drawn (machine.performed command) := by
      cases command with
      | run count => exact machine.screensOf_shown count
      | tick => cases buzzing : machine.isBuzzing <;> simp [exhibit, buzzing] <;> rfl
      | keyEvent event => exact screensOf_reporting _
      | _ => exact absurd (polled _ List.mem_cons_self) Bool.false_ne_true
    rw [exhibits, screensOf_append, here,
      previous _ fun command member => polled command (List.mem_cons_of_mem _ member),
      dispatches, drawn_append]

/-- The instructions that a history executes since the last load that succeeds, from those that
are executed before it. -/
def executedSinceLoad (machine : Machine) (earlier : List Dispatch) :
    List Command → List Dispatch
  | [] => earlier
  | command :: rest =>
    (machine.perform command).machine.executedSinceLoad
      (if command.reloads then [] else earlier ++ machine.performed command) rest

theorem executedSinceLoad_append (machine : Machine) (earlier : List Dispatch)
    (first second : List Command) :
    machine.executedSinceLoad earlier (first ++ second) =
      (machine.after first).executedSinceLoad (machine.executedSinceLoad earlier first)
        second := by
  induction first generalizing machine earlier with
  | nil => rfl
  | cons command rest previous => exact previous _ _

theorem executedSinceLoad_of_stays (machine : Machine) (earlier : List Dispatch)
    {commands : List Command} (stays : ∀ command ∈ commands, command.reloads = false) :
    machine.executedSinceLoad earlier commands = earlier ++ machine.dispatches commands := by
  induction commands generalizing machine earlier with
  | nil => exact (List.append_nil earlier).symm
  | cons command rest previous =>
    rw [executedSinceLoad, stays command List.mem_cons_self, if_neg Bool.false_ne_true,
      previous _ _ fun command member => stays command (List.mem_cons_of_mem _ member),
      List.append_assoc]
    rfl

end Machine

namespace Scheduler

/-! ### Histories of a scheduler -/

/-- A piece of work shows what operations on the machine draw, and leads where they lead. -/
structure Shows (scheduler : Scheduler) (turn : Turn) (commands : List Machine.Command) :
    Prop where
  machine : turn.scheduler.machine = scheduler.machine.after commands
  screens : screensOf turn.activity = drawn (scheduler.machine.dispatches commands)

theorem composes_shows : ComposesButError Shows where
  idle _ := ⟨rfl, rfl⟩
  andThen here later := by
    refine ⟨?_, ?_⟩
    · rw [Machine.after_append, ← here.machine]
      exact later.machine
    · rw [Machine.dispatches_append, drawn_append, ← here.machine, ← here.screens,
        ← later.screens]
      exact screensOf_append _ _
  sameButError holds same :=
    ⟨same.machine.trans holds.machine, by rw [same.activity]; exact holds.screens⟩

/-- Every operation but a run shows what its operations on the machine draw. -/
theorem shows_perform : HoldsSingly Shows Operation.machineCommands := by
  intro scheduler command coherent single
  refine ⟨(perform_comesDownTo coherent single).machine, ?_⟩
  cases command with
  | poll now =>
    have stopping : screensOf scheduler.stopActivity = [] := by
      unfold stopActivity
      split <;> rfl
    have shown := scheduler.machine.screensOf_exhibits
      fun _ => @isPolled_of_mem_poll scheduler now _
    rw [Operation.machineCommands, Machine.exhibits_append] at shown
    show screensOf (scheduler.poll now).activity = _
    rw [poll_eq coherent, Array.append_assoc, screensOf_append, stopping]
    exact shown
  | load | keyEvent => exact screensOf_reporting _
  | stop =>
    show screensOf (if scheduler.isRunning then _ else _) = []
    split <;> rfl
  | activate | feed | stopWhenEmpty | requestStop => rfl
  | run deadline now readings => exact absurd rfl (single deadline now readings)

/-- The screens that are shown since the last load that succeeds, once an operation is performed,
from those that are shown before it. -/
def shownNext (scheduler : Scheduler) (earlier : List Framebuffer) (command : Command) :
    List Framebuffer :=
  match command, (scheduler.perform command).result with
  | .load _, .ok _ => []
  | _, _ => earlier ++ screensOf (scheduler.perform command).turn.activity

/-- The same for a history. -/
def shownSinceLoad (scheduler : Scheduler) (earlier : List Framebuffer) :
    List Command → List Framebuffer
  | [] => earlier
  | command :: rest =>
    (scheduler.perform command).turn.scheduler.shownSinceLoad
      (scheduler.shownNext earlier command) rest

/-- What was shown is what was drawn, and the screen of the machine is the last of it. -/
structure UpToDate (machine : Machine) (shown : List Framebuffer) (executed : List Dispatch) :
    Prop where
  shown_eq : shown = drawn executed
  screen_eq : machine.screen = shown.getLastD Framebuffer.blank

namespace UpToDate

variable {scheduler : Scheduler} {shown : List Framebuffer} {executed : List Dispatch}

/-- Without a load that succeeds, an operation shows what is drawn, and the screen stays as it was
shown last. -/
theorem of_stays (current : UpToDate scheduler.machine shown executed)
    (coherent : scheduler.Coherent) (command : Command)
    (stays : ∀ step ∈ scheduler.machineCommands [command], step.reloads = false) :
    UpToDate (scheduler.perform command).turn.scheduler.machine
      (shown ++ screensOf (scheduler.perform command).turn.activity)
      (scheduler.machine.executedSinceLoad executed (scheduler.machineCommands [command])) := by
  have shows := composes_shows.perform shows_perform coherent command
  rw [← machineCommands_singleton] at shows
  refine ⟨?_, ?_⟩
  · rw [shows.screens, current.shown_eq, ← drawn_append,
      ← Machine.executedSinceLoad_of_stays _ _ stays]
  · rw [shows.machine, shows.screens, Machine.screen_after _ stays, getLastD_append,
      current.screen_eq]

/-- A load that succeeds clears the screen, and the count with it. -/
theorem of_reloads {program : List UInt8}
    (reloads : (Machine.Command.load program).reloads = true) :
    UpToDate (scheduler.perform (.load program)).turn.scheduler.machine []
      (scheduler.machine.executedSinceLoad executed
        (scheduler.machineCommands [.load program])) := by
  have started : scheduler.machine.executedSinceLoad executed
      (scheduler.machineCommands [.load program]) = [] := by
    show (if (Machine.Command.load program).reloads then [] else _) = []
    rw [if_pos reloads]
  refine ⟨by rw [started]; rfl, ?_⟩
  simp only [Scheduler.perform, scheduler.load_of_reloads reloads]
  rfl

theorem perform (current : UpToDate scheduler.machine shown executed)
    (coherent : scheduler.Coherent) (command : Command) :
    UpToDate (scheduler.perform command).turn.scheduler.machine
      (scheduler.shownNext shown command)
      (scheduler.machine.executedSinceLoad executed (scheduler.machineCommands [command])) := by
  cases command with
  | load program =>
    cases reloads : (Machine.Command.load program).reloads with
    | true =>
      have cleared : scheduler.shownNext shown (.load program) = [] := by
        simp only [shownNext, Scheduler.perform, scheduler.load_of_reloads reloads]
        rfl
      rw [cleared]
      exact of_reloads reloads
    | false =>
      have kept : scheduler.shownNext shown (.load program) =
          shown ++ screensOf (scheduler.perform (.load program)).turn.activity := by
        simp only [shownNext, Scheduler.perform, scheduler.load_of_not_reloads reloads]
        rfl
      rw [kept]
      refine current.of_stays coherent _ fun step member => ?_
      rw [List.mem_singleton.mp member]
      exact reloads
  | _ => exact current.of_stays coherent _ fun _ => reloads_of_mem_machineCommands rfl

/-- From one load to the next, what is shown is what is drawn. -/
theorem after (current : UpToDate scheduler.machine shown executed)
    (coherent : scheduler.Coherent) (history : List Command) :
    UpToDate (scheduler.after history).scheduler.machine
      (scheduler.shownSinceLoad shown history)
      (scheduler.machine.executedSinceLoad executed (scheduler.machineCommands history)) := by
  induction history generalizing scheduler shown executed with
  | nil => exact current
  | cons command rest previous =>
    have machine := (after_comesDownTo coherent [command]).machine
    rw [after_singleton] at machine
    rw [machineCommands_cons, Machine.executedSinceLoad_append, ← machine]
    exact previous (current.perform coherent command) (coherent.perform command)

end UpToDate

/-- The screen is never stale. Since the last load that succeeded, or since the scheduler was
created, each instruction that draws is shown once, in the order of execution and as it left the
screen, and the screen of the machine is the one shown last, or blank if none was. A display
that only sets single pixels is given all of them, row after row, and then shows the screen. -/
theorem screen_is_shown (settings : Settings) (generator : Generator) (created : Nat)
    (history : List Command) :
    let fresh := Machine.create settings generator
    let start := create fresh created
    let commands := start.machineCommands history
    let shown := start.shownSinceLoad [] history
    (start.after history).ComesDownTo fresh commands ∧
    shown = drawn (fresh.executedSinceLoad [] commands) ∧
    (start.after history).scheduler.machine.screen = shown.getLastD Framebuffer.blank ∧
    ∀ screen : Framebuffer,
      screen.pixelWrites.length = 2048 ∧
      (∀ (column : Fin Screen.width) (row : Fin Screen.height) (position : Nat),
        (∃ lit, screen.pixelWrites[position]? = some (column.val, row.val, lit)) ↔
          position = column + 64 * row) ∧
      ∀ (grid : PixelGrid) (column : Fin Screen.width) (row : Fin Screen.height),
        grid.flush screen column row = screen.isLit (.ofPosition column row) := by
  intro fresh start commands shown
  have coherent : start.Coherent := coherent_create fresh created
  have current : UpToDate fresh [] [] := ⟨rfl, rfl⟩
  obtain ⟨drawing, screen⟩ := current.after coherent history
  refine ⟨after_comesDownTo coherent history, drawing, screen, fun screen => ?_⟩
  exact ⟨screen.length_pixelWrites, screen.exists_getElem?_pixelWrites_iff, screen.flush_apply⟩

end Scheduler

end ChipEight
