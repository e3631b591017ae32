/-
This file proves that the buzzer follows the sound timer.

A scheduler speaks to the buzzer once in every tick, and once more when it is destroyed. What it
says in a tick depends on the sound timer alone, as the tick finds it, whatever program or load has
set that. The buzzer of the console reports changes only. So it sounds exactly if it was last told
to, its lines take turns, and because the last thing it is told is to stop, it has reported as many
ends of the tone as beginnings.
-/

import ChipEight.Console
import ChipEight.Proofs.Driving
import ChipEight.Proofs.TimerLoop
import Mathlib.Data.List.Chain
import Mathlib.Data.List.Count

namespace ChipEight

/-! ### What the buzzer reports -/

/-- The switch of the buzzer that a notice reports, if it reports one. -/
def Notice.switch? : Notice → Option Bool
  | buzzer on => some on
  | _ => none

def Activity.switch? : Activity → Option Bool
  | notice reported => reported.switch?
  | _ => none

/-- The switches of the buzzer that notices report, in order. -/
def switchesIn (notices : List Notice) : List Bool := notices.filterMap Notice.switch?

/-- The switches of the buzzer that what a scheduler does reports. There are none, since only the
console has a buzzer to switch. -/
def switchesOf (activity : Array Activity) : List Bool :=
  activity.toList.filterMap Activity.switch?

theorem switchesOf_append (first second : Array Activity) :
    switchesOf (first ++ second) = switchesOf first ++ switchesOf second := by
  simp [switchesOf]

theorem switchesOf_reporting (notices : Array Notice) :
    switchesOf (Scheduler.reporting notices) = switchesIn notices.toList := by
  rw [switchesOf, Scheduler.reporting, Array.toList_map, List.filterMap_map]
  rfl

namespace Machine

theorem switchesIn_cycle (machine : Machine) : switchesIn machine.cycle.notices.toList = [] := by
  cases machine.cycled with
  | stopped _ same | waiting _ _ same | unfetched _ _ _ same | refused _ _ _ _ same =>
    rw [same]
    rfl
  | @executed instruction _ _ _ _ _ succeeded same =>
    rw [same, notices_of_execute succeeded]
    cases instruction <;> rfl

theorem switchesIn_applyKeyEvent (machine : Machine) (event : KeyEvent) :
    switchesIn (machine.applyKeyEvent event).notices.toList = [] := by
  unfold applyKeyEvent setKey
  split
  · dsimp only
    split <;> rfl
  · rfl

theorem switchesOf_shown (machine : Machine) (count : Nat) :
    switchesOf (machine.shown count) = [] := by
  refine filterMap_shown_eq_nil (fun _ => rfl) (fun _ => rfl) (fun machine => ?_) machine count
  exact (switchesOf_reporting _).trans machine.switchesIn_cycle

theorem switchesOf_exhibits (machine : Machine) (commands : List Command) :
    switchesOf (machine.exhibits commands) = [] := by
  induction commands generalizing machine with
  | nil => rfl
  | cons command rest previous =>
    have here : switchesOf (machine.exhibit command) = [] := by
      cases command with
      | run count => exact machine.switchesOf_shown count
      | tick => cases buzzing : machine.isBuzzing <;> simp [exhibit, buzzing] <;> rfl
      | keyEvent event =>
        have keyed := machine.switchesIn_applyKeyEvent event
        simp only [exhibit, switchesOf_reporting, Array.toList_append, switchesIn] at keyed ⊢
        rw [List.filterMap_append, keyed]
        split <;> rfl
      | _ => rfl
    rw [exhibits, switchesOf_append, here, previous]
    rfl

/-! ### What the ticks of a history find -/

theorem beforeTicks_append (machine : Machine) (first second : List Command) :
    machine.beforeTicks (first ++ second) =
      machine.beforeTicks first ++ (machine.after first).beforeTicks second := by
  induction first generalizing machine with
  | nil => rfl
  | cons command rest previous =>
    rw [List.cons_append, beforeTicks, previous, ← List.append_assoc]
    rfl

/-- What the buzzer is told in the ticks of a history: `true` to start the tone, which is if the
sound timer runs. -/
def told (machine : Machine) (commands : List Command) : List Bool :=
  (machine.beforeTicks commands).map fun before => decide (before.sound ≠ 0)

end Machine

namespace Scheduler

/-! ### What a scheduler tells the buzzer -/

/-- A piece of work tells the buzzer what the ticks among operations on the machine say, reports no
switch of it, and leads where the operations lead. -/
structure Sounds (scheduler : Scheduler) (turn : Turn) (commands : List Machine.Command) :
    Prop where
  machine : turn.scheduler.machine = scheduler.machine.after commands
  tones : tonesOf turn.activity = scheduler.machine.told commands
  switches : switchesOf turn.activity = []

theorem composes_sounds : ComposesButError Sounds where
  idle _ := ⟨rfl, rfl, rfl⟩
  andThen here later := by
    refine ⟨?_, ?_, ?_⟩
    · rw [Machine.after_append, ← here.machine]
      exact later.machine
    · rw [Machine.told, Machine.beforeTicks_append, List.map_append, ← here.machine]
      exact (tonesOf_append _ _).trans (congrArg₂ _ here.tones later.tones)
    · exact (switchesOf_append _ _).trans (congrArg₂ _ here.switches later.switches)
  sameButError holds same :=
    ⟨same.machine.trans holds.machine, by rw [same.activity]; exact holds.tones,
      by rw [same.activity]; exact holds.switches⟩

/-- Stopping the loops says nothing to the buzzer. -/
theorem sounds_stop (scheduler : Scheduler) : Sounds scheduler scheduler.stop [] := by
  refine ⟨rfl, ?_, ?_⟩
  · show tonesOf (if scheduler.isRunning then _ else _) = []
    split <;> rfl
  · show switchesOf (if scheduler.isRunning then _ else _) = []
    split <;> rfl

theorem sounds_perform : HoldsSingly Sounds Operation.machineCommands := by
  intro scheduler command coherent single
  have machine := (perform_comesDownTo coherent single).machine
  cases command with
  | poll now =>
    have stops : tonesOf scheduler.stopActivity = [] ∧ switchesOf scheduler.stopActivity = [] := by
      unfold stopActivity
      split <;> exact ⟨rfl, rfl⟩
    refine ⟨machine, ?_, ?_⟩
    · show tonesOf (scheduler.poll now).activity = _
      rw [poll_eq coherent, tonesOf_append, tonesOf_append, stops.1, Machine.tonesOf_exhibits,
        Machine.tonesOf_exhibits, Operation.machineCommands, Machine.told,
        Machine.beforeTicks_append, List.map_append]
      rfl
    · show switchesOf (scheduler.poll now).activity = _
      rw [poll_eq coherent, switchesOf_append, switchesOf_append, stops.2,
        Machine.switchesOf_exhibits, Machine.switchesOf_exhibits]
      rfl
  | load program =>
    refine ⟨machine, tonesOf_reporting _, (switchesOf_reporting _).trans ?_⟩
    unfold Machine.load
    split <;> rfl
  | keyEvent event =>
    refine ⟨machine, tonesOf_reporting _, (switchesOf_reporting _).trans ?_⟩
    exact scheduler.machine.switchesIn_applyKeyEvent event
  | stop => exact scheduler.sounds_stop
  | activate | feed | stopWhenEmpty | requestStop => exact ⟨machine, rfl, rfl⟩
  | run deadline now readings => exact absurd rfl (single deadline now readings)

/-- The end of a scheduler tells the buzzer to be silent. -/
theorem tonesOf_destroy (scheduler : Scheduler) : tonesOf scheduler.destroy.activity = [false] := by
  show tonesOf (scheduler.stop.activity ++ #[.stopTone]) = [false]
  rw [tonesOf_append, scheduler.sounds_stop.tones]
  rfl

theorem switchesOf_destroy (scheduler : Scheduler) :
    switchesOf scheduler.destroy.activity = [] := by
  show switchesOf (scheduler.stop.activity ++ #[.stopTone]) = []
  rw [switchesOf_append, scheduler.sounds_stop.switches]
  rfl

/-- Only polls, by themselves or in a run, tell the buzzer anything. -/
theorem tonesOf_perform {scheduler : Scheduler} (coherent : scheduler.Coherent)
    (command : Command) :
    tonesOf (scheduler.perform command).turn.activity = [] ∨
      (∃ now, command = .poll now) ∨
        ∃ deadline now readings, command = .run deadline now readings := by
  have sounds (single : ∀ deadline now readings, command ≠ .run deadline now readings) :=
    (sounds_perform scheduler command coherent single).tones
  cases command with
  | poll now => exact .inr (.inl ⟨now, rfl⟩)
  | run deadline now readings => exact .inr (.inr ⟨deadline, now, readings, rfl⟩)
  | _ => exact .inl (sounds nofun)

end Scheduler

namespace Console

/-! ### What the console makes of it -/

section

variable (console : Console) (activities : List Activity)

/-- The buzzer of the console sounds if it was last told to. -/
theorem buzzing_observeAll :
    (console.observeAll activities).1.buzzing =
      (activities.filterMap Activity.tone?).getLastD console.buzzing := by
  induction activities generalizing console with
  | nil => rfl
  | cons activity rest previous =>
    have switched (on : Bool) : (console.switchBuzzer on).1.buzzing = on := by
      unfold switchBuzzer
      split
      case isTrue same => exact same
      case isFalse => rfl
    show ((console.observe activity).1.observeAll rest).1.buzzing = _
    rw [previous]
    cases activity with
    | notice | flush => rfl
    | startTone | stopTone =>
      simp only [observe, switched]
      exact (List.getLastD_cons ..).symm

/-- The switches that a console reports: each differs from the state before it, and the last one is
the state that the buzzer is left in. -/
structure Reports (before : Bool) (switches : List Bool) (after : Bool) : Prop where
  changes : (before :: switches).IsChain (· ≠ ·)
  last : after = switches.getLastD before

theorem Reports.switchBuzzer {on after : Bool} {later : List Bool}
    (reports : Reports (console.switchBuzzer on).1.buzzing later after) :
    Reports console.buzzing (switchesIn (console.switchBuzzer on).2 ++ later) after := by
  unfold Console.switchBuzzer at reports ⊢
  by_cases same : console.buzzing = on
  · rw [if_pos same] at reports ⊢
    exact reports
  · rw [if_neg same] at reports ⊢
    exact ⟨List.isChain_cons_cons.mpr ⟨same, reports.changes⟩,
      reports.last.trans (List.getLastD_cons ..).symm⟩

theorem reports_observeAll (silent : activities.filterMap Activity.switch? = []) :
    Reports console.buzzing (switchesIn (console.observeAll activities).2)
      (console.observeAll activities).1.buzzing := by
  induction activities generalizing console with
  | nil => exact ⟨List.isChain_singleton _, rfl⟩
  | cons activity rest previous =>
    have quiet : activity.switch? = none ∧ rest.filterMap Activity.switch? = [] := by
      cases reported : activity.switch? with
      | none => rw [List.filterMap_cons_none reported] at silent; exact ⟨rfl, silent⟩
      | some on => rw [List.filterMap_cons_some reported] at silent; contradiction
    have later := previous (console.observe activity).1 quiet.2
    show Reports console.buzzing
      (switchesIn ((console.observe activity).2 ++
        ((console.observe activity).1.observeAll rest).2)) _
    rw [switchesIn, List.filterMap_append]
    cases activity with
    | notice reported =>
      have none : [reported].filterMap Notice.switch? = [] := List.filterMap_cons_none quiet.1
      simp only [observe, none]
      exact later
    | flush => exact later
    | startTone | stopTone => exact later.switchBuzzer

end

section

variable {before : Bool} {switches : List Bool}

/-- Switches that each change the state are on and off in turn. -/
theorem eq_alternating (changes : (before :: switches).IsChain (· ≠ ·)) :
    switches = (List.range switches.length).map fun position =>
      decide (position % 2 = 0) ^^ before := by
  induction switches generalizing before with
  | nil => rfl
  | cons on rest previous =>
    obtain ⟨change, later⟩ := List.isChain_cons_cons.mp changes
    obtain rfl : on = !before := Bool.eq_not.mpr change.symm
    have parity (position : Nat) :
        decide ((position + 1) % 2 = 0) = !decide (position % 2 = 0) := by
      rw [← decide_not]
      exact decide_eq_decide.mpr (by omega)
    rw [List.length_cons, List.range_succ_eq_map, List.map_cons, List.map_map]
    refine congrArg₂ _ (Bool.true_xor before).symm ((previous later).trans ?_)
    refine List.map_congr_left fun position _ => ?_
    simp [parity]

/-- The numbers of switches on and off differ as the states before and after them do. -/
theorem count_of_changes (changes : (before :: switches).IsChain (· ≠ ·)) :
    switches.count true + before.toNat =
      switches.count false + (switches.getLastD before).toNat := by
  induction switches generalizing before with
  | nil => rfl
  | cons on rest previous =>
    obtain ⟨change, later⟩ := List.isChain_cons_cons.mp changes
    obtain rfl : on = !before := Bool.eq_not.mpr change.symm
    have counted := previous later
    rw [List.getLastD_cons, List.count_cons, List.count_cons]
    cases before <;> simp at counted ⊢ <;> omega

end

/-- The lines among notices in which a buzzer reports that it switched. -/
def buzzerLines (notices : List Notice) : List String :=
  (notices.filter fun notice => notice.switch?.isSome).map Notice.text

theorem buzzerLines_eq (notices : List Notice) :
    buzzerLines notices =
      (switchesIn notices).map fun on => if on then "buzzer on" else "buzzer off" := by
  induction notices with
  | nil => rfl
  | cons notice rest previous =>
    cases notice with
    | buzzer on => exact congrArg _ previous
    | _ => exact previous

/-- A buzzer that is silent at first says on and off in turn. -/
theorem Reports.buzzerLines_alternate {notices : List Notice} {after : Bool}
    (reports : Reports false (switchesIn notices) after) :
    buzzerLines notices = (List.range (buzzerLines notices).length).map fun position =>
      if position % 2 = 0 then "buzzer on" else "buzzer off" := by
  have alternating := eq_alternating reports.changes
  rw [buzzerLines_eq, List.length_map]
  conv_lhs => rw [alternating, List.map_map]
  refine List.map_congr_left fun position _ => ?_
  simp

/-- A buzzer that is silent at first and in the end has said on as often as off. -/
theorem Reports.count_buzzerLines {notices : List Notice}
    (reports : Reports false (switchesIn notices) false) :
    (buzzerLines notices).count "buzzer on" = (buzzerLines notices).count "buzzer off" := by
  have counted (on : Bool) :
      (buzzerLines notices).count (if on then "buzzer on" else "buzzer off") =
        (switchesIn notices).count on := by
    have different : Function.Injective
        fun on : Bool => if on then "buzzer on" else "buzzer off" := by
      intro on on' same
      cases on <;> cases on' <;> simp_all
    rw [buzzerLines_eq]
    exact List.count_map_of_injective _ _ different on
  have balanced := count_of_changes reports.changes
  rw [← reports.last] at balanced
  exact (counted true).trans (balanced.trans (counted false).symm)

end Console

namespace Scheduler

/-- From the creation of a scheduler to its end, the buzzer is told something in every tick and
nothing else: to sound if the tick finds the sound timer running, and to be silent if not. At the
end it is told to be silent once more. At each moment, the buzzer of the console sounds if that is
what it was told last, and its lines so far say on and off in turn. In the end it is silent, and
has said on as often as off. -/
theorem buzzer_follows_sound_timer (machine : Machine) (created : Nat) (history : List Command) :
    let start := create machine created
    let last := start.after history
    let whole := (last.andThen destroy).activity
    let commands := start.machineCommands history
    last.scheduler.machine = machine.after commands ∧
    tonesOf whole =
      (machine.beforeTicks commands).map (fun before => decide (before.sound ≠ 0)) ++ [false] ∧
    (∀ command, tonesOf (last.scheduler.perform command).turn.activity = [] ∨
      (∃ now, command = .poll now) ∨
        ∃ deadline now readings, command = .run deadline now readings) ∧
    (∀ moment,
      let soFar := whole.toList.take moment
      let console := (({} : Console).observeAll soFar).1
      let lines := Console.buzzerLines (({} : Console).observeAll soFar).2
      (console.buzzing = true ↔ (soFar.filterMap Activity.tone?).getLast? = some true) ∧
      lines = (List.range lines.length).map fun position =>
        if position % 2 = 0 then "buzzer on" else "buzzer off") ∧
    let console := (({} : Console).observeAll whole.toList).1
    let lines := Console.buzzerLines (({} : Console).observeAll whole.toList).2
    console.buzzing = false ∧ lines.count "buzzer on" = lines.count "buzzer off" := by
  intro start last whole commands
  have coherent : start.Coherent := coherent_create machine created
  have sounds : start.Sounds last commands :=
    composes_sounds.after sounds_perform coherent history
  have told : tonesOf whole = start.machine.told commands ++ [false] := by
    rw [← sounds.tones, ← last.scheduler.tonesOf_destroy]
    exact tonesOf_append _ _
  have silent : switchesOf whole = [] := by
    show switchesOf (last.activity ++ last.scheduler.destroy.activity) = []
    rw [switchesOf_append, sounds.switches, switchesOf_destroy]
    rfl
  refine ⟨sounds.machine, told, tonesOf_perform (coherent.after history), fun moment => ?_, ?_⟩
  · intro soFar console lines
    have quiet : soFar.filterMap Activity.switch? = [] :=
      List.sublist_nil.mp (silent ▸ (List.take_sublist moment _).filterMap _)
    refine ⟨?_, (Console.reports_observeAll {} soFar quiet).buzzerLines_alternate⟩
    rw [Console.buzzing_observeAll, List.getLastD_eq_getLast?]
    cases (soFar.filterMap Activity.tone?).getLast? <;> simp
  · intro console lines
    have off : console.buzzing = false := by
      rw [Console.buzzing_observeAll]
      show (tonesOf whole).getLastD false = false
      rw [told, getLastD_append]
      rfl
    have reports := Console.reports_observeAll {} whole.toList silent
    rw [show (Console.observeAll {} whole.toList).1.buzzing = false from off] at reports
    exact ⟨off, reports.count_buzzerLines⟩

end Scheduler

end ChipEight
