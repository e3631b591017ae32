/-
This file proves that the deadline which a poll answers is exact.

The answer is the earliest instant at which a loop that is active after the poll is due. Only
starts, stops and bodies of loops move such an instant or take a loop away, so until it comes
every poll finds the loops as the first one left them, does not run them, and answers the same.
The first poll that is not too early finds the loop due that set the deadline. Sleeping until
the deadline therefore misses nothing.
-/

import ChipEight.Proofs.Polling

namespace ChipEight

namespace Loop

variable {loop : Loop} {instant now : Nat}

theorem isDue_iff : loop.isDue now = true ↔ loop.active = true ∧ loop.next ≤ now := by
  rw [isDue, Bool.and_eq_true, decide_eq_true_iff]

/-- A loop is not due before the instant it is due next. -/
theorem isDue_of_lt (rests : loop.active = true → instant ≤ loop.next) (early : now < instant) :
    loop.isDue now = false := by
  refine Bool.eq_false_iff.mpr fun due => ?_
  obtain ⟨active, reached⟩ := isDue_iff.mp due
  exact Nat.not_le.mpr early (Nat.le_trans (rests active) reached)

/-- A loop that is active after a poll is due at no earlier instant, and only later if it rests
between two bodies at all. -/
theorem next_of_polled {polled : Loop} {goesOn : Bool}
    (same : polled = if loop.isDue now then (loop.setActive goesOn).rest now else loop)
    (active : polled.active = true) :
    now ≤ polled.next ∧ (0 < loop.interval → now < polled.next) := by
  by_cases due : loop.isDue now = true
  · rw [if_pos due] at same
    rw [same]
    exact ⟨Nat.le_add_right now _, fun rests => Nat.lt_add_of_pos_right rests⟩
  · rw [if_neg due] at same
    rw [same] at active ⊢
    have later : now < loop.next :=
      Nat.not_le.mp fun reached => due (isDue_iff.mpr ⟨active, reached⟩)
    exact ⟨Nat.le_of_lt later, fun _ => later⟩

end Loop

namespace Scheduler

/-- Both loops of a scheduler. -/
def loops (scheduler : Scheduler) : List Loop := [scheduler.cpu, scheduler.timers]

/-- The deadline is when an active loop is due next, and none is due earlier. -/
theorem deadline?_eq_some_iff (scheduler : Scheduler) (next : Nat) :
    scheduler.deadline? = some next ↔
      (∃ loop ∈ scheduler.loops, loop.active = true ∧ loop.next = next) ∧
      ∀ loop ∈ scheduler.loops, loop.active = true → next ≤ loop.next := by
  have mem (instant : Nat) : instant ∈ scheduler.nextInstants ↔
      ∃ loop ∈ scheduler.loops, loop.active = true ∧ loop.next = instant := by
    show instant ∈ (scheduler.loops.filter Loop.active).map Loop.next ↔ _
    simp only [List.mem_map, List.mem_filter, and_assoc]
  rw [deadline?_eq_min?, List.min?_eq_some_iff, mem]
  refine and_congr_right fun _ => ⟨fun least loop member active => ?_, fun least instant due => ?_⟩
  · exact least loop.next ((mem _).mpr ⟨loop, member, active, rfl⟩)
  · obtain ⟨loop, member, active, rfl⟩ := (mem instant).mp due
    exact least loop member active

/-- The deadline depends on the loops alone. -/
theorem deadline?_of_loops_eq {first second : Scheduler} (same : first.loops = second.loops) :
    first.deadline? = second.deadline? := by
  obtain ⟨cpu, rest⟩ := List.cons.inj same
  obtain ⟨timers, -⟩ := List.cons.inj rest
  rw [deadline?, cpu, timers]
  rfl

/-- A poll runs a loop exactly if one is due. -/
theorem loopCommands_eq_nil_iff_loops (scheduler : Scheduler) (now : Nat) :
    scheduler.loopCommands now = [] ↔ ∀ loop ∈ scheduler.loops, loop.isDue now = false := by
  rw [loopCommands_eq_nil_iff]
  simp [loops]

/-! ### Waiting -/

/-- Whether an operation leaves the loops alone as long as none is due before an instant: it
neither starts nor stops them, and polls earlier than that only. -/
def Command.waitsFor (next : Nat) : Command → Bool
  | .load _ | .feed _ | .stopWhenEmpty _ | .keyEvent _ => true
  | .poll now => now < next
  | .activate _ | .stop | .requestStop | .run .. => false

section Waiting

variable {scheduler : Scheduler} {next : Nat}

/-- Without a request to stop, a poll brings the loops to their bodies as they are. -/
theorem loops_ready (unasked : scheduler.stopRequested = false) :
    scheduler.ready.loops = scheduler.loops := by
  simp [loops, ready, Loop.setActive, unasked]

/-- Waiting withdraws no request to stop. -/
theorem stopRequested_of_waitsFor (coherent : scheduler.Coherent) {command : Command}
    (waits : command.waitsFor next = true)
    (unasked : (scheduler.perform command).turn.scheduler.stopRequested = false) :
    scheduler.stopRequested = false := by
  cases command with
  | poll now =>
    change (scheduler.poll now).scheduler.stopRequested = false at unasked
    rw [poll_eq coherent] at unasked
    exact (Bool.or_eq_false_iff.mp unasked).1
  | load program =>
    change (scheduler.load program).2.scheduler.stopRequested = false at unasked
    obtain ⟨_, loaded⟩ := scheduler.exists_load program
    rw [loaded] at unasked
    exact unasked
  | feed | stopWhenEmpty | keyEvent => exact unasked
  | _ => contradiction

theorem stopRequested_of_waitsFor_after (coherent : scheduler.Coherent) {commands : List Command}
    (waits : ∀ command ∈ commands, command.waitsFor next = true)
    (unasked : (scheduler.after commands).scheduler.stopRequested = false) :
    scheduler.stopRequested = false := by
  induction commands generalizing scheduler with
  | nil => exact unasked
  | cons command rest previous =>
    have later := previous (coherent.perform command)
      (fun other member => waits other (List.mem_cons_of_mem _ member)) unasked
    exact stopRequested_of_waitsFor coherent (waits command List.mem_cons_self) later

/-- A poll that is too early for the loops takes the input and does nothing else. -/
theorem poll_of_lt (rests : ∀ loop ∈ scheduler.loops, loop.active = true → next ≤ loop.next)
    (unasked : scheduler.stopRequested = false) {now : Nat} (early : now < next) :
    scheduler.ready.loopCommands now = [] ∧
      scheduler.poll now =
        ⟨scheduler.ready, scheduler.machine.exhibits scheduler.inputCommands⟩ := by
  have idle : ∀ loop ∈ scheduler.ready.loops, loop.isDue now = false := by
    rw [loops_ready unasked]
    exact fun loop member => Loop.isDue_of_lt (rests loop member) early
  have free := (loopCommands_eq_nil_iff_loops _ now).mpr idle
  obtain ⟨batch, tick⟩ := (loopCommands_eq_nil_iff _ now).mp free
  refine ⟨free, ?_⟩
  rw [poll_of_not_due batch tick]
  simp [stopActivity, unasked]

/-- Waiting leaves the loops as they are. -/
theorem loops_of_waitsFor
    (rests : ∀ loop ∈ scheduler.loops, loop.active = true → next ≤ loop.next)
    {command : Command} (waits : command.waitsFor next = true)
    (unasked : scheduler.stopRequested = false) :
    (scheduler.perform command).turn.scheduler.loops = scheduler.loops := by
  cases command with
  | poll now =>
    have early : now < next := of_decide_eq_true waits
    show (scheduler.poll now).scheduler.loops = scheduler.loops
    rw [(poll_of_lt rests unasked early).2]
    exact loops_ready unasked
  | load program =>
    show (scheduler.load program).2.scheduler.loops = scheduler.loops
    obtain ⟨_, loaded⟩ := scheduler.exists_load program
    rw [loaded]
    rfl
  | feed | stopWhenEmpty | keyEvent => rfl
  | _ => contradiction

theorem loops_of_waitsFor_after (coherent : scheduler.Coherent)
    (rests : ∀ loop ∈ scheduler.loops, loop.active = true → next ≤ loop.next)
    {commands : List Command} (waits : ∀ command ∈ commands, command.waitsFor next = true)
    (unasked : (scheduler.after commands).scheduler.stopRequested = false) :
    (scheduler.after commands).scheduler.loops = scheduler.loops := by
  induction commands generalizing scheduler with
  | nil => rfl
  | cons command rest previous =>
    have here := stopRequested_of_waitsFor_after coherent waits unasked
    have same := loops_of_waitsFor rests (waits command List.mem_cons_self) here
    have others := fun other member => waits other (List.mem_cons_of_mem command member)
    rw [← same] at rests ⊢
    exact previous (coherent.perform command) rests others unasked

end Waiting

/-- No loop that is active after a poll is due before it. -/
theorem le_next_of_poll {scheduler : Scheduler} (coherent : scheduler.Coherent) (now : Nat)
    {loop : Loop} (member : loop ∈ (scheduler.poll now).scheduler.loops)
    (active : loop.active = true) :
    now ≤ loop.next ∧
      (0 < scheduler.cpu.interval → 0 < scheduler.timers.interval → now < loop.next) := by
  rw [poll_eq coherent] at member
  rcases List.mem_cons.mp member with cpu | rest
  · obtain ⟨reached, passed⟩ := Loop.next_of_polled cpu active
    exact ⟨reached, fun rests _ => passed rests⟩
  · have timers := List.mem_singleton.mp rest
    obtain ⟨reached, passed⟩ :=
      @Loop.next_of_polled scheduler.ready.timers now loop _ timers active
    exact ⟨reached, fun _ rests => passed rests⟩

/-- The deadline that a poll of any scheduler that can be reached answers is exact. There is none
exactly if both loops are inactive after the poll. Otherwise it is not before the poll, and later
if both loops rest between two bodies. As long as the loops are neither started nor stopped, and
nobody asks for a stop, no poll before the deadline runs a loop, and each answers the same
deadline, while the first poll that is not before it runs one. -/
theorem deadline_is_exact (scheduler : Scheduler) (reachable : scheduler.Reachable) (now : Nat) :
    let polled := (scheduler.poll now).scheduler
    ((scheduler.perform (.poll now)).result = .ok (.deadline none) ↔
      polled.cpu.active = false ∧ polled.timers.active = false) ∧
    ∀ next, (scheduler.perform (.poll now)).result = .ok (.deadline (some next)) →
      now ≤ next ∧
      (0 < scheduler.cpu.interval → 0 < scheduler.timers.interval → now < next) ∧
      ∀ commands, (∀ command ∈ commands, command.waitsFor next = true) →
        let later := (polled.after commands).scheduler
        later.stopRequested = false → ∀ instant,
          (instant < next →
            later.ready.loopCommands instant = [] ∧
            later.perform (.poll instant) =
              ⟨.ok (.deadline (some next)),
                ⟨later.ready, later.machine.exhibits later.inputCommands⟩⟩) ∧
          (next ≤ instant →
            later.ready.loopCommands instant ≠ [] ∧
            (later.poll instant).scheduler.machine =
              later.ready.machine.after (later.ready.loopCommands instant)) := by
  intro polled
  have coherent : polled.Coherent := reachable.coherent.poll now
  have answers (answer : Option Nat) :
      (scheduler.perform (.poll now)).result = .ok (.deadline answer) ↔
        polled.deadline? = answer := by
    show Except.ok (Reply.deadline polled.deadline?) = _ ↔ _
    simp
  refine ⟨?_, fun next answered => ?_⟩
  · rw [answers, deadline?_eq_none_iff]
    exact Bool.or_eq_false_iff
  · replace answered := (answers _).mp answered
    obtain ⟨⟨first, member, active, rfl⟩, rests⟩ := (deadline?_eq_some_iff _ _).mp answered
    obtain ⟨reached, passed⟩ := le_next_of_poll reachable.coherent now member active
    refine ⟨reached, passed, fun commands waits => ?_⟩
    intro later unasked instant
    have same : later.loops = polled.loops :=
      loops_of_waitsFor_after coherent rests waits unasked
    rw [← same] at member rests
    refine ⟨fun early => ?_, fun late => ⟨fun free => ?_, ?_⟩⟩
    · obtain ⟨free, poll⟩ := poll_of_lt rests unasked early
      refine ⟨free, ?_⟩
      have again : later.ready.deadline? = some first.next := by
        rw [← answered]
        exact deadline?_of_loops_eq ((loops_ready unasked).trans same)
      rw [perform, poll, again]
    · have idle := (loopCommands_eq_nil_iff_loops _ instant).mp free
      rw [loops_ready unasked] at idle
      have due := Loop.isDue_iff.mpr ⟨active, late⟩
      rw [idle first member] at due
      contradiction
    · rw [poll_eq (coherent.after commands)]

/-- A scheduler whose loops are due at the tenth instant. -/
def waitingUnloaded : Scheduler := ((create Machine.unloaded 0).activate 10).scheduler

/-- A poll before the tenth instant answers it, and so does the next one after a load. -/
theorem deadline_is_exact_waitingUnloaded :
    waitingUnloaded.Reachable ∧
      (waitingUnloaded.perform (.poll 3)).result = .ok (.deadline (some 10)) ∧
      (((waitingUnloaded.poll 3).scheduler.after [.load [0x12, 0x00]]).scheduler.perform
        (.poll 7)).result = .ok (.deadline (some 10)) := by
  have reachable : waitingUnloaded.Reachable :=
    ⟨Machine.unloaded, 0, [.activate 10], ⟨{}, Generator.zeros, [], rfl⟩, rfl⟩
  have answered : (waitingUnloaded.perform (.poll 3)).result = .ok (.deadline (some 10)) := rfl
  have waits : ∀ command ∈ [Command.load [0x12, 0x00]], command.waitsFor 10 = true := by
    intro command member
    rw [List.mem_singleton.mp member]
    rfl
  obtain ⟨-, waiting⟩ := deadline_is_exact waitingUnloaded reachable 3
  obtain ⟨-, -, again⟩ := waiting 10 answered
  refine ⟨reachable, answered, ?_⟩
  rw [((again _ waits rfl 7).1 (by decide)).2]

end Scheduler

end ChipEight
