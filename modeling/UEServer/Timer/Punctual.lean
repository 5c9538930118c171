import UEServer.Timer.Watch

/-!
# Timers that do not run ahead of the wheel

While no loop timer runs ahead of the wheel, every timer that has not been cancelled is plugged
into a slot to come, or queued, or in its callback, or done, and its deadline is its first one and
its period for each call.  A slot that has expired is empty, so `cancel` finds its timer in the slot
or finds the slot empty.
-/

namespace UEServer.Wheel

open Watched

/-- The deadline of a timer after a number of calls. -/
def Watched.due (watched : Watched) (timer calls : Nat) : Int :=
  watched.first timer + calls * (watched.state.timers timer).duration

def State.Absent (state : State) (timer : Nat) : Prop :=
  (∀ run ∈ state.runs, run.timer ≠ timer) ∧ ∀ ts, timer ∉ state.timerHub ts

/-- Where a timer is that has not been cancelled. -/
inductive Placed (watched : Watched) (timer : Nat) : Prop where
  | plugged (mem : timer ∈ watched.state.timerHub (watched.state.timers timer).nextTs)
      (due : (watched.state.timers timer).nextTs = watched.due timer (watched.count timer))
      (last : 0 < watched.count timer →
        watched.due timer (watched.count timer - 1) ≤ watched.state.lastTs)
      (uncalled : (watched.state.timers timer).isLoop = false → watched.count timer = 0)
  | queued (run : Run) (mem : run ∈ watched.state.runs) (timer_eq : run.timer = timer)
      (unstarted : run.started = false)
      (due : (watched.state.timers timer).nextTs = watched.due timer (watched.count timer))
      (reached : (watched.state.timers timer).nextTs ≤ watched.state.lastTs)
      (uncalled : (watched.state.timers timer).isLoop = false →
        watched.count timer = 0 ∧ watched.previous < watched.first timer)
  | running (run : Run) (mem : run ∈ watched.state.runs) (timer_eq : run.timer = timer)
      (started : run.started = true) (called : 0 < watched.count timer)
      (due : (watched.state.timers timer).nextTs = watched.due timer (watched.count timer - 1))
      (reached : (watched.state.timers timer).nextTs ≤ watched.state.lastTs)
      (once : (watched.state.timers timer).isLoop = false → watched.count timer = 1)
  | done (absent : watched.state.Absent timer)
      (once : (watched.state.timers timer).isLoop = false) (called : watched.count timer = 1)
      (reached : (watched.state.timers timer).nextTs ≤ watched.state.lastTs)

structure Untouched (before after : Watched) (timer : Nat) : Prop where
  same : after.state.timers timer = before.state.timers timer
  first : after.first timer = before.first timer
  count : after.count timer = before.count timer
  slots : ∀ ts, timer ∈ after.state.timerHub ts ↔ timer ∈ before.state.timerHub ts
  runs : ∀ run, run.timer = timer → (run ∈ after.state.runs ↔ run ∈ before.state.runs)

variable {before after : Watched}

theorem Untouched.due_eq {timer : Nat}
    (untouched : Untouched before after timer) (calls : Nat) :
    after.due timer calls = before.due timer calls := by
  unfold due
  rw [untouched.first, untouched.same]

/-- A timer to which nothing has happened is where it was, if a tick has not started while it was
queued. -/
theorem Placed.untouched {timer : Nat} (placed : Placed before timer)
    (untouched : Untouched before after timer)
    (lastTs : before.state.lastTs ≤ after.state.lastTs)
    (previous : after.previous = before.previous ∨ before.state.runs = []) :
    Placed after timer := by
  have due := untouched.due_eq
  cases placed with
  | plugged mem due_eq last uncalled =>
      refine .plugged ?_ ?_ ?_ ?_
      · rw [untouched.slots, untouched.same]
        exact mem
      · rw [untouched.same, untouched.count, due]
        exact due_eq
      · rw [untouched.count, due]
        exact fun called => (last called).trans lastTs
      · rw [untouched.same, untouched.count]
        exact uncalled
  | queued run mem timer_eq unstarted due_eq reached uncalled =>
      refine .queued run ((untouched.runs run timer_eq).mpr mem) timer_eq unstarted ?_ ?_ ?_
      · rw [untouched.same, untouched.count, due]
        exact due_eq
      · rw [untouched.same]
        exact reached.trans lastTs
      · rcases previous with previous | idle
        · rw [untouched.same, untouched.count, untouched.first, previous]
          exact uncalled
        · rw [idle] at mem
          cases mem
  | running run mem timer_eq started called due_eq reached once =>
      refine .running run ((untouched.runs run timer_eq).mpr mem) timer_eq started ?_ ?_ ?_ ?_
      · rw [untouched.count]
        exact called
      · rw [untouched.same, untouched.count, due]
        exact due_eq
      · rw [untouched.same]
        exact reached.trans lastTs
      · rw [untouched.same, untouched.count]
        exact once
  | done absent once called reached =>
      refine .done ⟨fun run mem timer_eq => ?_, fun ts mem => ?_⟩ ?_ ?_ ?_
      · exact absent.1 run ((untouched.runs run timer_eq).mp mem) timer_eq
      · exact absent.2 ts ((untouched.slots ts).mp mem)
      · rw [untouched.same]
        exact once
      · rw [untouched.count]
        exact called
      · rw [untouched.same]
        exact reached.trans lastTs

/-- What holds of the timers while no timer runs ahead of the wheel. -/
structure Layout (watched : Watched) : Prop where
  consistent : Consistent watched.state
  future : ∀ {ts timer}, timer ∈ watched.state.timerHub ts → watched.state.lastTs < ts
  unstarted : watched.state.checkStarted = false →
    watched.state.guid = 0 ∧ (∀ ts, watched.state.timerHub ts = []) ∧ watched.state.runs = []
  /-- The clock of a coroutine is not before the wheel, nor before that of the check. -/
  ahead : ∀ {run}, run ∈ watched.state.runs → watched.state.lastTs ≤ run.now ∧
    ∀ target, watched.state.checking = some target → target ≤ run.now
  target : ∀ {target}, watched.state.checking = some target →
    watched.state.lastTs ≤ target ∧ watched.previous ≤ watched.state.lastTs
  duration : ∀ timer, 0 < (watched.state.timers timer).duration
  positive : (∀ ts, 0 ∉ watched.state.timerHub ts) ∧ ∀ run ∈ watched.state.runs, 0 < run.timer
  /-- A timer that has not been cancelled is where it should be. -/
  placed : ∀ {timer}, watched.Created timer → (watched.state.timers timer).cancelFlag = false →
    Placed watched timer

/-- What holds of the events while no timer runs ahead of the wheel. -/
structure Ledger (watched : Watched) : Prop where
  unborn : ∀ {timer}, watched.state.guid < timer →
    watched.count timer = 0 ∧ (watched.state.timers timer).cancelFlag = false
  cancelled : ∀ {timer}, .cancelled timer ∈ watched.events →
    (watched.state.timers timer).cancelFlag = true
  once : ∀ timer, (watched.state.timers timer).isLoop = false → watched.count timer ≤ 1
  /-- It is called at the first tick that is not before its deadline. -/
  at_deadline : ∀ timer previous tick, .called timer previous tick ∈ watched.events →
    (watched.state.timers timer).isLoop = false →
      previous < watched.first timer ∧ watched.first timer ≤ tick
  silent : watched.events.Pairwise fun earlier later =>
    ∀ timer, earlier = .cancelled timer → later.calls timer = false
  /-- A timer that is cancelled removes no other one from its slot. -/
  others : ∀ timer, .lost timer ∉ watched.events

/-- What holds while no timer runs ahead of the wheel. -/
structure Inv (watched : Watched) : Prop extends Layout watched, Ledger watched

theorem initial_inv (now : Int) : Inv (Watched.initial now) where
  consistent := initial_consistent now
  future mem := nomatch mem
  unstarted _ := ⟨rfl, fun _ => rfl, rfl⟩
  ahead mem := nomatch mem
  target found := nomatch found
  duration _ := Int.one_pos
  positive := ⟨fun _ => List.not_mem_nil, fun _ mem => nomatch mem⟩
  unborn _ := ⟨rfl, rfl⟩
  placed created _ := absurd created.2 (Nat.not_le.mpr created.1)
  cancelled mem := nomatch mem
  once _ _ := Nat.zero_le _
  at_deadline _ _ _ mem := nomatch mem
  silent := .nil
  others _ mem := nomatch mem

section
variable {before after : Watched} (ledger : Ledger before)
include ledger

theorem Ledger.le_guid {timer : Nat} (called : 0 < before.count timer) :
    timer ≤ before.state.guid := by
  by_contra unborn
  exact absurd (ledger.unborn (not_le.mp unborn)).1 called.ne'

theorem Ledger.le_guid_of_cancelled {timer : Nat} (cancelled : .cancelled timer ∈ before.events) :
    timer ≤ before.state.guid := by
  by_contra unborn
  have live := (ledger.unborn (not_le.mp unborn)).2
  rw [ledger.cancelled cancelled] at live
  cases live

theorem Ledger.quiet (events : after.events = before.events)
    (guid : before.state.guid ≤ after.state.guid)
    (old : ∀ timer ≤ before.state.guid,
      (after.state.timers timer).isLoop = (before.state.timers timer).isLoop ∧
        (after.state.timers timer).cancelFlag = (before.state.timers timer).cancelFlag ∧
        after.first timer = before.first timer)
    (unborn : ∀ timer, after.state.guid < timer →
      (after.state.timers timer).cancelFlag = false) : Ledger after := by
  have count : ∀ timer, after.count timer = before.count timer := fun timer => by
    unfold Watched.count
    rw [events]
  constructor
  case unborn =>
    intro timer new
    rw [count]
    exact ⟨(ledger.unborn (guid.trans_lt new)).1, unborn timer new⟩
  case cancelled =>
    intro timer mem
    rw [events] at mem
    rw [(old timer (ledger.le_guid_of_cancelled mem)).2.1]
    exact ledger.cancelled mem
  case once =>
    intro timer once
    rw [count]
    rcases Nat.eq_zero_or_pos (before.count timer) with none | called
    · omega
    · exact ledger.once timer ((old timer (ledger.le_guid called)).1 ▸ once)
  case at_deadline =>
    intro timer previous tick mem once
    rw [events] at mem
    have called : 0 < before.count timer :=
      List.countP_pos_iff.mpr ⟨_, mem, by simp [Event.calls]⟩
    obtain ⟨loop, -, first⟩ := old timer (ledger.le_guid called)
    rw [first]
    exact ledger.at_deadline timer previous tick mem (loop ▸ once)
  case silent => exact events ▸ ledger.silent
  case others => exact events ▸ ledger.others

theorem Ledger.called {timer : Nat} {previous tick : Int}
    (events : after.events = before.events ++ [.called timer previous tick])
    (guid : after.state.guid = before.state.guid)
    (same : ∀ other,
      (after.state.timers other).isLoop = (before.state.timers other).isLoop ∧
        (after.state.timers other).cancelFlag = (before.state.timers other).cancelFlag ∧
        after.first other = before.first other)
    (created : timer ≤ before.state.guid)
    (live : (before.state.timers timer).cancelFlag = false)
    (once : (before.state.timers timer).isLoop = false →
      before.count timer = 0 ∧ previous < before.first timer ∧ before.first timer ≤ tick) :
    Ledger after := by
  have count : ∀ other, after.count other =
      before.count other + if timer = other then 1 else 0 := fun other => by
    unfold Watched.count
    rw [events, List.countP_append]
    by_cases equal : timer = other <;> simp [Event.calls, equal]
  constructor
  case unborn =>
    intro other new
    rw [guid] at new
    rw [count, (same other).2.1, if_neg (by omega)]
    exact ledger.unborn new
  case cancelled =>
    intro other mem
    rw [events] at mem
    rw [(same other).2.1]
    rcases List.mem_append.mp mem with mem | mem
    · exact ledger.cancelled mem
    · cases List.mem_singleton.mp mem
  case once =>
    intro other other_once
    rw [(same other).1] at other_once
    rw [count]
    split
    · rename_i equal
      rw [← equal] at other_once ⊢
      rw [(once other_once).1]
    · exact ledger.once other other_once
  case at_deadline =>
    intro other other_previous other_tick mem other_once
    rw [(same other).1] at other_once
    rw [(same other).2.2]
    rw [events] at mem
    rcases List.mem_append.mp mem with mem | mem
    · exact ledger.at_deadline other other_previous other_tick mem other_once
    · cases List.mem_singleton.mp mem
      exact (once other_once).2
  case silent =>
    rw [events]
    refine List.pairwise_append.mpr ⟨ledger.silent, List.pairwise_singleton _ _, ?_⟩
    rintro earlier mem later later_mem other rfl
    cases List.mem_singleton.mp later_mem
    have different : timer ≠ other := fun equal => by
      rw [equal, ledger.cancelled mem] at live
      cases live
    simpa [Event.calls] using different
  case others =>
    intro other mem
    rw [events] at mem
    rcases List.mem_append.mp mem with mem | mem
    · exact ledger.others other mem
    · cases List.mem_singleton.mp mem

theorem Ledger.cancel {timer : Nat} (events : after.events = before.events ++ [.cancelled timer])
    (guid : after.state.guid = before.state.guid) (created : timer ≤ before.state.guid)
    (same : ∀ other,
      (after.state.timers other).isLoop = (before.state.timers other).isLoop ∧
        (after.state.timers other).cancelFlag =
          (if other = timer then true else (before.state.timers other).cancelFlag) ∧
        after.first other = before.first other) : Ledger after := by
  have count : ∀ other, after.count other = before.count other := fun other => by
    unfold Watched.count
    rw [events, List.countP_append]
    simp [Event.calls]
  constructor
  case unborn =>
    intro other new
    rw [guid] at new
    rw [count, (same other).2.1, if_neg (by omega)]
    exact ledger.unborn new
  case cancelled =>
    intro other mem
    rw [events] at mem
    rw [(same other).2.1]
    split
    · rfl
    · rename_i different
      rcases List.mem_append.mp mem with mem | mem
      · exact ledger.cancelled mem
      · cases List.mem_singleton.mp mem
        exact absurd rfl different
  case once =>
    intro other other_once
    rw [(same other).1] at other_once
    rw [count]
    exact ledger.once other other_once
  case at_deadline =>
    intro other previous tick mem other_once
    rw [(same other).1] at other_once
    rw [(same other).2.2]
    rw [events] at mem
    rcases List.mem_append.mp mem with mem | mem
    · exact ledger.at_deadline other previous tick mem other_once
    · cases List.mem_singleton.mp mem
  case silent =>
    rw [events]
    refine List.pairwise_append.mpr ⟨ledger.silent, List.pairwise_singleton _ _, ?_⟩
    rintro earlier mem later later_mem other rfl
    cases List.mem_singleton.mp later_mem
    rfl
  case others =>
    intro other mem
    rw [events] at mem
    rcases List.mem_append.mp mem with mem | mem
    · exact ledger.others other mem
    · cases List.mem_singleton.mp mem

end

theorem Watched.due_succ (watched : Watched) (timer calls : Nat) :
    watched.due timer (calls + 1) =
      watched.due timer calls + (watched.state.timers timer).duration := by
  unfold due
  push_cast
  ring

theorem calls_eq {first duration lastTs : Int} {calls : Nat} (positive : 0 < duration)
    (reached : first + calls * duration ≤ lastTs)
    (later : lastTs < first + (calls + 1 : Nat) * duration) :
    ((calls + 1 : Nat) : Int) = (lastTs - first) / duration + 1 := by
  have floor : (lastTs - first) / duration = calls := by
    refine le_antisymm (Int.lt_add_one_iff.mp ?_) ?_
    · rw [Int.ediv_lt_iff_lt_mul positive]
      push_cast at later
      linarith
    · rw [Int.le_ediv_iff_mul_le positive]
      linarith
  rw [floor]
  rfl

section
variable {watched : Watched} (inv : Inv watched)
include inv

theorem Inv.lawful : watched.Lawful where
  once := inv.once
  at_deadline := inv.at_deadline
  silent := inv.silent
  others := inv.others
  called idle timer created once live reached := by
    cases inv.placed created live with
    | plugged mem due last uncalled =>
        have later := inv.future mem
        rw [due, uncalled once] at later
        simp only [Watched.due, Nat.cast_zero, zero_mul, add_zero] at later
        omega
    | queued run mem | running run mem =>
        rw [idle.2] at mem
        cases mem
    | done absent once called reached => exact called
  loop idle timer created loop live reached := by
    cases inv.placed created live with
    | plugged mem due last uncalled =>
        have later := inv.future mem
        rw [due] at later
        cases calls : watched.count timer with
        | zero =>
            rw [calls] at later
            simp only [Watched.due, Nat.cast_zero, zero_mul, add_zero] at later
            omega
        | succ calls' =>
            rw [calls] at later last
            exact calls_eq (inv.duration timer) (last (Nat.succ_pos _)) later
    | queued run mem | running run mem =>
        rw [idle.2] at mem
        cases mem
    | done absent once =>
        rw [once] at loop
        cases loop

end

theorem Watched.step_eq {label : Label}
    (taken : before.step label = some after) :
    Atomic before.state label ∧ ∃ state, Wheel.step before.state label = some state ∧
      after =
        { state
          first := before.firstAfter state label
          previous := before.previousAfter label
          events := before.events ++ before.state.emits before.previous label } := by
  obtain ⟨atomic, stepped⟩ := Option.ite_none_right_eq_some.mp taken
  obtain ⟨state, state_step, rfl⟩ := Option.map_eq_some_iff.mp stepped
  exact ⟨atomic, state, state_step, rfl⟩

theorem count_congr (events : after.events = before.events)
    (timer : Nat) : after.count timer = before.count timer := by
  unfold Watched.count
  rw [events]

section
variable {before : Watched} (inv : Inv before)
include inv

theorem Inv.still {after : Watched} (consistent : Consistent after.state)
    (timers : after.state.timers = before.state.timers)
    (guid : after.state.guid = before.state.guid)
    (hub : after.state.timerHub = before.state.timerHub)
    (runs : after.state.runs = before.state.runs)
    (checkStarted : after.state.checkStarted = before.state.checkStarted)
    (lastTs : after.state.lastTs = before.state.lastTs) (first : after.first = before.first)
    (previous : after.previous = before.previous ∨ before.state.runs = [])
    (events : after.events = before.events)
    (ahead : ∀ {run}, run ∈ before.state.runs →
      ∀ target, after.state.checking = some target → target ≤ run.now)
    (target : ∀ {target}, after.state.checking = some target →
      before.state.lastTs ≤ target ∧ after.previous ≤ before.state.lastTs) : Inv after := by
  have ledger : Ledger after := by
    refine inv.toLedger.quiet events guid.ge (fun timer _ => ?_) fun timer new => ?_
    · rw [timers, first]
      exact ⟨rfl, rfl, rfl⟩
    · rw [timers]
      exact (inv.unborn (guid ▸ new)).2
  refine ⟨?_, ledger⟩
  constructor
  case consistent => exact consistent
  case future =>
    intro ts timer mem
    rw [hub] at mem
    rw [lastTs]
    exact inv.future mem
  case unstarted =>
    rw [checkStarted, guid, hub, runs]
    exact inv.unstarted
  case ahead =>
    intro run mem
    rw [runs] at mem
    rw [lastTs]
    exact ⟨(inv.ahead mem).1, ahead mem⟩
  case target =>
    intro time checking
    rw [lastTs]
    exact target checking
  case duration =>
    rw [timers]
    exact inv.duration
  case positive =>
    rw [hub, runs]
    exact inv.positive
  case placed =>
    intro timer created live
    unfold Watched.Created at created
    rw [guid] at created
    rw [timers] at live
    refine (inv.placed created live).untouched ⟨?_, ?_, count_congr events timer, ?_, ?_⟩ lastTs.ge
      previous
    · rw [timers]
    · rw [first]
    · exact fun ts => by rw [hub]
    · exact fun run _ => by rw [runs]

theorem Inv.expire {target : Int} (checking : before.state.checking = some target)
    (behind : before.state.lastTs < target) :
    Inv
      { before with
        state := State.expire { before.state with lastTs := before.state.lastTs + 1 }
          (before.state.lastTs + 1) } := by
  have target_le := (inv.consistent.checking_le checking).1
  have started := (inv.consistent.checking_le checking).2
  refine ⟨?_, inv.toLedger.quiet rfl le_rfl (fun _ _ => ⟨rfl, rfl, rfl⟩)
    fun _ new => (inv.unborn new).2⟩
  constructor
  case consistent => exact (expire_spec inv.consistent checking behind).1
  case future =>
    intro ts timer mem
    change timer ∈ Function.update before.state.timerHub (before.state.lastTs + 1) [] ts at mem
    rw [Function.update_apply] at mem
    split at mem
    · cases mem
    · have later := inv.future mem
      change before.state.lastTs + 1 < ts
      omega
  case unstarted =>
    intro stopped
    change before.state.checkStarted = false at stopped
    rw [started] at stopped
    cases stopped
  case ahead =>
    intro run mem
    have same_check : ∀ time, before.state.checking = some time → time = target := fun time found =>
      Option.some.inj (found.symm.trans checking)
    rcases List.mem_append.mp mem with mem | mem
    · obtain ⟨-, from_check⟩ := inv.ahead mem
      have after_check := from_check target checking
      exact ⟨Int.add_one_le_iff.mpr (behind.trans_le after_check), from_check⟩
    · obtain ⟨timer, -, rfl⟩ := List.mem_map.mp mem
      refine ⟨Int.add_one_le_iff.mpr (behind.trans_le target_le), fun time found => ?_⟩
      rw [same_check time found]
      exact target_le
  case target =>
    intro time found
    cases found.symm.trans checking
    exact ⟨Int.add_one_le_iff.mpr behind, (inv.target checking).2.trans (by simp [State.expire])⟩
  case duration => exact inv.duration
  case positive =>
    refine ⟨fun ts mem => ?_, fun run mem => ?_⟩
    · change 0 ∈ Function.update before.state.timerHub (before.state.lastTs + 1) [] ts at mem
      rw [Function.update_apply] at mem
      split at mem
      · cases mem
      · exact inv.positive.1 ts mem
    · rcases List.mem_append.mp mem with mem | mem
      · exact inv.positive.2 run mem
      · obtain ⟨timer, timer_mem, rfl⟩ := List.mem_map.mp mem
        have not_zero : timer ≠ 0 := fun zero => inv.positive.1 _ (zero ▸ timer_mem)
        exact Nat.pos_of_ne_zero not_zero
  case placed =>
    intro timer created live
    have placed := inv.placed created live
    by_cases due_now : timer ∈ before.state.timerHub (before.state.lastTs + 1)
    · have next := (inv.consistent.slot due_now).1
      cases placed with
      | plugged mem due last uncalled =>
          refine .queued { timer, now := before.state.now, started := false } ?_ rfl rfl due
            next.le fun once => ⟨uncalled once, ?_⟩
          · exact List.mem_append_right _ (List.mem_map.mpr ⟨timer, due_now, rfl⟩)
          · have first := due
            rw [uncalled once] at first
            simp only [Watched.due, Nat.cast_zero, zero_mul, add_zero] at first
            have previous := (inv.target checking).2
            change before.previous < before.first timer
            omega
      | queued run mem timer_eq | running run mem timer_eq =>
          exact absurd (timer_eq ▸ due_now) (inv.consistent.apart mem)
      | done absent => exact absurd due_now (absent.2 _)
    · refine placed.untouched ⟨rfl, rfl, rfl, fun ts => ?_, fun run timer_eq => ?_⟩ ?_ (.inl rfl)
      · change timer ∈ Function.update before.state.timerHub (before.state.lastTs + 1) [] ts ↔ _
        rw [Function.update_apply]
        split
        · rename_i equal
          rw [equal]
          exact ⟨fun mem => absurd mem List.not_mem_nil, fun mem => absurd mem due_now⟩
        · exact Iff.rfl
      · refine ⟨fun mem => ?_, fun mem => List.mem_append_left _ mem⟩
        rcases List.mem_append.mp mem with mem | mem
        · exact mem
        · obtain ⟨other, other_mem, rfl⟩ := List.mem_map.mp mem
          exact absurd (timer_eq ▸ other_mem) due_now
      · exact (Int.lt_succ _).le

theorem Inv.new (duration : Rat) (isLoop : Bool) (delay : Option Rat) (passed : Nat)
    (checking : before.state.checking = none) :
    Inv
      { before with
        state := before.state.new duration isLoop delay passed
        first := Function.update before.first (before.state.guid + 1)
          (before.state.now + passed + wholeTicks (delay.getD duration)) } := by
  have wait := one_le_wholeTicks (delay.getD duration)
  have period := one_le_wholeTicks duration
  have consistent := (new_spec inv.consistent duration isLoop delay passed).1
  have start : before.state.startCheck.timers = before.state.timers ∧
      before.state.startCheck.timerHub = before.state.timerHub ∧
      before.state.startCheck.runs = before.state.runs ∧
      before.state.startCheck.checking = none ∧
      before.state.startCheck.checkStarted = true ∧
      before.state.startCheck.lastTs ≤ before.state.now ∧
      (before.state.guid = 0 ∧ (∀ ts, before.state.timerHub ts = []) ∧ before.state.runs = [] ∨
        before.state.startCheck.lastTs = before.state.lastTs) := by
    unfold State.startCheck
    split
    · rename_i started
      exact ⟨rfl, rfl, rfl, checking, started, inv.consistent.lastTs_le started, .inr rfl⟩
    · rename_i stopped
      exact ⟨rfl, rfl, rfl, checking, rfl, by simp, .inl (inv.unstarted (by simpa using stopped))⟩
  obtain ⟨timers, hub, runs, not_checking, started, lastTs_le, lastTs⟩ := start
  let self : Timer :=
    { duration := wholeTicks duration
      isLoop := isLoop
      nextTs := before.state.now + passed + wholeTicks (delay.getD duration) }
  have new_timers : (before.state.new duration isLoop delay passed).timers =
      Function.update before.state.timers (before.state.guid + 1) self := by
    simp only [State.new, State.plug, State.setTimer, timers, self]
  have new_hub : (before.state.new duration isLoop delay passed).timerHub =
      Function.update before.state.timerHub self.nextTs
        (before.state.timerHub self.nextTs ++ [before.state.guid + 1]) := by
    simp only [State.new, State.plug, State.setTimer, timers, hub, Function.update_self, self]
  have new_runs : (before.state.new duration isLoop delay passed).runs = before.state.runs := runs
  refine ⟨?_, inv.toLedger.quiet rfl (Nat.le_succ _) (fun timer old => ?_) fun timer new => ?_⟩
  · constructor
    case consistent => exact consistent
    case future =>
      intro ts timer mem
      rw [new_hub, Function.update_apply] at mem
      have old_later : timer ∈ before.state.timerHub ts → before.state.startCheck.lastTs < ts := by
        intro old
        rcases lastTs with ⟨-, empty, -⟩ | same
        · rw [empty] at old
          cases old
        · rw [same]
          exact inv.future old
      split at mem
      · rename_i equal
        rw [equal]
        change before.state.startCheck.lastTs <
          before.state.now + passed + wholeTicks (delay.getD duration)
        omega
      · exact old_later mem
    case unstarted =>
      intro stopped
      cases started.symm.trans stopped
    case ahead =>
      intro run mem
      rw [new_runs] at mem
      refine ⟨?_, fun target found => ?_⟩
      · rcases lastTs with ⟨-, -, idle⟩ | same
        · rw [idle] at mem
          cases mem
        · change before.state.startCheck.lastTs ≤ run.now
          rw [same]
          exact (inv.ahead mem).1
      · cases not_checking.symm.trans found
    case target =>
      intro target found
      cases not_checking.symm.trans found
    case duration =>
      intro timer
      rw [new_timers, Function.update_apply]
      split
      · exact period
      · exact inv.duration timer
    case positive =>
      refine ⟨fun ts mem => ?_, fun run mem => inv.positive.2 run (new_runs ▸ mem)⟩
      rw [new_hub, Function.update_apply] at mem
      split at mem
      · rcases List.mem_append.mp mem with mem | mem
        · exact inv.positive.1 _ mem
        · cases List.mem_singleton.mp mem
      · exact inv.positive.1 ts mem
    case placed =>
      intro timer created live
      by_cases new : timer = before.state.guid + 1
      · subst new
        have uncalled := (inv.unborn (Nat.lt_succ_self before.state.guid)).1
        have self_eq : (before.state.new duration isLoop delay passed).timers
            (before.state.guid + 1) = self := by
          rw [new_timers, Function.update_self]
        refine .plugged ?_ ?_ (fun called => absurd (lt_of_lt_of_eq called uncalled) (lt_irrefl 0))
          fun _ => uncalled
        · rw [self_eq, new_hub, Function.update_self]
          exact List.mem_append_right _ (List.mem_singleton_self _)
        · change ((before.state.new duration isLoop delay passed).timers
            (before.state.guid + 1)).nextTs = Function.update before.first _ _ _ +
              (before.count (before.state.guid + 1) : Int) * _
          rw [uncalled, self_eq, Function.update_self, Nat.cast_zero, zero_mul, add_zero]
      · have old : before.Created timer :=
          ⟨created.1, Nat.le_of_lt_succ (lt_of_le_of_ne created.2 new)⟩
        have same : (before.state.new duration isLoop delay passed).timers timer =
            before.state.timers timer := by
          rw [new_timers, Function.update_of_ne new]
        rw [same] at live
        refine (inv.placed old live).untouched ⟨same, Function.update_of_ne new _ _, rfl, ?_, ?_⟩ ?_
          (.inl rfl)
        · intro ts
          rw [new_hub, Function.update_apply]
          split
          · rename_i equal
            rw [equal, List.mem_append, List.mem_singleton]
            exact or_iff_left new
          · exact Iff.rfl
        · intro run _
          rw [new_runs]
        · rcases lastTs with ⟨none_created, -, -⟩ | same
          · exact absurd (none_created ▸ old.2) (Nat.not_le.mpr old.1)
          · exact same.ge
  · have different : timer ≠ before.state.guid + 1 := by omega
    rw [new_timers, Function.update_of_ne different]
    exact ⟨rfl, rfl, Function.update_of_ne different _ _⟩
  · have later : before.state.guid + 1 < timer := new
    rw [new_timers, Function.update_of_ne later.ne']
    exact (inv.unborn (Nat.lt_of_succ_lt later)).2

/-- A timer that is cancelled leaves its slot, and no other timer leaves a slot. -/
theorem Inv.mem_cancel {timer : Nat} (created : before.Created timer)
    (live : (before.state.timers timer).cancelFlag = false) (ts : Int) (other : Nat) :
    other ∈ Function.update before.state.timerHub (before.state.timers timer).nextTs
        (State.removeFrom (before.state.timerHub (before.state.timers timer).nextTs) timer) ts ↔
      other ∈ before.state.timerHub ts ∧ other ≠ timer := by
  have only_here : timer ∈ before.state.timerHub ts → (before.state.timers timer).nextTs = ts :=
    fun mem => (inv.consistent.slot mem).1
  have empty : (before.state.timers timer).nextTs ≤ before.state.lastTs →
      before.state.timerHub (before.state.timers timer).nextTs = [] := fun reached =>
    List.eq_nil_iff_forall_not_mem.mpr fun _ mem => absurd (inv.future mem) reached.not_gt
  have found : timer ∈ before.state.timerHub (before.state.timers timer).nextTs ∨
      before.state.timerHub (before.state.timers timer).nextTs = [] := by
    cases inv.placed created live with
    | plugged mem => exact .inl mem
    | queued run mem timer_eq unstarted due reached => exact .inr (empty reached)
    | running run mem timer_eq started called due reached => exact .inr (empty reached)
    | done absent once called reached => exact .inr (empty reached)
  rw [Function.update_apply]
  split
  · rename_i equal
    rw [mem_removeFrom (inv.consistent.slot_nodup _), ← equal]
    rcases found with mem | none_there
    · have anything : timer ∉ before.state.timerHub ts →
          (before.state.timerHub ts).getLast? ≠ some other := fun missing =>
        absurd (equal ▸ mem) missing
      tauto
    · rw [equal, none_there]
      simp
  · rename_i different
    refine (and_iff_left_of_imp fun mem equal => different ?_).symm
    exact (only_here (equal ▸ mem)).symm

theorem Inv.cancel {timer : Nat} (created : before.Created timer)
    (live : (before.state.timers timer).cancelFlag = false) :
    Inv
      { before with
        state := before.state.cancel timer
        events := before.events ++ before.state.emits before.previous (.cancel timer) } := by
  have slots := inv.mem_cancel created live
  have lost : before.state.lost timer = [] := by
    refine List.filter_eq_nil_iff.mpr fun other mem => ?_
    have kept := slots (before.state.timers timer).nextTs other
    rw [Function.update_self] at kept
    simp only [decide_eq_true_eq, not_and, not_not]
    exact fun different => kept.mpr ⟨mem, different⟩
  have emits : before.state.emits before.previous (.cancel timer) = [.cancelled timer] := by
    simp only [State.emits, live, lost, Bool.false_eq_true, if_false, List.map_nil]
  have consistent := (cancel_spec inv.consistent timer).1
  have cancels : before.state.cancel timer =
      State.setTimer
        { before.state with
          timerHub := Function.update before.state.timerHub (before.state.timers timer).nextTs
            (State.removeFrom (before.state.timerHub (before.state.timers timer).nextTs) timer) }
        timer { before.state.timers timer with cancelFlag := true } := by
    simp only [State.cancel, live, Bool.false_eq_true, if_false]
  rw [cancels] at consistent
  rw [emits, cancels]
  refine ⟨?_, inv.toLedger.cancel rfl rfl created.2 fun other => ?_⟩
  · constructor
    case consistent => exact consistent
    case future => exact fun mem => inv.future ((slots _ _).mp mem).1
    case unstarted =>
      intro stopped
      exact absurd ((inv.unstarted stopped).1 ▸ created.2) (Nat.not_le.mpr created.1)
    case ahead => exact inv.ahead
    case target => exact inv.target
    case duration =>
      intro other
      change 0 < (Function.update before.state.timers timer _ other).duration
      rw [Function.update_apply]
      split
      · exact inv.duration timer
      · exact inv.duration other
    case positive =>
      exact ⟨fun ts mem => inv.positive.1 ts ((slots ts 0).mp mem).1, inv.positive.2⟩
    case placed =>
      intro other other_created other_live
      have different : other ≠ timer := by
        rintro rfl
        simp [State.setTimer] at other_live
      have same : Function.update before.state.timers timer
          { before.state.timers timer with cancelFlag := true } other =
          before.state.timers other := Function.update_of_ne different _ _
      change (Function.update before.state.timers timer _ other).cancelFlag = false at other_live
      rw [same] at other_live
      refine (inv.placed other_created other_live).untouched
        ⟨same, rfl, ?_, fun ts => (slots ts other).trans (and_iff_left different),
          fun _ _ => Iff.rfl⟩ le_rfl (.inl rfl)
      unfold Watched.count
      simp [Event.calls]
  · change (Function.update before.state.timers timer _ other).isLoop = _ ∧
      (Function.update before.state.timers timer _ other).cancelFlag = _ ∧ _
    rw [Function.update_apply]
    split
    · rename_i equal
      rw [equal]
      exact ⟨rfl, rfl, rfl⟩
    · exact ⟨rfl, rfl, rfl⟩

variable {run : Run}

/-- A coroutine is resumed or its callback returns: only its own timer, its slot and its coroutines change. -/
structure Resumed (before after : Watched) (run : Run) (called : List Event) : Prop where
  timers : ∃ nextTs, after.state.timers = Function.update before.state.timers run.timer
    { before.state.timers run.timer with nextTs }
  slots : ∀ other, other ≠ run.timer → ∀ ts,
    other ∈ after.state.timerHub ts ↔ other ∈ before.state.timerHub ts
  plugged : ∀ ts, run.timer ∈ after.state.timerHub ts → before.state.lastTs < ts
  runs : ∀ other : Run, other.timer ≠ run.timer →
    (other ∈ after.state.runs ↔ other ∈ before.state.runs)
  own : ∀ other ∈ after.state.runs, other.timer = run.timer → other.now = run.now
  kept : after.state.lastTs = before.state.lastTs ∧
    after.state.guid = before.state.guid ∧ after.state.checking = before.state.checking ∧
    after.state.checkStarted = before.state.checkStarted ∧ after.first = before.first ∧
    after.previous = before.previous
  events : after.events = before.events ++ called

section
omit inv
variable {after : Watched} {called : List Event} (resumed : Resumed before after run called)
include resumed

theorem Resumed.others {other : Nat} (different : other ≠ run.timer) :
    after.state.timers other = before.state.timers other := by
  obtain ⟨nextTs, timers⟩ := resumed.timers
  rw [timers, Function.update_of_ne different]

theorem Resumed.same (other : Nat) :
    (after.state.timers other).isLoop = (before.state.timers other).isLoop ∧
      (after.state.timers other).cancelFlag = (before.state.timers other).cancelFlag ∧
      after.first other = before.first other := by
  rw [resumed.kept.2.2.2.2.1]
  rcases eq_or_ne other run.timer with rfl | different
  · obtain ⟨nextTs, timers⟩ := resumed.timers
    rw [timers, Function.update_self]
    exact ⟨rfl, rfl, rfl⟩
  · rw [resumed.others different]
    exact ⟨rfl, rfl, rfl⟩

theorem Resumed.duration (other : Nat) :
    (after.state.timers other).duration = (before.state.timers other).duration := by
  rcases eq_or_ne other run.timer with rfl | different
  · obtain ⟨nextTs, timers⟩ := resumed.timers
    rw [timers, Function.update_self]
  · rw [resumed.others different]

theorem Resumed.due_eq (calls : Nat) : after.due run.timer calls = before.due run.timer calls := by
  rw [Watched.due, (resumed.same run.timer).2.2, resumed.duration]
  rfl

theorem Resumed.count_eq (other : Nat) :
    after.count other = before.count other + called.countP (Event.calls other) := by
  unfold Watched.count
  rw [resumed.events, List.countP_append]

end

theorem Inv.resumed {after : Watched} {called : List Event} (resumed : Resumed before after run called)
    (mem : run ∈ before.state.runs) (consistent : Consistent after.state)
    (once : called = [] ∨ called = [.called run.timer before.previous before.state.lastTs] ∧
      (before.state.timers run.timer).cancelFlag = false ∧
      ((before.state.timers run.timer).isLoop = false → before.count run.timer = 0 ∧
        before.previous < before.first run.timer ∧ before.first run.timer ≤ before.state.lastTs))
    (placed : (before.state.timers run.timer).cancelFlag = false → Placed after run.timer) :
    Inv after := by
  obtain ⟨lastTs, guid, checking, checkStarted, first, previous⟩ := resumed.kept
  have ledger : Ledger after := by
    rcases once with rfl | ⟨rfl, live, once⟩
    · refine inv.toLedger.quiet (resumed.events.trans (List.append_nil _)) guid.ge
        (fun other _ => resumed.same other) fun other new => ?_
      rw [(resumed.same other).2.1]
      exact (inv.unborn (guid ▸ new)).2
    · exact inv.toLedger.called resumed.events guid resumed.same (inv.consistent.runs_le mem) live once
  have uncalled : ∀ other, other ≠ run.timer → after.count other = before.count other := by
    intro other different
    rw [resumed.count_eq]
    rcases once with rfl | ⟨rfl, -⟩
    · rfl
    · simp [Event.calls, different.symm]
  refine ⟨?_, ledger⟩
  constructor
  case consistent => exact consistent
  case future =>
    intro ts other other_mem
    rw [lastTs]
    by_cases equal : other = run.timer
    · exact resumed.plugged ts (equal ▸ other_mem)
    · exact inv.future ((resumed.slots other equal ts).mp other_mem)
  case unstarted =>
    intro stopped
    rw [checkStarted] at stopped
    rw [(inv.unstarted stopped).2.2] at mem
    cases mem
  case ahead =>
    intro other other_mem
    rw [lastTs, checking]
    by_cases equal : other.timer = run.timer
    · rw [resumed.own other other_mem equal]
      exact inv.ahead mem
    · exact inv.ahead ((resumed.runs other equal).mp other_mem)
  case target =>
    rw [checking, lastTs, previous]
    exact inv.target
  case duration =>
    intro other
    rw [resumed.duration]
    exact inv.duration other
  case positive =>
    have born := inv.positive.2 run mem
    refine ⟨fun ts zero_mem => ?_, fun other other_mem => ?_⟩
    · exact inv.positive.1 ts ((resumed.slots 0 born.ne ts).mp zero_mem)
    · by_cases equal : other.timer = run.timer
      · rw [equal]
        exact born
      · exact inv.positive.2 other ((resumed.runs other equal).mp other_mem)
  case placed =>
    intro other created live
    rw [(resumed.same other).2.1] at live
    by_cases equal : other = run.timer
    · rw [equal] at live ⊢
      exact placed live
    · unfold Watched.Created at created
      rw [guid] at created
      refine (inv.placed created live).untouched ⟨resumed.others equal, (resumed.same other).2.2,
        uncalled other equal, resumed.slots other equal, fun another timer_eq => resumed.runs another ?_⟩
        lastTs.ge (.inl previous)
      rw [timer_eq]
      exact equal

/-- The timer of a coroutine that has not been cancelled is queued, or its callback is running. -/
theorem Inv.placed_run (mem : run ∈ before.state.runs)
    (live : (before.state.timers run.timer).cancelFlag = false) :
    (before.state.timers run.timer).nextTs ≤ before.state.lastTs ∧
      (run.started = false →
        (before.state.timers run.timer).nextTs =
            before.due run.timer (before.count run.timer) ∧
          ((before.state.timers run.timer).isLoop = false →
            before.count run.timer = 0 ∧ before.previous < before.first run.timer)) ∧
      (run.started = true →
        0 < before.count run.timer ∧
          (before.state.timers run.timer).nextTs =
            before.due run.timer (before.count run.timer - 1) ∧
          ((before.state.timers run.timer).isLoop = false → before.count run.timer = 1)) := by
  have created : before.Created run.timer :=
    ⟨inv.positive.2 run mem, inv.consistent.runs_le mem⟩
  cases inv.placed created live with
  | plugged plugged_mem => exact absurd plugged_mem (inv.consistent.apart mem)
  | queued other other_mem timer_eq unstarted due reached uncalled =>
      obtain rfl := inv.consistent.run_unique mem other_mem timer_eq
      refine ⟨reached, fun _ => ⟨due, uncalled⟩, fun started => ?_⟩
      rw [unstarted] at started
      cases started
  | running other other_mem timer_eq started called due reached once =>
      obtain rfl := inv.consistent.run_unique mem other_mem timer_eq
      refine ⟨reached, fun unstarted => ?_, fun _ => ⟨called, due, once⟩⟩
      rw [unstarted] at started
      cases started
  | done absent => exact absurd rfl (absent.1 run mem)

theorem Inv.ended (mem : run ∈ before.state.runs) {after : Watched}
    (consistent : Consistent after.state)
    (runs : after.state.runs = before.state.runs.erase run)
    (timers : ∃ nextTs, after.state.timers = Function.update before.state.timers run.timer
      { before.state.timers run.timer with nextTs })
    (hub : after.state.timerHub = before.state.timerHub)
    (kept : after.state.lastTs = before.state.lastTs ∧
      after.state.guid = before.state.guid ∧ after.state.checking = before.state.checking ∧
      after.state.checkStarted = before.state.checkStarted ∧ after.first = before.first ∧
      after.previous = before.previous)
    (events : after.events = before.events)
    (placed : (before.state.timers run.timer).cancelFlag = false → Placed after run.timer) :
    Inv after := by
  refine inv.resumed ⟨timers, fun _ _ _ => by rw [hub], fun ts plugged => ?_, fun other different => ?_,
    fun other other_mem timer_eq => ?_, kept, events.trans (List.append_nil _).symm⟩ mem consistent
    (.inl rfl) placed
  · rw [hub] at plugged
    exact absurd plugged (inv.consistent.apart mem)
  · rw [runs, inv.consistent.mem_erase mem]
    exact and_iff_left different
  · rw [runs, inv.consistent.mem_erase mem] at other_mem
    exact absurd timer_eq other_mem.2

section
variable (mem : run ∈ before.state.runs)
include mem

theorem Inv.start (unstarted : run.started = false) :
    Inv
      { before with
        state := before.state.start run
        events := before.events ++ before.state.emits before.previous (.start run) } := by
  have consistent := (start_spec inv.consistent mem).1
  unfold State.start at consistent ⊢
  cases live : (before.state.timers run.timer).cancelFlag with
  | true =>
      simp only [live, if_true] at consistent ⊢
      refine inv.ended mem consistent rfl ⟨(before.state.timers run.timer).nextTs, ?_⟩ rfl
        ⟨rfl, rfl, rfl, rfl, rfl, rfl⟩ ?_ fun cancelled => ?_
      · exact (Function.update_eq_self _ _).symm
      · simp [State.emits, live]
      · cases live.symm.trans cancelled
  | false =>
      obtain ⟨reached, queued, -⟩ := inv.placed_run mem live
      obtain ⟨due, uncalled⟩ := queued unstarted
      have emits : before.state.emits before.previous (.start run) =
          [.called run.timer before.previous before.state.lastTs] := by
        simp [State.emits, live]
      rw [emits]
      simp only [live, Bool.false_eq_true, if_false] at consistent ⊢
      have resumed : Resumed before
          ⟨{ before.state with runs := { run with started := true } :: before.state.runs.erase run },
            before.first, before.previous,
            before.events ++ [.called run.timer before.previous before.state.lastTs]⟩ run
          [.called run.timer before.previous before.state.lastTs] := by
        refine ⟨⟨_, (Function.update_eq_self _ _).symm⟩, fun _ _ _ => Iff.rfl,
          fun ts plugged => absurd plugged (inv.consistent.apart mem), fun other different => ?_,
          fun other other_mem timer_eq => ?_, ⟨rfl, rfl, rfl, rfl, rfl, rfl⟩, rfl⟩
        · rw [List.mem_cons, inv.consistent.mem_erase mem]
          constructor
          · rintro (rfl | ⟨other_mem, -⟩)
            · exact absurd rfl different
            · exact other_mem
          · exact fun other_mem => .inr ⟨other_mem, different⟩
        · rcases List.mem_cons.mp other_mem with rfl | other_mem
          · rfl
          · exact absurd timer_eq ((inv.consistent.mem_erase mem).mp other_mem).2
      have one_more := resumed.count_eq run.timer
      simp only [List.countP_singleton, Event.calls, decide_true, if_true] at one_more
      refine inv.resumed resumed mem consistent (.inr ⟨rfl, live, fun once => ?_⟩) fun _ => ?_
      · obtain ⟨none, later⟩ := uncalled once
        refine ⟨none, later, ?_⟩
        rw [none] at due
        simp only [Watched.due, Nat.cast_zero, zero_mul, add_zero] at due
        exact due ▸ reached
      · refine .running { run with started := true } List.mem_cons_self rfl rfl ?_ ?_ reached ?_
        · rw [one_more]
          exact Nat.succ_pos _
        · rw [one_more, Nat.add_sub_cancel]
          exact due
        · intro once
          rw [one_more, (uncalled once).1]

/-- The next `next_ts` of a timer whose callback returns is a period after the one before it. -/
theorem Inv.later_eq (started : run.started = true)
    (live : (before.state.timers run.timer).cancelFlag = false) :
    before.state.later run.timer = before.due run.timer (before.count run.timer) := by
  obtain ⟨-, -, running⟩ := inv.placed_run mem live
  obtain ⟨called, due, -⟩ := running started
  obtain ⟨calls, calls_eq⟩ := Nat.exists_eq_succ_of_ne_zero called.ne'
  rw [calls_eq, Nat.succ_eq_add_one, Nat.add_sub_cancel] at due
  rw [calls_eq, Nat.succ_eq_add_one, before.due_succ, ← due]
  rfl

/-- The callback of a loop timer returns, and the timer is plugged again. -/
theorem Inv.replug (started : run.started = true)
    (loop : (before.state.timers run.timer).isLoop = true)
    (late : run.now < before.state.later run.timer)
    (consistent : Consistent (((({ before.state with runs := before.state.runs.erase run } : State).setTimer run.timer { before.state.timers run.timer with nextTs := before.state.later run.timer })).plug run.timer))
    :
    Inv
      { before with
        state :=
          (({ before.state with runs := before.state.runs.erase run } : State).setTimer run.timer
            { before.state.timers run.timer with nextTs := before.state.later run.timer }).plug
              run.timer } := by
  have resumed : Resumed before
      { before with
        state :=
          (({ before.state with runs := before.state.runs.erase run } : State).setTimer run.timer
            { before.state.timers run.timer with nextTs := before.state.later run.timer }).plug
              run.timer } run [] := by
    refine ⟨⟨before.state.later run.timer, rfl⟩, fun other different ts => ?_, fun ts plugged => ?_,
      fun other different => ?_, fun other other_mem timer_eq => ?_, ⟨rfl, rfl, rfl, rfl, rfl, rfl⟩,
      (List.append_nil _).symm⟩
    · simp only [State.plug, State.setTimer, Function.update_self, Function.update_apply]
      split
      · rename_i equal
        rw [equal, List.mem_append, List.mem_singleton]
        exact or_iff_left different
      · exact Iff.rfl
    · simp only [State.plug, State.setTimer, Function.update_self, Function.update_apply] at plugged
      split at plugged
      · rename_i equal
        rw [equal]
        exact (inv.ahead mem).1.trans_lt late
      · exact absurd plugged (inv.consistent.apart mem)
    · exact (inv.consistent.mem_erase mem).trans (and_iff_left different)
    · exact absurd timer_eq ((inv.consistent.mem_erase mem).mp other_mem).2
  refine inv.resumed resumed mem consistent (.inl rfl) fun live => ?_
  obtain ⟨reached, -, running⟩ := inv.placed_run mem live
  refine .plugged ?_ ?_ (fun _ => ?_) fun not_loop => ?_
  · simp only [State.plug, State.setTimer, Function.update_self]
    exact List.mem_append_right _ (List.mem_singleton_self _)
  · rw [resumed.due_eq, resumed.count_eq]
    simp only [State.plug, State.setTimer, Function.update_self]
    exact inv.later_eq mem started live
  · rw [resumed.due_eq]
    exact (running started).2.1 ▸ reached
  · rw [(resumed.same _).1] at not_loop
    cases loop.symm.trans not_loop

theorem Inv.again (started : run.started = true) (again : before.state.Again run)
    (punctual : before.state.later run.timer ≤ before.state.lastTs)
    (consistent : Consistent (before.state.setTimer run.timer { before.state.timers run.timer with nextTs := before.state.later run.timer }))
    :
    Inv
      { before with
        state := before.state.setTimer run.timer
          { before.state.timers run.timer with nextTs := before.state.later run.timer }
        events := before.events ++ [.called run.timer before.previous before.state.lastTs] } := by
  obtain ⟨loop, -, live⟩ := again
  have resumed : Resumed before
      { before with
        state := before.state.setTimer run.timer
          { before.state.timers run.timer with nextTs := before.state.later run.timer }
        events := before.events ++ [.called run.timer before.previous before.state.lastTs] } run
      [.called run.timer before.previous before.state.lastTs] :=
    ⟨⟨before.state.later run.timer, rfl⟩, fun _ _ _ => Iff.rfl,
      fun ts plugged => absurd plugged (inv.consistent.apart mem), fun _ _ => Iff.rfl,
      fun other other_mem timer_eq => by rw [inv.consistent.run_unique mem other_mem timer_eq],
      ⟨rfl, rfl, rfl, rfl, rfl, rfl⟩, rfl⟩
  have one_more := resumed.count_eq run.timer
  simp only [List.countP_singleton, Event.calls, decide_true, if_true] at one_more
  have not_once : (before.state.timers run.timer).isLoop ≠ false := by
    rw [loop]
    decide
  refine inv.resumed resumed mem consistent (.inr ⟨rfl, live, fun once => absurd once not_once⟩) fun _ => ?_
  refine .running run mem rfl started ?_ ?_ ?_ fun once => ?_
  · rw [one_more]
    exact Nat.succ_pos _
  · rw [one_more, Nat.add_sub_cancel, resumed.due_eq]
    simp only [State.setTimer, Function.update_self]
    exact inv.later_eq mem started live
  · simp only [State.setTimer, Function.update_self]
    exact punctual
  · rw [(resumed.same _).1] at once
    exact absurd once not_once

theorem Inv.finish (started : run.started = true) (punctual : before.Punctual (.finish run)) :
    Inv
      { before with
        state := before.state.finish run
        events := before.events ++ before.state.emits before.previous (.finish run) } := by
  have consistent := (finish_spec inv.consistent mem).1
  have same_timers : before.state.timers = Function.update before.state.timers run.timer
      { before.state.timers run.timer with
        nextTs := (before.state.timers run.timer).nextTs } :=
    (Function.update_eq_self _ _).symm
  by_cases loop : (before.state.timers run.timer).isLoop = true
  · by_cases late : run.now < before.state.later run.timer
    · have emits : before.state.emits before.previous (.finish run) = [] := by
        simp [State.emits, State.Again, late.not_ge]
      have finished : before.state.finish run =
          (({ before.state with runs := before.state.runs.erase run } : State).setTimer run.timer
            { before.state.timers run.timer with nextTs := before.state.later run.timer }).plug
              run.timer := by
        unfold State.finish State.later
        unfold State.later at late
        simp only [loop, late, if_true]
      rw [finished] at consistent
      rw [emits, List.append_nil, finished]
      exact inv.replug mem started loop late consistent
    · by_cases cancelled : (before.state.timers run.timer).cancelFlag = true
      · have emits : before.state.emits before.previous (.finish run) = [] := by
          simp [State.emits, State.Again, cancelled]
        have finished : before.state.finish run =
            ({ before.state with runs := before.state.runs.erase run } : State).setTimer run.timer
              { before.state.timers run.timer with nextTs := before.state.later run.timer } := by
          unfold State.finish State.later
          unfold State.later at late
          simp only [loop, late, cancelled, if_true, if_false]
        rw [finished] at consistent
        rw [emits, List.append_nil, finished]
        refine inv.ended mem consistent rfl ⟨_, rfl⟩ rfl ⟨rfl, rfl, rfl, rfl, rfl, rfl⟩ rfl
          fun live => ?_
        rw [cancelled] at live
        cases live
      · have again : before.state.Again run :=
          ⟨loop, not_lt.mp late, Bool.eq_false_iff.mpr cancelled⟩
        have emits : before.state.emits before.previous (.finish run) =
            [.called run.timer before.previous before.state.lastTs] := if_pos again
        have finished : before.state.finish run =
            before.state.setTimer run.timer
              { before.state.timers run.timer with nextTs := before.state.later run.timer } := by
          unfold State.finish State.later
          unfold State.later at late
          simp only [loop, late, cancelled, if_true, if_false, Bool.false_eq_true]
        rw [finished] at consistent
        rw [emits, finished]
        exact inv.again mem started again (punctual again) consistent
  · have emits : before.state.emits before.previous (.finish run) = [] := by
      simp [State.emits, State.Again, loop]
    have finished : before.state.finish run =
        { before.state with runs := before.state.runs.erase run } := by
      unfold State.finish
      simp only [loop, Bool.false_eq_true, if_false]
    rw [finished] at consistent
    rw [emits, List.append_nil, finished]
    refine inv.ended mem consistent rfl ⟨_, same_timers⟩ rfl ⟨rfl, rfl, rfl, rfl, rfl, rfl⟩ rfl
      fun live => ?_
    obtain ⟨reached, -, running⟩ := inv.placed_run mem live
    obtain ⟨-, -, once⟩ := running started
    have not_loop := Bool.eq_false_iff.mpr loop
    refine .done ⟨fun other other_mem timer_eq => ?_, fun ts => inv.consistent.apart mem⟩ not_loop
      (once not_loop) reached
    exact ((inv.consistent.mem_erase mem).mp other_mem).2 timer_eq

end

end

/-- A step of a service whose callbacks do not yield keeps the invariant if no loop timer runs ahead
of the wheel in it. -/
theorem step_inv {label : Label} (inv : Inv before)
    (punctual : before.Punctual label) (taken : before.step label = some after) : Inv after := by
  obtain ⟨atomic, state, stepped, rfl⟩ := Watched.step_eq taken
  have consistent := (Wheel.step_spec inv.consistent stepped).1
  cases label with
  | tick =>
      cases stepped
      exact inv.still consistent rfl rfl rfl rfl rfl rfl rfl (.inl rfl) (List.append_nil _)
        (fun mem => (inv.ahead mem).2) inv.target
  | new duration isLoop delay passed =>
      obtain ⟨checking, stepped⟩ := Option.ite_none_right_eq_some.mp stepped
      cases stepped
      have created := inv.new duration isLoop delay passed checking
      have first : before.firstAfter (before.state.new duration isLoop delay passed)
          (.new duration isLoop delay passed) =
          Function.update before.first (before.state.guid + 1)
            (before.state.now + passed + wholeTicks (delay.getD duration)) := by
        have newest : (before.state.new duration isLoop delay passed).timers
            (before.state.guid + 1) =
              { duration := wholeTicks duration
                isLoop
                nextTs := before.state.now + passed + wholeTicks (delay.getD duration) } :=
          Function.update_self _ _ _
        exact congrArg (Function.update before.first (before.state.guid + 1))
          (congrArg Timer.nextTs newest)
      rw [first]
      simp only [State.emits, List.append_nil]
      exact created
  | cancel timer =>
      obtain ⟨⟨-, positive, created⟩, stepped⟩ := Option.ite_none_right_eq_some.mp stepped
      cases stepped
      cases live : (before.state.timers timer).cancelFlag with
      | false => exact inv.cancel ⟨positive, created⟩ live
      | true =>
          have unchanged : before.state.cancel timer = before.state := by
            simp [State.cancel, live]
          have emits : before.state.emits before.previous (.cancel timer) = [] := by
            simp [State.emits, live]
          rw [unchanged, emits, List.append_nil]
          exact inv
  | check =>
      obtain ⟨⟨-, started⟩, stepped⟩ := Option.ite_none_right_eq_some.mp stepped
      cases stepped
      have idle : before.state.runs = [] := atomic
      refine inv.still consistent rfl rfl rfl rfl rfl rfl rfl (.inr idle) (List.append_nil _)
        (fun mem => ?_) fun checking => ?_
      · rw [idle] at mem
        cases mem
      · cases checking
        exact ⟨inv.consistent.lastTs_le started, le_rfl⟩
  | expire =>
      simp only [Wheel.step] at stepped
      split at stepped
      · rename_i target checking
        obtain ⟨behind, stepped⟩ := Option.ite_none_right_eq_some.mp stepped
        cases stepped
        simp only [State.emits, List.append_nil]
        exact inv.expire checking behind
      · cases stepped
  | caughtUp =>
      simp only [Wheel.step] at stepped
      split at stepped
      · obtain ⟨-, stepped⟩ := Option.ite_none_left_eq_some.mp stepped
        cases stepped
        refine inv.still consistent rfl rfl rfl rfl rfl rfl rfl (.inl rfl) (List.append_nil _)
          (fun _ _ checking => ?_) fun checking => ?_
        · cases checking
        · cases checking
      · cases stepped
  | start run =>
      obtain ⟨⟨-, mem, unstarted⟩, stepped⟩ := Option.ite_none_right_eq_some.mp stepped
      cases stepped
      exact inv.start mem unstarted
  | finish run =>
      obtain ⟨⟨-, mem, started⟩, stepped⟩ := Option.ite_none_right_eq_some.mp stepped
      cases stepped
      exact inv.finish mem started punctual

/-- In a service whose callbacks do not yield, timers do what they are for in every state of a run in
which no loop timer runs ahead of the wheel. -/
theorem timers_lawful {now : Int} {labels : List Label}
    (punctual : Execution.Guarded Watched.step Watched.Punctual (Watched.initial now) labels) :
    Execution.Always Watched.step Watched.Lawful (Watched.initial now) labels :=
  (Execution.always_of_guarded step_inv punctual (initial_inv now)).mono fun _ inv => inv.lawful

/-- The coroutine that the first timer is given when the clock has passed another deadline since the
check read it. -/
def aheadCoroutine : Run := { timer := 1, now := 2, started := true }

/-- A loop timer and one that does not loop, up to the first callback of the loop timer. -/
def firstCall : List Label :=
  [.new 1 true none 0, .new 2 false none 0, .tick, .check, .expire, .expire, .caughtUp,
    .start firstRun, .finish { firstRun with started := true }]

theorem timers_lawful_firstCall :
    (Execution.run Watched.step (Watched.initial 0) firstCall).isSome ∧
      Execution.Always Watched.step Watched.Lawful (Watched.initial 0) firstCall :=
  ⟨rfl, timers_lawful (by decide)⟩

/-- The loop timer is called at its first deadline, again at its second one, which the clock has
passed since the check read it, and cancels itself. -/
def aheadRun : List Label :=
  [.new 1 true none 0, .new 2 false none 0, .tick, .check, .expire, .tick, .expire, .caughtUp,
    .start { aheadCoroutine with started := false }, .finish aheadCoroutine, .cancel 1]

/-- The other timer is in the slot of the second deadline, and is removed from it. -/
theorem aheadRun_not_lawful :
    ∃ watched, Execution.run Watched.step (Watched.initial 0) aheadRun = some watched ∧
      ¬ watched.Lawful :=
  ⟨_, rfl, fun lawful => lawful.others 2 (by decide)⟩

end UEServer.Wheel
