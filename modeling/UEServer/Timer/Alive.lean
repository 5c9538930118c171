import Mathlib.Data.Rat.Floor
import Mathlib.Data.List.Induction
import Mathlib.Data.List.Nodup
import UEServer.Timer.Wheel

/-!
# When loop timers stay alive

A timer is in one place at a time: in one slot, or in one forked coroutine.  So a loop timer that
is dropped from the wheel is lost, and a step that can drop one does.
-/

namespace UEServer.Wheel

/-- A timer is in one place at a time, and time does not run ahead of the clock. -/
structure Consistent (state : State) : Prop where
  /-- A timer is plugged into the slot of its `next_ts`. -/
  slot : ∀ {ts timer}, timer ∈ state.timerHub ts →
    (state.timers timer).nextTs = ts ∧ timer ≤ state.guid
  slot_nodup : ∀ ts, (state.timerHub ts).Nodup
  runs_nodup : (state.runs.map Run.timer).Nodup
  runs_le : ∀ {run}, run ∈ state.runs → run.timer ≤ state.guid
  apart : ∀ {run ts}, run ∈ state.runs → run.timer ∉ state.timerHub ts
  lastTs_le : state.checkStarted = true → state.lastTs ≤ state.now
  checking_le : ∀ {target}, state.checking = some target →
    target ≤ state.now ∧ state.checkStarted = true
  unstarted : state.checkStarted = false → ∀ timer, (state.timers timer).isLoop = false

theorem initial_consistent (now : Int) : Consistent (initial now) := by
  constructor <;> simp [initial]

theorem initial_alive (now : Int) : (initial now).Alive := by
  rintro timer ⟨loop, -⟩
  cases loop

theorem one_le_wholeTicks (n : Rat) : 1 ≤ wholeTicks n := by
  unfold wholeTicks
  split
  · rename_i large
    exact Rat.le_floor_iff.mpr (by exact_mod_cast large.le)
  · exact le_rfl

section
variable {state : State}

theorem Consistent.run_unique (consistent : Consistent state) {run other : Run}
    (mem : run ∈ state.runs) (other_mem : other ∈ state.runs) (same : other.timer = run.timer) :
    other = run :=
  List.inj_on_of_nodup_map consistent.runs_nodup other_mem mem same

theorem Consistent.nodup_runs (consistent : Consistent state) : state.runs.Nodup :=
  List.Nodup.of_map _ consistent.runs_nodup

theorem Consistent.mem_erase (consistent : Consistent state) {run other : Run}
    (mem : run ∈ state.runs) :
    other ∈ state.runs.erase run ↔ other ∈ state.runs ∧ other.timer ≠ run.timer := by
  rw [consistent.nodup_runs.mem_erase_iff]
  constructor
  · rintro ⟨different, other_mem⟩
    exact ⟨other_mem, fun same => different (consistent.run_unique mem other_mem same)⟩
  · rintro ⟨other_mem, different⟩
    exact ⟨fun same => different (by rw [same]), other_mem⟩

theorem mem_removeFrom {slot : List Nat} (nodup : slot.Nodup) (self other : Nat) :
    other ∈ State.removeFrom slot self ↔
      other ∈ slot ∧ other ≠ self ∧ (self ∉ slot → slot.getLast? ≠ some other) := by
  unfold State.removeFrom
  split
  · rw [nodup.mem_erase_iff]
    tauto
  · induction slot using List.reverseRecOn with
    | nil => simp
    | append_singleton front last _ =>
        grind

theorem removeFrom_nodup {slot : List Nat} (nodup : slot.Nodup) (self : Nat) :
    (State.removeFrom slot self).Nodup := by
  unfold State.removeFrom
  split
  · exact nodup.erase self
  · exact nodup.sublist (List.dropLast_sublist _)

section
variable (consistent : Consistent state)
include consistent

theorem new_spec (duration : Rat) (isLoop : Bool) (delay : Option Rat) (passed : Nat) :
    Consistent (state.new duration isLoop delay passed) ∧
      (state.Alive → (state.new duration isLoop delay passed).Alive) := by
  have wait := one_le_wholeTicks (delay.getD duration)
  obtain ⟨slot, slot_nodup, runs_nodup, runs_le, apart, lastTs_le, checking_le, unstarted⟩ :=
    consistent
  have start : state.startCheck.lastTs ≤ state.now ∧
      (state.checkStarted = true → state.startCheck.lastTs = state.lastTs) ∧
      state.startCheck.checkStarted = true ∧ state.startCheck.timers = state.timers ∧
      state.startCheck.timerHub = state.timerHub ∧ state.startCheck.runs = state.runs ∧
      state.startCheck.checking = state.checking := by
    unfold State.startCheck
    split
    · rename_i started
      exact ⟨lastTs_le started, fun _ => rfl, started, rfl, rfl, rfl, rfl⟩
    · rename_i stopped
      exact ⟨by simp, fun started => absurd started stopped, rfl, rfl, rfl, rfl, rfl⟩
  obtain ⟨start_le, start_eq, started, timers, hub, runs, checking⟩ := start
  refine ⟨?_, fun alive timer live => ?_⟩
  · constructor <;>
      simp only [State.new, State.plug, State.setTimer, Function.update_apply, timers, hub, runs,
        checking, started] at *
    all_goals grind
  · simp only [State.new, State.plug, State.setTimer, Function.update_apply, State.Live,
      State.InCallback, State.Plugged, timers, hub, runs] at live ⊢
    by_cases new : timer = state.guid + 1
    · subst new
      refine .inr ⟨state.now + passed + wholeTicks (delay.getD duration), by omega, ?_⟩
      simp
    · rw [if_neg new] at live
      rcases alive timer live with running | ⟨ts, after, mem⟩
      · exact .inl running
      · have awake : state.checkStarted = true := by
          cases stopped : state.checkStarted with
          | true => rfl
          | false => exact absurd live.1 (by simp [unstarted stopped timer])
        exact .inr ⟨ts, by grind, by grind⟩

/-- Cancelling takes the timer out of its slot, or the last entry of that slot. -/
theorem cancel_spec (timer : Nat) :
    Consistent (state.cancel timer) ∧
      (state.Alive → ((state.cancel timer).Alive ↔ Keeps state (.cancel timer))) := by
  unfold State.cancel
  by_cases cancelled : (state.timers timer).cancelFlag = true
  · simp only [cancelled, if_true, Keeps]
    exact ⟨consistent, fun alive => ⟨by simp, fun _ => alive⟩⟩
  · have remaining := fun ts => mem_removeFrom (consistent.slot_nodup ts) timer
    have remaining_nodup := fun ts => removeFrom_nodup (consistent.slot_nodup ts) timer
    simp only [cancelled, Bool.false_eq_true, if_false]
    refine ⟨?_, fun alive => ⟨fun after _ missing last is_last live => ?_,
      fun keeps other live => ?_⟩⟩
    · obtain ⟨slot, slot_nodup, runs_nodup, runs_le, apart, lastTs_le, checking_le, unstarted⟩ :=
        consistent
      constructor <;> simp only [State.setTimer, Function.update_apply] at *
      all_goals grind
    · have mem : last ∈ state.timerHub (state.timers timer).nextTs :=
        List.mem_of_getLast? is_last
      have other : last ≠ timer := fun same => missing (same ▸ mem)
      rcases after last (by simpa [State.Live, State.setTimer, other] using live) with
        ⟨run, run_mem, rfl⟩ | ⟨ts, later, plugged⟩
      · exact consistent.apart run_mem mem
      · simp only [State.setTimer, Function.update_apply] at plugged
        split at plugged
        · exact ((remaining _ _).mp plugged).2.2 missing is_last
        · rename_i elsewhere
          exact elsewhere ((consistent.slot plugged).1.symm.trans (consistent.slot mem).1)
    · have different : other ≠ timer := by
        rintro rfl
        simp [State.Live, State.setTimer] at live
      have live_before : state.Live other := by
        simpa [State.Live, State.setTimer, different] using live
      rcases alive other live_before with running | ⟨ts, later, plugged⟩
      · exact .inl running
      · refine .inr ⟨ts, later, ?_⟩
        simp only [State.setTimer, Function.update_apply]
        split
        · rename_i same
          subst same
          refine (remaining _ _).mpr ⟨plugged, different, fun missing is_last => ?_⟩
          exact keeps (by simpa using cancelled) missing other is_last live_before
        · exact plugged

theorem expire_spec {target : Int} (checking : state.checking = some target)
    (behind : state.lastTs < target) :
    Consistent (State.expire { state with lastTs := state.lastTs + 1 } (state.lastTs + 1)) ∧
      (state.Alive →
        (State.expire { state with lastTs := state.lastTs + 1 } (state.lastTs + 1)).Alive) := by
  obtain ⟨slot, slot_nodup, runs_nodup, runs_le, apart, lastTs_le, checking_le, unstarted⟩ :=
    consistent
  refine ⟨?_, fun alive timer live => ?_⟩
  · constructor <;> simp only [State.expire, Function.update_apply, List.map_append, List.map_map]
    all_goals grind
  · rcases alive timer live with ⟨run, mem, same⟩ | ⟨ts, after, mem⟩
    · exact .inl ⟨run, List.mem_append_left _ mem, same⟩
    · by_cases next : ts = state.lastTs + 1
      · subst next
        refine .inl ⟨{ timer, now := state.now, started := false }, ?_, rfl⟩
        exact List.mem_append_right _ (List.mem_map.mpr ⟨timer, mem, rfl⟩)
      · refine .inr ⟨ts, ?_, ?_⟩
        · change state.lastTs + 1 < ts
          omega
        · simpa [State.expire, next] using mem

/-- A queued coroutine calls the callback unless its timer has been cancelled. -/
theorem start_spec {run : Run} (mem : run ∈ state.runs) :
    Consistent (state.start run) ∧ (state.Alive → (state.start run).Alive) := by
  have remaining : ∀ other, other ∈ state.runs.erase run ↔
      other ∈ state.runs ∧ other.timer ≠ run.timer := fun _ => consistent.mem_erase mem
  obtain ⟨slot, slot_nodup, runs_nodup, runs_le, apart, lastTs_le, checking_le, unstarted⟩ :=
    consistent
  unfold State.start
  split
  · rename_i cancelled
    refine ⟨?_, fun alive timer live => ?_⟩
    · constructor <;> grind
    · rcases alive timer live with ⟨other, other_mem, rfl⟩ | plugged
      · refine .inl ⟨other, (remaining other).mpr ⟨other_mem, fun same => ?_⟩, rfl⟩
        have := live.2
        simp [same, cancelled] at this
      · exact .inr plugged
  · refine ⟨?_, fun alive timer live => ?_⟩
    · constructor <;> simp only [List.map_cons, List.nodup_cons, List.mem_map, List.mem_cons]
      all_goals grind
    · rcases alive timer live with ⟨other, other_mem, rfl⟩ | plugged
      · by_cases same : other.timer = run.timer
        · exact .inl ⟨_, List.mem_cons_self, same.symm⟩
        · exact .inl ⟨other, List.mem_cons_of_mem _ ((remaining other).mpr ⟨other_mem, same⟩), rfl⟩
      · exact .inr plugged

/-- After its callback a timer is plugged again, or called again, or done. -/
theorem finish_spec {run : Run} (mem : run ∈ state.runs) :
    Consistent (state.finish run) ∧
      (state.Alive → ((state.finish run).Alive ↔ Keeps state (.finish run))) := by
  have remaining : ∀ other, other ∈ state.runs.erase run ↔
      other ∈ state.runs ∧ other.timer ≠ run.timer := fun _ => consistent.mem_erase mem
  have others : ∀ other, other ≠ run.timer → state.InCallback other →
      ∃ another ∈ state.runs.erase run, another.timer = other := by
    rintro other different ⟨another, another_mem, rfl⟩
    exact ⟨another, (remaining another).mpr ⟨another_mem, different⟩, rfl⟩
  have gone : ¬ ∃ another ∈ state.runs.erase run, another.timer = run.timer := by
    rintro ⟨another, another_mem, same⟩
    exact ((remaining another).mp another_mem).2 same
  obtain ⟨slot, slot_nodup, runs_nodup, runs_le, apart, lastTs_le, checking_le, unstarted⟩ :=
    consistent
  unfold State.finish
  by_cases loop : (state.timers run.timer).isLoop = true
  · by_cases late : run.now < (state.timers run.timer).nextTs + (state.timers run.timer).duration
    · simp only [loop, late, if_true]
      refine ⟨?_, fun alive => ⟨fun after live _ => ?_, fun keeps timer live => ?_⟩⟩
      · constructor <;> simp only [State.plug, State.setTimer, Function.update_apply] at *
        all_goals grind
      · rcases after run.timer (by simpa [State.Live, State.plug, State.setTimer, loop] using live) with
          running | ⟨ts, later, plugged⟩
        · exact absurd running gone
        · simp only [State.plug, State.setTimer, Function.update_apply] at plugged later
          grind
      · by_cases same : timer = run.timer
        · subst same
          refine .inr ⟨(state.timers run.timer).nextTs + (state.timers run.timer).duration,
            keeps (by simpa [State.Live, State.plug, State.setTimer, loop] using live) late, ?_⟩
          simp [State.plug, State.setTimer]
        · rcases alive timer (by simpa [State.Live, State.plug, State.setTimer, same] using live)
            with running | ⟨ts, later, plugged⟩
          · exact .inl (others timer same running)
          · refine .inr ⟨ts, later, ?_⟩
            simp only [State.plug, State.setTimer, Function.update_apply]
            grind
    · have keeps : Keeps state (.finish run) := fun _ early => absurd early late
      by_cases cancelled : (state.timers run.timer).cancelFlag = true
      · simp only [loop, late, cancelled, if_true, if_false]
        refine ⟨?_, fun alive => ⟨fun _ => keeps, fun _ timer live => ?_⟩⟩
        · constructor <;> simp only [State.setTimer, Function.update_apply] at *
          all_goals grind
        · have different : timer ≠ run.timer := by
            rintro rfl
            simp [State.Live, State.setTimer] at live
          rcases alive timer (by simpa [State.Live, State.setTimer, different] using live)
            with running | plugged
          · exact .inl (others timer different running)
          · exact .inr plugged
      · simp only [loop, late, cancelled, if_true, if_false, Bool.false_eq_true]
        refine ⟨?_, fun alive => ⟨fun _ => keeps, fun _ timer live => ?_⟩⟩
        · constructor <;> simp only [State.setTimer, Function.update_apply] at *
          all_goals grind
        · by_cases same : timer = run.timer
          · exact .inl ⟨run, mem, same.symm⟩
          · exact alive timer (by simpa [State.Live, State.setTimer, same] using live)
  · have keeps : Keeps state (.finish run) := fun live => absurd live.1 loop
    simp only [loop, Bool.false_eq_true, if_false]
    refine ⟨?_, fun alive => ⟨fun _ => keeps, fun _ timer live => ?_⟩⟩
    · constructor <;> grind
    · have different : timer ≠ run.timer := by
        rintro rfl
        exact loop live.1
      rcases alive timer live with running | plugged
      · exact .inl (others timer different running)
      · exact .inr plugged

/-- Every step keeps the timers consistent, and keeps the loop timers alive exactly if it drops
none. -/
theorem step_spec {after : State} {label : Label} (taken : step state label = some after) :
    Consistent after ∧ (state.Alive → (after.Alive ↔ Keeps state label)) := by
  cases label with
  | tick =>
      cases taken
      refine ⟨{ consistent with lastTs_le := ?_, checking_le := ?_ },
        fun alive => ⟨fun _ => trivial, fun _ => alive⟩⟩
      · intro started
        exact (consistent.lastTs_le started).trans (by simp)
      · intro target checking
        obtain ⟨le, started⟩ := consistent.checking_le checking
        exact ⟨le.trans (by simp), started⟩
  | new duration isLoop delay passed =>
      simp only [step] at taken
      split at taken
      · cases taken
        obtain ⟨consistent', alive'⟩ := new_spec consistent duration isLoop delay passed
        exact ⟨consistent', fun alive => ⟨fun _ => trivial, fun _ => alive' alive⟩⟩
      · cases taken
  | cancel timer =>
      simp only [step] at taken
      split at taken
      · cases taken
        exact cancel_spec consistent timer
      · cases taken
  | check =>
      simp only [step] at taken
      split at taken
      · rename_i idle
        cases taken
        refine ⟨{ consistent with checking_le := ?_ },
          fun alive => ⟨fun _ => trivial, fun _ => alive⟩⟩
        intro target checking
        cases checking
        exact ⟨le_rfl, idle.2⟩
      · cases taken
  | expire =>
      simp only [step] at taken
      split at taken
      · rename_i target checking
        split at taken
        · rename_i behind
          cases taken
          obtain ⟨consistent', alive'⟩ := expire_spec consistent checking behind
          exact ⟨consistent', fun alive => ⟨fun _ => trivial, fun _ => alive' alive⟩⟩
        · cases taken
      · cases taken
  | caughtUp =>
      simp only [step] at taken
      split at taken
      · split at taken
        · cases taken
        · cases taken
          exact ⟨{ consistent with checking_le := by simp },
            fun alive => ⟨fun _ => trivial, fun _ => alive⟩⟩
      · cases taken
  | start run =>
      simp only [step] at taken
      split at taken
      · rename_i queued
        cases taken
        obtain ⟨consistent', alive'⟩ := start_spec consistent queued.2.1
        exact ⟨consistent', fun alive => ⟨fun _ => trivial, fun _ => alive' alive⟩⟩
      · cases taken
  | finish run =>
      simp only [step] at taken
      split at taken
      · rename_i running
        cases taken
        exact finish_spec consistent running.2.1
      · cases taken

end

end

/-- No live loop timer is dropped in an execution exactly if no step of it drops one. -/
theorem loop_timers_alive_iff {now : Int} {labels : List Label} {state : State}
    (execution : Execution.run step (initial now) labels = some state) :
    Execution.Always step State.Alive (initial now) labels ↔
      Execution.Guarded step Keeps (initial now) labels := by
  refine Execution.always_iff_guarded (fun consistent _ taken => (step_spec consistent taken).1) ?_
    execution (initial_consistent now) (initial_alive now)
  intro before label after consistent alive taken
  exact (step_spec consistent taken).2 alive

/-- The coroutine that the first timer is given at the second tick of the clock. -/
def firstRun : Run := { timer := 1, now := 1, started := false }

/-- A loop timer whose callback returns before the next tick. -/
theorem loop_timers_alive_iff_quickRun :
    Execution.Always step State.Alive (initial 0)
      [.new 1 true none 0, .tick, .check, .expire, .expire, .caughtUp, .start firstRun,
        .finish { firstRun with started := true }] :=
  (loop_timers_alive_iff rfl).mpr (by decide)

/-- A loop timer whose callback returns after the slot of its next call has expired. -/
def slowRun : List Label :=
  [.new 1 true none 0, .tick, .check, .expire, .expire, .caughtUp, .start firstRun,
    .tick, .check, .expire, .caughtUp, .finish { firstRun with started := true }]

/-- Its timer is plugged into a slot that has expired. -/
theorem slowRun_not_alive :
    ¬ ∀ (now : Int) (labels : List Label) (state : State),
      Execution.run step (initial now) labels = some state → state.Alive := by
  intro claim
  have ends : ∃ state, Execution.run step (initial 0) slowRun = some state ∧ state.runs = [] ∧
      state.lastTs = 2 ∧ (state.timers 1).nextTs = 2 ∧ state.Live 1 := by
    exact ⟨_, rfl, rfl, rfl, rfl, rfl, rfl⟩
  obtain ⟨state, execution, idle, lastTs, nextTs, live⟩ := ends
  have consistent := Execution.run_invariant
    (fun consistent taken => (step_spec consistent taken).1) execution (initial_consistent 0)
  rcases claim 0 slowRun state execution 1 live with ⟨run, mem, -⟩ | ⟨ts, later, mem⟩
  · rw [idle] at mem
    cases mem
  · have := (consistent.slot mem).1
    omega

/-- A timer is in one place at a time in every execution, also while callbacks yield. -/
theorem timers_in_one_place (now : Int) (labels : List Label) :
    Execution.Always step Consistent (initial now) labels :=
  Execution.always_invariant (fun consistent taken => (step_spec consistent taken).1)
    (initial_consistent now)

end UEServer.Wheel
