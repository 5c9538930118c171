import Mathlib.Tactic.Linarith
import UEServer.Recovery.Basic

/-!
# Offline recovery equals online recovery

A role is compared with its twin, to which the same happens without its ever being offline.  While the
role is loaded both have the same timer; while it is not, the twin is what the stored record recovers to.
-/

namespace UEServer.Recovery

open Execution

section
variable {counter : Counter} {frac : ℤ} {role twin : RoleState}

def Counter.periodOf (counter : Counter) (role : RoleState) : ℤ :=
  counter.startTime role.level

theorem periodOf_pos (role : RoleState) : 0 < counter.periodOf role :=
  counter.startTime_pos role.level

/-- The timer of a counter below its limit: it is called one period after the timestamp. -/
structure Running (counter : Counter) (frac : ℤ) (role : RoleState) : Prop where
  timer : role.timer =
    some ⟨(role.ts + counter.periodOf role) * 100 + frac, counter.periodOf role⟩
  since : role.ts * 100 + frac ≤ role.now
  before : role.now < (role.ts + counter.periodOf role) * 100 + frac
  /-- `frac` is a hundredth. -/
  nonneg : 0 ≤ frac
  /-- `frac` is one of the hundredths of a second. -/
  small : frac < 100

/-- The timer of a loaded role runs while the counter is below its limit. -/
structure Ticking (counter : Counter) (frac : ℤ) (role : RoleState) : Prop where
  loaded : role.loaded = true
  running : role.num < counter.maxOf role → Running counter frac role
  stopped : counter.maxOf role ≤ role.num → role.timer = none

theorem timeSecond_of_frac {now : ℤ} (same : now % 100 = frac) :
    timeSecond now * 100 + frac = now ∧ 0 ≤ frac ∧ frac < 100 := by
  rw [timeSecond]
  omega

theorem running_timerLoop {role : RoleState} (same : role.now % 100 = frac)
    (ts : role.ts = timeSecond role.now) (timer : role.timer =
      some (timerLoop role.now (counter.periodOf role) (counter.periodOf role))) :
    Running counter frac role := by
  obtain ⟨split, nonneg, small⟩ := timeSecond_of_frac same
  have positive := @periodOf_pos counter role
  refine ⟨?_, by rw [ts, split], ?_, nonneg, small⟩
  · rw [timer, timerLoop, ts]
    congr 2
    linarith
  · linarith

theorem startTimer_ticking (loaded : role.loaded = true)
    (running : role.timer ≠ none → role.num < counter.maxOf role → Running counter frac role)
    (stopped : counter.maxOf role ≤ role.num → role.timer = none)
    (same : role.num < counter.maxOf role → role.timer = none → role.now % 100 = frac) :
    Ticking counter frac (counter.startTimer role) := by
  rw [Counter.startTimer]
  split
  · rename_i starts
    exact ⟨loaded, fun _ => running_timerLoop (same starts.1 starts.2) rfl rfl,
      fun reached => absurd reached (not_le.mpr starts.1)⟩
  · rename_i kept
    exact ⟨loaded, fun low => running (fun none => kept ⟨low, none⟩) low, stopped⟩

theorem pass_of_timer_none (stopped : role.timer = none) :
    counter.pass role = { role with now := role.now + 1 } := by
  simp only [Counter.pass, stopped]

theorem pass_of_due {timer : TimerLoop} (runs : role.timer = some timer)
    (due : timer.nextTs ≤ role.now + 1) :
    counter.pass role =
      { counter.recover { role with now := role.now + 1 } with
        timer := (counter.recover { role with now := role.now + 1 }).timer.map fun timer =>
          { timer with nextTs := timer.nextTs + timer.duration * 100 } } := by
  simp only [Counter.pass, runs, if_pos due]

/-- The role after its timer has been called. -/
def Counter.called (counter : Counter) (frac : ℤ) (role : RoleState) : RoleState :=
  { role with
    now := role.now + 1
    num := role.num + 1
    ts := role.ts + counter.periodOf role
    timer :=
      if counter.maxOf role ≤ role.num + 1 then none
      else some ⟨(role.ts + counter.periodOf role + counter.periodOf role) * 100 + frac,
        counter.periodOf role⟩ }

theorem recover_of_lt (low : role.num < counter.maxOf role) : counter.recover role =
    if counter.maxOf role ≤ role.num + 1 then
      { role with num := role.num + 1, ts := timeSecond role.now, timer := none }
    else { role with num := role.num + 1, ts := timeSecond role.now } := by
  rw [Counter.recover, if_pos low]
  rfl

/-- In a hundredth of a second a running timer is called exactly if it is due. -/
theorem Running.pass (running : Running counter frac role) (low : role.num < counter.maxOf role) :
    role.now + 1 < (role.ts + counter.periodOf role) * 100 + frac ∧
        counter.pass role = { role with now := role.now + 1 } ∨
      role.now + 1 = (role.ts + counter.periodOf role) * 100 + frac ∧
        counter.pass role = counter.called frac role := by
  obtain ⟨timer, -, before, nonneg, small⟩ := running
  rcases lt_or_eq_of_le (Int.add_one_le_of_lt before) with early | due
  · refine .inl ⟨early, ?_⟩
    simp only [Counter.pass, timer, if_neg (not_le.mpr early)]
  · refine .inr ⟨due, ?_⟩
    have second : timeSecond (role.now + 1) = role.ts + counter.periodOf role := by
      rw [timeSecond, due]
      omega
    have low' : ({ role with now := role.now + 1 } : RoleState).num <
        counter.maxOf { role with now := role.now + 1 } := low
    rw [pass_of_due timer due.ge, recover_of_lt low', Counter.called]
    dsimp only
    rw [second]
    have limit : counter.maxOf { role with now := role.now + 1 } = counter.maxOf role := rfl
    rw [limit]
    by_cases reached : counter.maxOf role ≤ role.num + 1
    · rw [if_pos reached, if_pos reached]
      rfl
    · rw [if_neg reached, if_neg reached]
      rw [timer, Option.map_some]
      congr 3
      linarith

theorem Ticking.pass (ticking : Ticking counter frac role) :
    Ticking counter frac (counter.pass role) := by
  rcases lt_or_ge role.num (counter.maxOf role) with low | reached
  · have running := ticking.running low
    have positive := @periodOf_pos counter role
    rcases running.pass low with ⟨early, passed⟩ | ⟨due, passed⟩
    · rw [passed]
      exact ⟨ticking.loaded, fun _ => ⟨running.timer, running.since.trans (by simp), early,
        running.nonneg, running.small⟩, fun reached => absurd reached (not_le.mpr low)⟩
    · rw [passed]
      refine ⟨ticking.loaded, fun low' => ?_, fun reached => if_pos reached⟩
      refine ⟨if_neg (not_le.mpr low'), due.ge, ?_, running.nonneg, running.small⟩
      change role.now + 1 < (role.ts + counter.periodOf role + counter.periodOf role) * 100 + frac
      linarith
  · rw [pass_of_timer_none (ticking.stopped reached)]
    exact ⟨ticking.loaded, fun low => absurd reached (not_le.mpr low), ticking.stopped⟩

/-- A loaded role is what another one, whose timer does not run, recovers to. -/
structure Recovered (counter : Counter) (frac : ℤ) (role twin : RoleState) : Prop where
  now : twin.now = role.now
  level : twin.level = role.level
  vip : twin.vip = role.vip
  ticking : Ticking counter frac twin
  idle : counter.maxOf role ≤ role.num → twin.num = role.num
  /-- Below the limit, one unit comes with each period, up to the limit. -/
  grown : role.num < counter.maxOf role →
    twin.num < counter.maxOf role ∧ role.num ≤ twin.num ∧
        twin.ts = role.ts + counter.periodOf role * (twin.num - role.num) ∨
      twin.num = counter.maxOf role ∧
        (role.ts + counter.periodOf role * (counter.maxOf role - role.num)) * 100 + frac ≤ twin.now

theorem recovered_self (ticking : Ticking counter frac role) {stopped : RoleState}
    (same : stopped = { role with timer := none, loaded := false }) :
    Recovered counter frac stopped role := by
  subst same
  refine ⟨rfl, rfl, rfl, ticking, fun _ => rfl, fun low => .inl ⟨low, le_rfl, ?_⟩⟩
  rw [Int.sub_self, Int.mul_zero, Int.add_zero]

theorem maxOf_eq {left right : RoleState} (level : left.level = right.level)
    (vip : left.vip = right.vip) : counter.maxOf left = counter.maxOf right := by
  rw [Counter.maxOf, Counter.maxOf, level, vip]

theorem Recovered.maxOf (recovered : Recovered counter frac role twin) :
    counter.maxOf twin = counter.maxOf role :=
  maxOf_eq recovered.level recovered.vip

theorem Recovered.pass (recovered : Recovered counter frac role twin) :
    Recovered counter frac { role with now := role.now + 1 } (counter.pass twin) := by
  have ticking := recovered.ticking
  have maxOf := recovered.maxOf
  have level := recovered.level
  have period : counter.periodOf twin = counter.periodOf role := congrArg counter.startTime level
  rcases lt_or_ge twin.num (counter.maxOf twin) with low | reached
  · have below : role.num < counter.maxOf role := by
      refine lt_of_not_ge fun reached => ?_
      have idle := recovered.idle reached
      omega
    have grown := recovered.grown below
    rw [maxOf] at low
    obtain ⟨-, more, since⟩ := grown.resolve_right fun full => low.ne full.1
    have passed := ticking.pass
    rcases (ticking.running (maxOf ▸ low)).pass (maxOf ▸ low) with ⟨early, next⟩ | ⟨due, next⟩
    · rw [next] at passed ⊢
      exact ⟨congrArg (· + 1) recovered.now, level, recovered.vip, passed, recovered.idle,
        fun _ => .inl ⟨low, more, since⟩⟩
    · rw [next] at passed ⊢
      refine ⟨congrArg (· + 1) recovered.now, level, recovered.vip, passed,
        fun reached => absurd reached (not_le.mpr below), fun _ => ?_⟩
      change (twin.num + 1 < counter.maxOf role ∧ role.num ≤ twin.num + 1 ∧
        twin.ts + counter.periodOf twin = role.ts + counter.periodOf role * (twin.num + 1 - role.num)) ∨
          (twin.num + 1 = counter.maxOf role ∧
            (role.ts + counter.periodOf role * (counter.maxOf role - role.num)) * 100 + frac ≤ twin.now + 1)
      rcases lt_or_eq_of_le (Int.add_one_le_of_lt low) with less | full
      · exact .inl ⟨less, by omega, by linarith⟩
      · refine .inr ⟨full, le_of_eq ?_⟩
        rw [← full]
        linarith
  · rw [pass_of_timer_none (ticking.stopped reached)]
    refine ⟨congrArg (· + 1) recovered.now, level, recovered.vip,
      ⟨ticking.loaded, fun low => absurd reached (not_le.mpr low), ticking.stopped⟩, recovered.idle,
      fun low => ?_⟩
    obtain ⟨full, elapsed⟩ := (recovered.grown low).resolve_left fun less =>
      absurd reached (not_le.mpr (maxOf ▸ less.1))
    exact .inr ⟨full, elapsed.trans (by simp)⟩

def Counter.gained (counter : Counter) (role : RoleState) : ℤ :=
  (timeSecond role.now - role.ts) / counter.periodOf role

theorem gained_spec (role : RoleState) :
    role.ts + counter.periodOf role * counter.gained role ≤ timeSecond role.now ∧
      timeSecond role.now <
        role.ts + counter.periodOf role * counter.gained role + counter.periodOf role := by
  have positive := @periodOf_pos counter role
  have split := Int.mul_ediv_add_emod (timeSecond role.now - role.ts) (counter.periodOf role)
  have nonneg := Int.emod_nonneg (timeSecond role.now - role.ts) positive.ne'
  have less := Int.emod_lt_of_pos (timeSecond role.now - role.ts) positive
  rw [Counter.gained]
  constructor <;> linarith

theorem le_gained {periods : ℤ}
    (passed : role.ts + counter.periodOf role * periods ≤ timeSecond role.now) :
    periods ≤ counter.gained role := by
  obtain ⟨-, before⟩ := @gained_spec counter role
  have positive := @periodOf_pos counter role
  have less : counter.periodOf role * periods < counter.periodOf role * (counter.gained role + 1) := by
    linarith
  exact Int.le_of_lt_add_one (lt_of_mul_lt_mul_left less positive.le)

theorem gained_le {periods : ℤ}
    (coming : timeSecond role.now <
      role.ts + counter.periodOf role * periods + counter.periodOf role) :
    counter.gained role ≤ periods := by
  obtain ⟨since, -⟩ := @gained_spec counter role
  have positive := @periodOf_pos counter role
  have less : counter.periodOf role * counter.gained role < counter.periodOf role * (periods + 1) := by
    linarith
  exact Int.le_of_lt_add_one (lt_of_mul_lt_mul_left less positive.le)

/-- The role with the units of the periods since its timestamp, and with its timer. -/
def Counter.caughtUp (counter : Counter) (frac : ℤ) (role : RoleState) : RoleState :=
  let ts := role.ts + counter.periodOf role * counter.gained role
  { role with
    num := role.num + counter.gained role
    ts := ts
    timer := some ⟨(ts + counter.periodOf role) * 100 + frac, counter.periodOf role⟩ }

theorem load_of_inPhase (phase : counter.InPhase frac role) (low : role.num < counter.maxOf role) :
    counter.load role =
      if role.num + counter.gained role < counter.maxOf role then counter.caughtUp frac role
      else { role with num := counter.maxOf role, ts := timeSecond role.now } := by
  obtain ⟨period, same⟩ := phase
  obtain ⟨second, -, -⟩ := timeSecond_of_frac same
  obtain ⟨since, before⟩ := @gained_spec counter role
  have rest : (timeSecond role.now - (role.ts + counter.periodOf role * counter.gained role)) %
      counter.periodOf role =
        timeSecond role.now - (role.ts + counter.periodOf role * counter.gained role) :=
    Int.emod_eq_of_lt (by linarith) (by linarith)
  have timer : timerLoop role.now (counter.periodOf role) (counter.periodOf role -
      (timeSecond role.now - (role.ts + counter.periodOf role * counter.gained role)) %
        counter.periodOf role) =
      ⟨(role.ts + counter.periodOf role * counter.gained role + counter.periodOf role) * 100 + frac,
        counter.periodOf role⟩ := by
    rw [rest, timerLoop]
    congr 1
    linarith
  rw [Counter.load, if_pos low, period]
  change (if counter.gained role + role.num < counter.maxOf role then
      ({ role with
        num := counter.gained role + role.num
        ts := role.ts + counter.periodOf role * counter.gained role
        timer := some (timerLoop role.now (counter.periodOf role) (counter.periodOf role -
          (timeSecond role.now - (role.ts + counter.periodOf role * counter.gained role)) %
            counter.periodOf role)) } : RoleState)
    else { role with num := counter.maxOf role, ts := timeSecond role.now }) = _
  rw [Int.add_comm (counter.gained role), timer]
  rfl

theorem load_ticking (loaded : role.loaded = true) (stopped : role.timer = none)
    (phase : role.num < counter.maxOf role → counter.InPhase frac role) :
    Ticking counter frac (counter.load role) := by
  rcases lt_or_ge role.num (counter.maxOf role) with low | reached
  · obtain ⟨second, nonneg, small⟩ := timeSecond_of_frac (phase low).2
    obtain ⟨since, before⟩ := @gained_spec counter role
    rw [load_of_inPhase (phase low) low]
    split
    · rename_i less
      refine ⟨loaded, fun _ => ⟨rfl, ?_, ?_, nonneg, small⟩,
        fun reached => absurd less (not_lt.mpr reached)⟩
      · change (role.ts + counter.periodOf role * counter.gained role) * 100 + frac ≤ role.now
        linarith
      · change role.now <
          (role.ts + counter.periodOf role * counter.gained role + counter.periodOf role) * 100 + frac
        linarith
    · exact ⟨loaded, fun low => absurd low (lt_irrefl _), fun _ => stopped⟩
  · rw [Counter.load, if_neg (not_lt.mpr reached)]
    exact ⟨loaded, fun low => absurd reached (not_le.mpr low), fun _ => stopped⟩

/-- Two roles are the same, except that a timestamp that will be set anew may differ. -/
def Alike (counter : Counter) (role twin : RoleState) : Prop :=
  twin = role ∨
    counter.maxOf role ≤ role.num ∧ role.timer = none ∧ ∃ ts, twin = { role with ts := ts }

theorem Alike.num (alike : Alike counter role twin) : twin.num = role.num := by
  rcases alike with rfl | ⟨-, -, ts, rfl⟩
  · rfl
  · rfl

theorem Alike.ticking (alike : Alike counter role twin) (ticking : Ticking counter frac twin) :
    Ticking counter frac role := by
  rcases alike with rfl | ⟨reached, stopped, ts, rfl⟩
  · exact ticking
  · exact ⟨ticking.loaded, fun low => absurd reached (not_le.mpr low), fun _ => stopped⟩

theorem alike_of_reached (reached : counter.maxOf role ≤ role.num) (stopped : role.timer = none)
    (loaded : role.loaded = true) (now : twin.now = role.now) (level : twin.level = role.level)
    (vip : twin.vip = role.vip) (num : twin.num = role.num) (ticking : Ticking counter frac twin) :
    Alike counter role twin := by
  have limit : counter.maxOf twin = counter.maxOf role := maxOf_eq level vip
  have none := ticking.stopped (by rw [limit, num]; exact reached)
  have loaded' := ticking.loaded
  refine .inr ⟨reached, stopped, twin.ts, ?_⟩
  cases twin
  simp_all

/-- Loading a role in phase makes it the same as the twin that it has recovered to. -/
theorem Recovered.load (recovered : Recovered counter frac role twin) (loaded : role.loaded = true)
    (stopped : role.timer = none)
    (phase : role.num < counter.maxOf role → counter.InPhase frac role) :
    Alike counter (counter.load role) twin := by
  obtain ⟨now, level, vip, ticking, idle, grown⟩ := recovered
  have limit : counter.maxOf twin = counter.maxOf role := maxOf_eq level vip
  have period : counter.periodOf twin = counter.periodOf role := congrArg counter.startTime level
  rcases lt_or_ge role.num (counter.maxOf role) with low | reached
  · obtain ⟨second, nonneg, small⟩ := timeSecond_of_frac (phase low).2
    rw [load_of_inPhase (phase low) low]
    rcases grown low with ⟨less, more, ts⟩ | ⟨full, elapsed⟩
    · obtain ⟨timer, since, before, -, -⟩ := ticking.running (limit ▸ less)
      have gained : counter.gained role = twin.num - role.num :=
        le_antisymm (gained_le (by omega)) (le_gained (by omega))
      have below : role.num + counter.gained role < counter.maxOf role := by omega
      rw [if_pos below]
      refine .inl ?_
      have loaded' := ticking.loaded
      have num : twin.num = role.num + counter.gained role := by omega
      rw [ts, ← gained, period] at timer
      rw [← gained] at ts
      cases twin
      subst now level vip num ts timer
      rw [Counter.caughtUp, loaded]
      exact congrArg _ loaded'
    · have enough : counter.maxOf role - role.num ≤ counter.gained role := le_gained (by omega)
      rw [if_neg (by omega)]
      exact alike_of_reached le_rfl stopped loaded now level vip full ticking
  · rw [Counter.load, if_neg (not_lt.mpr reached)]
    exact alike_of_reached reached stopped loaded now level vip (idle reached) ticking

theorem Recovered.num (recovered : Recovered counter frac role twin) :
    twin.num = counter.recovered frac role twin.now := by
  have positive : 0 < counter.startTime role.level * 100 :=
    Int.mul_pos (counter.startTime_pos role.level) (by decide)
  have limit := recovered.maxOf
  have level := recovered.level
  rw [Counter.recovered]
  split
  · rename_i low
    rcases recovered.grown low with ⟨less, more, ts⟩ | ⟨full, elapsed⟩
    · obtain ⟨-, since, before, -, -⟩ := recovered.ticking.running (limit ▸ less)
      rw [Counter.periodOf] at ts before
      rw [level] at before
      have le := Int.le_ediv_of_mul_le positive (show (twin.num - role.num) *
        (counter.startTime role.level * 100) ≤ twin.now - (role.ts * 100 + frac) by linarith)
      have lt := Int.ediv_lt_of_lt_mul positive (show twin.now - (role.ts * 100 + frac) <
        (twin.num - role.num + 1) * (counter.startTime role.level * 100) by linarith)
      omega
    · rw [Counter.periodOf] at elapsed
      have le := Int.le_ediv_of_mul_le positive (show (counter.maxOf role - role.num) *
        (counter.startTime role.level * 100) ≤ twin.now - (role.ts * 100 + frac) by linarith)
      omega
  · rename_i reached
    exact recovered.idle (not_lt.mp reached)

def RoleState.later (role : RoleState) (elapsed : ℕ) : RoleState :=
  { role with now := role.now + elapsed, timer := none, loaded := false }

theorem run_pass (ticking : Ticking counter frac role) (elapsed : ℕ) :
    ∃ next, run counter.step role (List.replicate elapsed .pass) = some next ∧
      Recovered counter frac (role.later elapsed) next := by
  induction elapsed with
  | zero =>
      refine ⟨role, rfl, recovered_self ticking ?_⟩
      rw [RoleState.later, Int.natCast_zero, Int.add_zero]
  | succ elapsed ih =>
      obtain ⟨next, passed, recovered⟩ := ih
      refine ⟨counter.pass next, ?_, ?_⟩
      · rw [List.replicate_succ', run_concat_eq_some]
        exact ⟨next, passed, rfl⟩
      · have later := recovered.pass
        have clock : role.now + (elapsed + 1 : ℕ) = role.now + elapsed + 1 := by
          omega
        rw [RoleState.later, clock]
        exact later

theorem recovered_later (elapsed : ℕ) (time : ℤ) :
    counter.recovered frac (role.later elapsed) time = counter.recovered frac role time := rfl

theorem run_pass_num (ticking : Ticking counter frac role) (elapsed : ℕ) :
    ∃ next, run counter.step role (List.replicate elapsed .pass) = some next ∧
      next.num = counter.recovered frac role (role.now + elapsed) := by
  obtain ⟨next, passed, recovered⟩ := run_pass ticking elapsed
  refine ⟨next, passed, ?_⟩
  rw [recovered.num, recovered_later, recovered.now]
  rfl

theorem Alike.recovered (alike : Alike counter role twin) (time : ℤ) :
    counter.recovered frac twin time = counter.recovered frac role time := by
  rcases alike with rfl | ⟨reached, -, ts, rfl⟩
  · rfl
  · exact (if_neg (not_lt.mpr reached)).trans (if_neg (not_lt.mpr reached)).symm

theorem Alike.now (alike : Alike counter role twin) : twin.now = role.now := by
  rcases alike with rfl | ⟨-, -, ts, rfl⟩
  · rfl
  · rfl

theorem recover_num_le (role : RoleState) :
    (counter.recover role).num ≤ max role.num (counter.maxOf role) := by
  rcases lt_or_ge role.num (counter.maxOf role) with low | reached
  · rw [recover_of_lt low]
    refine le_max_of_le_right ?_
    split
    · exact Int.add_one_le_of_lt low
    · exact Int.add_one_le_of_lt low
  · have same : (counter.recover role).num = role.num := by
      rw [Counter.recover, if_neg (not_lt.mpr reached), if_pos reached]
    rw [same]
    exact le_max_left _ _

theorem pass_num_le (role : RoleState) :
    (counter.pass role).num ≤ max role.num (counter.maxOf role) := by
  cases timer : role.timer with
  | none =>
      rw [pass_of_timer_none timer]
      exact le_max_left _ _
  | some timer' =>
      rcases le_or_gt timer'.nextTs (role.now + 1) with due | early
      · rw [pass_of_due timer due]
        exact recover_num_le { role with now := role.now + 1 }
      · simp only [Counter.pass, timer, if_neg (not_le.mpr early)]
        exact le_max_left _ _

theorem load_num_le (role : RoleState) :
    (counter.load role).num ≤ max role.num (counter.maxOf role) := by
  rw [Counter.load]
  split
  · refine le_max_of_le_right ?_
    dsimp only
    split
    · rename_i less
      exact less.le
    · exact le_rfl
  · exact le_max_left _ _

variable {next : RoleState} {event : Event}

theorem step_num_le (recovers : event = .pass ∨ event = .login ∨ event = .reconnect) (taken : counter.step role event = some next) :
    next.num ≤ max role.num (counter.maxOf role) := by
  rcases recovers with rfl | rfl | rfl
  · cases taken
    exact pass_num_le role
  · rw [Counter.step] at taken
    split at taken
    · cases taken
    · cases taken
      exact load_num_le { role with loaded := true }
  · rw [Counter.step] at taken
    split at taken
    · cases taken
      split
      · exact load_num_le role
      · exact le_max_left _ _
    · cases taken

theorem maxOf_le_of_capped {num : ℤ} (less : counter.capped num < counter.maxOf role) :
    num < counter.maxOf role := by
  rw [Counter.capped] at less
  cases found : counter.maxNum with
  | none =>
      rw [found] at less
      exact less
  | some maxNum =>
      rw [found] at less
      dsimp only at less
      have high := counter.limit_le_maxNum maxNum found role.level role.vip
      rw [Counter.maxOf] at less ⊢
      split at less <;> omega

section
variable (ticking : Ticking counter frac role)
include ticking

theorem spend_ticking {num : ℕ} (steady : counter.Steady frac role (.spend num)) :
    Ticking counter frac (counter.spend num role) := by
  rw [Counter.spend]
  split
  · exact ticking
  · rename_i enough
    have runs : role.timer ≠ none → Running counter frac role := fun some =>
      ticking.running (lt_of_not_ge fun reached => some (ticking.stopped reached))
    refine startTimer_ticking ticking.loaded ?_ ?_ ?_
    · intro some _
      have running := runs some
      exact { running with }
    · intro reached
      change counter.maxOf role ≤ role.num - num at reached
      exact ticking.stopped (by omega)
    · exact fun low stopped => steady (not_lt.mp enough) low stopped

theorem add_ticking (num : ℕ) : Ticking counter frac (counter.add num role) := by
  rw [Counter.add]
  have limit : counter.maxOf { role with num := counter.capped (role.num + num) } =
    counter.maxOf role := rfl
  split
  · rename_i reached
    exact ⟨ticking.loaded, fun low => absurd reached (not_le.mpr low), fun _ => rfl⟩
  · rename_i low
    have less := maxOf_le_of_capped (not_le.mp low)
    have running := ticking.running (by omega)
    exact ⟨ticking.loaded, fun _ => { running with }, fun reached => absurd reached low⟩

theorem levelUp_ticking {level : ℕ} (steady : counter.Steady frac role (.levelUp level)) :
    Ticking counter frac { role with level := level } := by
  obtain ⟨rises, either⟩ := steady
  refine ⟨ticking.loaded, fun low => ?_, fun reached => ticking.stopped (rises.trans reached)⟩
  obtain ⟨below, period⟩ := either.resolve_left (not_le.mpr low)
  obtain ⟨timer, since, before, nonneg, small⟩ := ticking.running below
  have same : counter.periodOf { role with level := level } = counter.periodOf role := period
  exact ⟨by rw [same]; exact timer, since, by rw [same]; exact before, nonneg, small⟩

theorem vipUp_ticking {vip : ℕ} (steady : counter.Steady frac role (.vipUp vip)) :
    Ticking counter frac (if counter.startsOnVip then counter.startTimer { role with vip := vip }
      else { role with vip := vip }) := by
  obtain ⟨rises, either⟩ := steady
  have running : role.num < counter.maxOf role →
      Running counter frac { role with vip := vip } := by
    intro below
    obtain ⟨timer, since, before, nonneg, small⟩ := ticking.running below
    exact ⟨timer, since, before, nonneg, small⟩
  have stopped : counter.limit role.level vip ≤ role.num → role.timer = none :=
    fun reached => ticking.stopped (rises.trans reached)
  split
  · refine startTimer_ticking ticking.loaded ?_ stopped ?_
    · intro some _
      exact running (lt_of_not_ge fun reached => some (ticking.stopped reached))
    · intro low none
      rcases either with reached | below | ⟨-, same⟩
      · exact absurd reached (not_le.mpr low)
      · cases (ticking.running below).timer.symm.trans none
      · exact same
  · rename_i never
    refine ⟨ticking.loaded, fun low => ?_, stopped⟩
    rcases either with reached | below | ⟨starts, -⟩
    · exact absurd reached (not_le.mpr low)
    · exact running below
    · exact absurd starts never

theorem step_ticking (steady : counter.Steady frac role event) (stays : event.stays = true)
    (taken : counter.step role event = some next) : Ticking counter frac next := by
  have loaded := ticking.loaded
  cases event with
  | pass =>
      cases taken
      exact ticking.pass
  | spend num =>
      rw [Counter.step, if_pos loaded] at taken
      cases taken
      exact spend_ticking ticking steady
  | add num =>
      rw [Counter.step, if_pos loaded] at taken
      cases taken
      exact add_ticking ticking num
  | useItem num =>
      rw [Counter.step, if_pos loaded] at taken
      cases taken
      rw [Counter.useItem]
      split
      · exact ticking
      · exact add_ticking ticking num
  | levelUp level =>
      rw [Counter.step, if_pos loaded] at taken
      cases taken
      exact levelUp_ticking ticking steady
  | vipUp vip =>
      rw [Counter.step, if_pos loaded] at taken
      cases taken
      exact vipUp_ticking ticking steady
  | reconnect => cases stays
  | logout => cases stays
  | login => cases stays

end

theorem startTimer_alike (stopped : role.timer = none) (ts : ℤ) :
    Alike counter (counter.startTimer role) (counter.startTimer { role with ts := ts }) := by
  by_cases low : role.num < counter.maxOf role
  · have first : counter.startTimer role = _ := if_pos ⟨low, stopped⟩
    have second : counter.startTimer { role with ts := ts } = _ := if_pos ⟨low, stopped⟩
    rw [first, second]
    exact .inl rfl
  · have first : counter.startTimer role = role := if_neg fun both => low both.1
    have second : counter.startTimer { role with ts := ts } = { role with ts := ts } :=
      if_neg fun both => low both.1
    rw [first, second]
    exact .inr ⟨not_lt.mp low, stopped, ts, rfl⟩

theorem add_alike (reached : counter.maxOf role ≤ role.num) (num : ℕ) (ts : ℤ) :
    Alike counter (counter.add num role) (counter.add num { role with ts := ts }) := by
  have limit : counter.maxOf role ≤ counter.capped (role.num + num) :=
    not_lt.mp fun less => absurd (maxOf_le_of_capped less) (by omega)
  have first : counter.add num role = _ := if_pos limit
  have second : counter.add num { role with ts := ts } = _ := if_pos limit
  rw [first, second]
  exact .inr ⟨limit, rfl, ts, rfl⟩

theorem step_alike (alike : Alike counter role twin) (loaded : role.loaded = true)
    (steady : counter.Steady frac role event) (stays : event.stays = true)
    (taken : counter.step role event = some next) :
    ∃ other, counter.step twin event = some other ∧ Alike counter next other := by
  rcases alike with rfl | ⟨reached, stopped, ts, rfl⟩
  · exact ⟨next, taken, .inl rfl⟩
  cases event with
  | pass =>
      cases taken
      refine ⟨_, rfl, ?_⟩
      have stopped' : ({ role with ts := ts } : RoleState).timer = none := stopped
      rw [pass_of_timer_none stopped, pass_of_timer_none stopped']
      exact .inr ⟨reached, stopped, ts, rfl⟩
  | spend num =>
      rw [Counter.step, if_pos loaded] at taken
      cases taken
      refine ⟨_, if_pos loaded, ?_⟩
      by_cases few : role.num < num
      · have first : counter.spend num role = role := if_pos few
        have second : counter.spend num { role with ts := ts } = { role with ts := ts } := if_pos few
        rw [first, second]
        exact .inr ⟨reached, stopped, ts, rfl⟩
      · have first : counter.spend num role = _ := if_neg few
        have second : counter.spend num { role with ts := ts } = _ := if_neg few
        rw [first, second]
        have alike := @startTimer_alike counter { role with num := role.num - num } stopped ts
        exact alike
  | add num =>
      rw [Counter.step, if_pos loaded] at taken
      cases taken
      exact ⟨_, if_pos loaded, add_alike reached num ts⟩
  | useItem num =>
      rw [Counter.step, if_pos loaded] at taken
      cases taken
      refine ⟨_, if_pos loaded, ?_⟩
      by_cases refused : counter.capped (role.num + num) < role.num + num
      · have first : counter.useItem num role = role := if_pos refused
        have second : counter.useItem num { role with ts := ts } = { role with ts := ts } :=
          if_pos refused
        rw [first, second]
        exact .inr ⟨reached, stopped, ts, rfl⟩
      · have first : counter.useItem num role = _ := if_neg refused
        have second : counter.useItem num { role with ts := ts } = _ := if_neg refused
        rw [first, second]
        exact add_alike reached num ts
  | levelUp level =>
      rw [Counter.step, if_pos loaded] at taken
      cases taken
      refine ⟨_, if_pos loaded, .inr ⟨?_, stopped, ts, rfl⟩⟩
      exact steady.2.resolve_right fun below => absurd below.1 (not_lt.mpr reached)
  | vipUp vip =>
      rw [Counter.step, if_pos loaded] at taken
      cases taken
      refine ⟨_, if_pos loaded, ?_⟩
      split
      · exact @startTimer_alike counter { role with vip := vip } stopped ts
      · rename_i never
        refine .inr ⟨?_, stopped, ts, rfl⟩
        rcases steady.2 with reached' | below | ⟨starts, -⟩
        · exact reached'
        · exact absurd below (not_lt.mpr reached)
        · exact absurd starts never
  | reconnect => cases stays
  | logout => cases stays
  | login => cases stays

structure Follows (counter : Counter) (frac : ℤ) (role twin : RoleState) : Prop where
  ticking : Ticking counter frac twin
  online : role.loaded = true → Alike counter role twin
  offline : role.loaded = false → role.timer = none ∧ Recovered counter frac role twin

theorem follows_of_alike (ticking : Ticking counter frac twin) (alike : Alike counter role twin) :
    Follows counter frac role twin :=
  ⟨ticking, fun _ => alike, fun offline => absurd ((alike.ticking ticking).loaded.symm.trans offline) nofun⟩

theorem Alike.symm (alike : Alike counter role twin) : Alike counter twin role := by
  rcases alike with rfl | ⟨reached, stopped, ts, rfl⟩
  · exact .inl rfl
  · exact .inr ⟨reached, stopped, role.ts, rfl⟩

theorem load_of_ticking (ticking : Ticking counter frac role)
    (phase : role.num < counter.maxOf role → counter.InPhase frac role) :
    counter.load role = role := by
  rcases lt_or_ge role.num (counter.maxOf role) with low | reached
  · obtain ⟨timer, since, before, -, -⟩ := ticking.running low
    obtain ⟨second, -, -⟩ := timeSecond_of_frac (phase low).2
    have none : counter.gained role = 0 :=
      le_antisymm (gained_le (by omega)) (le_gained (by omega))
    rw [load_of_inPhase (phase low) low, none, Int.add_zero, if_pos low, Counter.caughtUp, none,
      Int.mul_zero, Int.add_zero, Int.add_zero, ← timer]
  · exact if_neg (not_lt.mpr reached)

theorem follows_kept (follows : Follows counter frac role twin)
    (steady : counter.Steady frac role event)
    (taken : counter.step role event = some next) (stays : event.stays = true) :
    ∃ other, counter.step twin event = some other ∧ Follows counter frac next other := by
  cases loaded : role.loaded with
  | true =>
      have alike := follows.online loaded
      obtain ⟨other, followed, alike'⟩ := step_alike alike loaded steady stays taken
      have ticking := step_ticking (alike.ticking follows.ticking) steady stays taken
      exact ⟨other, followed, follows_of_alike (alike'.symm.ticking ticking) alike'⟩
  | false =>
      obtain ⟨stopped, recovered⟩ := follows.offline loaded
      cases event with
      | pass =>
          cases taken
          rw [pass_of_timer_none stopped]
          exact ⟨_, rfl, follows.ticking.pass,
            fun online => absurd (loaded.symm.trans online) nofun,
            fun _ => ⟨stopped, recovered.pass⟩⟩
      | spend _ | add _ | useItem _ | levelUp _ | vipUp _ =>
          rw [Counter.step, loaded] at taken
          cases taken
      | reconnect => cases stays
      | logout => cases stays
      | login => cases stays

theorem follows_dropped (follows : Follows counter frac role twin)
    (steady : counter.Steady frac role event)
    (taken : counter.step role event = some next) (stays : event.stays = false) :
    Follows counter frac next twin := by
  have ticking := follows.ticking
  cases event with
  | reconnect =>
      rw [Counter.step] at taken
      split at taken
      · rename_i loaded
        have alike := follows.online loaded
        cases taken
        split
        · rename_i loads
          rw [load_of_ticking (alike.ticking ticking) (steady loads)]
          exact follows
        · exact follows
      · cases taken
  | logout =>
      rw [Counter.step] at taken
      split at taken
      · rename_i loaded
        cases taken
        refine ⟨ticking, nofun, fun _ => ⟨rfl, ?_⟩⟩
        rcases follows.online loaded with rfl | ⟨reached, -, ts, rfl⟩
        · exact recovered_self ticking rfl
        · exact ⟨rfl, rfl, rfl, ticking, fun _ => rfl, fun low => absurd reached (not_le.mpr low)⟩
      · cases taken
  | login =>
      rw [Counter.step] at taken
      split at taken
      · cases taken
      · rename_i offline
        obtain ⟨stopped, now, level, vip, _, idle, grown⟩ :=
          follows.offline (Bool.eq_false_of_not_eq_true offline)
        cases taken
        have recovered : Recovered counter frac { role with loaded := true } twin :=
          ⟨now, level, vip, ticking, idle, grown⟩
        exact follows_of_alike ticking (recovered.load rfl stopped steady)
  | pass | spend _ | add _ | useItem _ | levelUp _ | vipUp _ => cases stays

theorem login_ticking (stored : Stored) (steady : counter.Steady frac stored.role .login) :
    ∃ first, counter.step stored.role .login = some first ∧ Ticking counter frac first :=
  ⟨_, rfl, load_ticking rfl rfl steady⟩

theorem follows_run (stored : Stored) {events : List Event}
    (guarded : Guarded counter.step (counter.Steady frac) stored.role (.login :: events))
    (execution : run counter.step stored.role (.login :: events) = some role) :
    ∃ twin, run counter.step stored.role (.login :: events.filter Event.stays) = some twin ∧
      Follows counter frac role twin := by
  obtain ⟨first, loaded, ticking⟩ := login_ticking stored guarded.1
  rw [run_cons, loaded, Option.bind_some] at execution ⊢
  refine @run_filter _ _ counter.step (counter.Steady frac) (Follows counter frac) Event.stays ?_ ?_
    first first role events (guarded.2 first loaded) execution (follows_of_alike ticking (.inl rfl))
  · exact fun follows steady taken stays => follows_kept follows steady taken stays
  · exact fun follows steady taken stays => follows_dropped follows steady taken stays

theorem loaded_of_run_login {front : List Event} {start : RoleState}
    (execution : run counter.step start (front ++ [.login]) = some role) : role.loaded = true := by
  obtain ⟨middle, -, taken⟩ := run_concat_eq_some.mp execution
  rw [Counter.step] at taken
  split at taken
  · cases taken
  · cases taken
    rw [Counter.load]
    split
    · dsimp only
      split <;> rfl
    · rfl

theorem filter_break (front : List Event) (elapsed : ℕ) :
    (front ++ Event.logout :: (List.replicate elapsed .pass ++ [.login])).filter Event.stays =
      front.filter Event.stays ++ List.replicate elapsed .pass := by
  have none : [Event.login].filter Event.stays = [] := rfl
  rw [List.filter_append, List.filter_cons_of_neg Bool.false_ne_true, List.filter_append,
    List.filter_replicate_of_pos rfl, none, List.append_nil]

/-- A role that has just logged out and in again has got one unit in each period. -/
theorem offline_of_steady (stored : Stored) {front : List Event} {elapsed : ℕ}
    (guarded : Guarded counter.step (counter.Steady frac) stored.role
      (.login :: (front ++ .logout :: (List.replicate elapsed .pass ++ [.login]))))
    (execution : run counter.step stored.role
      (.login :: (front ++ .logout :: (List.replicate elapsed .pass ++ [.login]))) = some role)
    {before : RoleState} (reached : run counter.step stored.role (.login :: front) = some before) :
    role.num = counter.recovered frac before (before.now + elapsed) := by
  obtain ⟨twin, followed, follows⟩ := follows_run stored guarded execution
  obtain ⟨middle, followed', follows'⟩ := follows_run stored
    (@guarded_front _ _ _ _ _ (.login :: front) _ guarded) reached
  -- The role was loaded before the break, since it logged out, and is now.
  have online : before.loaded = true := by
    rw [← List.cons_append, run_append, reached, Option.bind_some, run_cons] at execution
    obtain ⟨out, taken, -⟩ := Option.bind_eq_some_iff.mp execution
    rw [Counter.step] at taken
    split at taken
    · assumption
    · cases taken
  have online' : role.loaded = true := by
    refine @loaded_of_run_login counter role
      (.login :: (front ++ .logout :: List.replicate elapsed .pass)) stored.role ?_
    rw [← execution]
    simp
  have alike := follows'.online online
  obtain ⟨later, passed, num⟩ := run_pass_num follows'.ticking elapsed
  have same : twin = later := by
    rw [filter_break, ← List.cons_append, run_append, followed', Option.bind_some, passed] at followed
    exact (Option.some.inj followed).symm
  rw [← (follows.online online').num, same, num, alike.now, alike.recovered]

theorem run_pass_of_timer_none (stopped : role.timer = none) (elapsed : ℕ) :
    run counter.step role (List.replicate elapsed .pass) =
      some { role with now := role.now + elapsed } := by
  induction elapsed with
  | zero => simp
  | succ elapsed ih =>
      rw [List.replicate_succ', run_concat_eq_some]
      refine ⟨_, ih, ?_⟩
      have stopped' : ({ role with now := role.now + elapsed } : RoleState).timer = none := stopped
      rw [Counter.step, pass_of_timer_none stopped', Nat.cast_succ, Int.add_assoc]

/-- The values of the game. -/
def gameParams : Params where
  stageActionPointLimit := 100
  actionPointRecoverTime := 6
  stageActionPointMaxNum := 300
  traitorChallengeTicketLimit := 10
  traitorTicketRecoverTime := 60
  huntRareAnimalNum := 5
  huntRareAnimalTime := 180
  discussMaxCount := fun _ => 3
  energyCooldown := fun _ => 1800
  dateLoverNum := fun vip => [0, 1, 1, 2, 3, 4, 5, 6, 7, 8, 9, 10, 11, 12, 12, 12].getD vip 0
  stageActionPointLimit_le := by decide
  actionPointRecoverTime_pos := by decide
  traitorTicketRecoverTime_pos := by decide
  huntRareAnimalTime_pos := by decide
  energyCooldown_pos := fun _ => by decide

def newStored (num : ℤ) : Stored := ⟨0, 1, 0, num, 0⟩

/-- Three action points are spent, and the role logs out for some hundredths of a second. -/
def breakEvents : List Event :=
  .spend 3 :: (List.replicate 60 .pass ++ .logout :: (List.replicate 40 .pass ++ [.login]))

/-- A role spends one of its five hunts and logs out for a time. -/
def huntEvents (elapsed : ℕ) : List Event :=
  [.spend 1] ++ .logout :: (List.replicate elapsed .pass ++ [.login])

def hunting : RoleState := ⟨0, 1, 0, 4, 0, some ⟨1080000, 10800⟩, true⟩

theorem run_spend_hunt :
    run gameParams.huntNum.step (newStored 5).role [.login, .spend 1] = some hunting := by
  decide +kernel

theorem run_huntEvents (elapsed : ℕ) :
    run gameParams.huntNum.step (newStored 5).role (.login :: huntEvents elapsed) =
      some (gameParams.huntNum.load
        { hunting with now := 0 + (elapsed : ℤ), timer := none, loaded := true }) := by
  have split : Event.login :: huntEvents elapsed =
      [.login, .spend 1] ++ .logout :: (List.replicate elapsed .pass ++ [.login]) := rfl
  have out : gameParams.huntNum.step hunting .logout =
      some { hunting with timer := none, loaded := false } := rfl
  rw [split, run_append, run_spend_hunt, Option.bind_some, run_cons, out, Option.bind_some, run_append,
    run_pass_of_timer_none rfl, Option.bind_some]
  rfl

end

end UEServer.Recovery
