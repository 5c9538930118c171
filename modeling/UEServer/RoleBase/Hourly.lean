import Mathlib.Data.Int.Order.Basic
import UEServer.Library.Execution

/-!
# The hourly refresh

`check_hourly_refresh` in `meta_table/base.lua` is called when a role logs in and at every hour while it is
online.  It compares hours of the day, which start again at midnight; the daily refresh compares days.
Times are seconds since the epoch, and `zone` is what the local time is ahead of them.
-/

namespace UEServer.RoleBase

def hour : ℤ := 3600

def day : ℤ := 24 * hour

def getHour (zone ts : ℤ) : ℤ := (ts + zone) / hour % 24

/-- The test of `check_hourly_refresh`, at `now`, for a role that was refreshed at `preHourlyTs`. -/
def Refreshes (zone preHourlyTs now : ℤ) : Prop :=
  getHour zone preHourlyTs < getHour zone now ∨ now - preHourlyTs > hour

instance (zone preHourlyTs now : ℤ) : Decidable (Refreshes zone preHourlyTs now) :=
  inferInstanceAs (Decidable (_ ∨ _))

/-- A role, as far as its hourly refreshes go. -/
structure Role where
  lastHourlyTs : ℤ
  /-- When `check_hourly_refresh` was called last. -/
  lastCall : ℤ
  /-- The refreshes so far: the `last_hourly_ts` before each, and its own time. -/
  refreshes : List (ℤ × ℤ)
  deriving DecidableEq

def Role.start (ts : ℤ) : Role where
  lastHourlyTs := ts
  lastCall := ts
  refreshes := []

/-- `check_hourly_refresh`, some seconds after it was called last. -/
def checkHourlyRefresh (zone : ℤ) (role : Role) (gap : ℕ) : Role :=
  let now := role.lastCall + gap
  if Refreshes zone role.lastHourlyTs now then
    { lastHourlyTs := now
      lastCall := now
      refreshes := role.refreshes ++ [(role.lastHourlyTs, now)] }
  else { role with lastCall := now }

def step (zone : ℤ) (role : Role) (gap : ℕ) : Option Role :=
  some (checkHourlyRefresh zone role gap)

def IsBoundary (zone ts : ℤ) : Prop := (ts + zone) % hour = 0

def IsMidnight (zone ts : ℤ) : Prop := (ts + zone) % day = 0

/-- A full hour comes after `before` and not after `now`. -/
def Boundary (zone before now : ℤ) : Prop :=
  ∃ ts, before < ts ∧ ts ≤ now ∧ IsBoundary zone ts

/-- The beginning of a day comes after `before` and not after `now`. -/
def Midnight (zone before now : ℤ) : Prop :=
  ∃ ts, before < ts ∧ ts ≤ now ∧ IsMidnight zone ts

theorem boundary_iff {zone before now : ℤ} :
    Boundary zone before now ↔ (before + zone) / hour < (now + zone) / hour := by
  unfold Boundary IsBoundary hour
  constructor
  · omega
  · intro passed
    exact ⟨(now + zone) / 3600 * 3600 - zone, by omega, by omega, by omega⟩

theorem midnight_iff {zone before now : ℤ} :
    Midnight zone before now ↔ (before + zone) / day < (now + zone) / day := by
  unfold Midnight IsMidnight day hour
  constructor
  · omega
  · intro passed
    exact ⟨(now + zone) / (24 * 3600) * (24 * 3600) - zone, by omega, by omega, by omega⟩

/-- The decision at a call: the role is refreshed if a full hour has come since its last refresh, and else
it is not. -/
def Right (zone : ℤ) (role : Role) (gap : ℕ) : Prop :=
  Refreshes zone role.lastHourlyTs (role.lastCall + gap) ↔
    Boundary zone role.lastHourlyTs (role.lastCall + gap)

/-- The call is more than an hour after the last refresh, or on the same local day. -/
def Permitted (zone : ℤ) (role : Role) (gap : ℕ) : Prop :=
  role.lastCall + gap - role.lastHourlyTs ≤ hour →
    ¬ Midnight zone role.lastHourlyTs (role.lastCall + gap)

variable {role : Role}

theorem right_iff {zone : ℤ} (gap : ℕ) (ordered : role.lastHourlyTs ≤ role.lastCall) :
    Right zone role gap ↔ Permitted zone role gap := by
  unfold Right Permitted
  rw [boundary_iff, midnight_iff]
  unfold Refreshes getHour day hour
  constructor
  · omega
  · intro permitted
    constructor
    · omega
    · by_cases near : role.lastCall + gap - role.lastHourlyTs ≤ 3600
      · omega
      · omega

def covers (ts : ℤ) (refresh : ℤ × ℤ) : Bool := refresh.1 < ts ∧ ts ≤ refresh.2

/-- No full hour up to the last call is skipped, none is refreshed twice, and there is no refresh without
one. -/
structure Covered (zone ts : ℤ) (role : Role) : Prop where
  /-- Every full hour since the start is covered by one refresh. -/
  once : ∀ boundary, IsBoundary zone boundary → ts < boundary → boundary ≤ role.lastCall →
    (role.refreshes.filter (covers boundary)).length = 1
  needed : ∀ refresh ∈ role.refreshes, Boundary zone refresh.1 refresh.2

/-- Every decision of a sequence of calls is right, and so its refreshes cover the full hours. -/
def Punctual (zone ts : ℤ) (gaps : List ℕ) : Prop :=
  Execution.Guarded (step zone) (Right zone) (.start ts) gaps ∧
    ∀ role, Execution.run (step zone) (.start ts) gaps = some role → Covered zone ts role

/-- The invariant of a sequence of calls. -/
structure Inv (zone ts : ℤ) (role : Role) : Prop where
  ordered : role.lastHourlyTs ≤ role.lastCall
  once : ∀ time, ts < time → time ≤ role.lastHourlyTs →
    (role.refreshes.filter (covers time)).length = 1
  later : ∀ time, role.lastHourlyTs < time → role.refreshes.filter (covers time) = []

/-- The last refresh is up to date, and every refresh was needed. -/
structure UpToDate (zone : ℤ) (role : Role) : Prop where
  current : ¬ Boundary zone role.lastHourlyTs role.lastCall
  needed : ∀ refresh ∈ role.refreshes, Boundary zone refresh.1 refresh.2

theorem Inv.start (zone ts : ℤ) : Inv zone ts (.start ts) where
  ordered := le_rfl
  once _ after reached := absurd (Int.lt_of_lt_of_le after reached) (Int.lt_irrefl ts)
  later _ _ := rfl

theorem Inv.call {zone ts : ℤ} (inv : Inv zone ts role) (gap : ℕ) :
    Inv zone ts (checkHourlyRefresh zone role gap) := by
  have later_call : role.lastCall ≤ role.lastCall + gap :=
    Int.le_add_of_nonneg_right (Int.natCast_nonneg gap)
  unfold checkHourlyRefresh
  simp only
  split
  · constructor
    case ordered => exact le_rfl
    case once =>
      intro time after reached
      rw [List.filter_append, List.length_append]
      by_cases old : time ≤ role.lastHourlyTs
      · have uncovered : covers time (role.lastHourlyTs, role.lastCall + gap) = false := by
          simpa [covers] using fun before => absurd before (not_lt.mpr old)
        rw [inv.once time after old, List.filter_cons_of_neg (by simp [uncovered])]
        rfl
      · have new := not_le.mp old
        have covered : covers time (role.lastHourlyTs, role.lastCall + gap) = true := by
          simpa [covers] using ⟨new, reached⟩
        rw [inv.later time new, List.filter_cons_of_pos covered]
        rfl
    case later =>
      intro time after
      have uncovered : covers time (role.lastHourlyTs, role.lastCall + gap) = false := by
        simpa [covers] using fun _ => after
      rw [List.filter_append, inv.later time
        (Int.lt_of_le_of_lt (Int.le_trans inv.ordered later_call) after),
        List.filter_cons_of_neg (by simp [uncovered])]
      rfl
  · exact ⟨Int.le_trans inv.ordered later_call, inv.once, inv.later⟩

theorem UpToDate.start (zone ts : ℤ) : UpToDate zone (.start ts) where
  current := fun ⟨_, after, reached, _⟩ => absurd (Int.lt_of_lt_of_le after reached) (Int.lt_irrefl ts)
  needed _ mem := absurd mem List.not_mem_nil

theorem UpToDate.call {zone : ℤ} (upToDate : UpToDate zone role) {gap : ℕ}
    (decided : Right zone role gap) : UpToDate zone (checkHourlyRefresh zone role gap) := by
  unfold checkHourlyRefresh
  simp only
  split
  · rename_i refreshes
    constructor
    case current => exact fun ⟨_, after, reached, _⟩ => absurd (Int.lt_of_lt_of_le after reached) (Int.lt_irrefl _)
    case needed =>
      intro refresh mem
      rcases List.mem_append.mp mem with old | new
      · exact upToDate.needed refresh old
      · cases List.mem_singleton.mp new
        exact decided.mp refreshes
  · rename_i kept
    exact ⟨fun boundary => kept (decided.mpr boundary), upToDate.needed⟩

theorem Inv.covered {zone ts : ℤ} (inv : Inv zone ts role)
    (upToDate : UpToDate zone role) : Covered zone ts role where
  once boundary full after reached := by
    apply inv.once boundary after
    by_contra later
    exact upToDate.current ⟨boundary, not_le.mp later, reached, full⟩
  needed := upToDate.needed

/-- Guards that agree on the states of the invariant guard the same sequences of calls. -/
theorem guarded_right_iff {zone ts : ℤ} (inv : Inv zone ts role) (gaps : List ℕ) :
    Execution.Guarded (step zone) (Right zone) role gaps ↔
      Execution.Guarded (step zone) (Permitted zone) role gaps := by
  induction gaps generalizing role with
  | nil => exact Iff.rfl
  | cons gap gaps induction =>
      have taken : step zone role gap = some (checkHourlyRefresh zone role gap) := rfl
      rw [Execution.guarded_cons_of_step taken, Execution.guarded_cons_of_step taken,
        right_iff gap inv.ordered, induction (inv.call gap)]

/-- The refreshes of a sequence of calls are right exactly if every call is more than an hour after the
last refresh or on the same local day. -/
theorem hourly_iff (zone ts : ℤ) (gaps : List ℕ) :
    Punctual zone ts gaps ↔
      Execution.Guarded (step zone) (Permitted zone) (.start ts) gaps := by
  rw [← guarded_right_iff (Inv.start zone ts)]
  refine ⟨And.left, fun guarded => ⟨guarded, fun role execution => ?_⟩⟩
  have preserved : ∀ {before gap after}, Inv zone ts before ∧ UpToDate zone before →
      Right zone before gap → step zone before gap = some after →
      Inv zone ts after ∧ UpToDate zone after := by
    rintro before gap after ⟨inv, upToDate⟩ decided taken
    cases taken
    exact ⟨inv.call gap, upToDate.call decided⟩
  have always := Execution.always_of_guarded preserved guarded ⟨.start zone ts, .start zone ts⟩
  obtain ⟨inv, upToDate⟩ := always.last execution
  exact inv.covered upToDate

/-- A role that was refreshed at 23:00 is not refreshed at midnight. -/
theorem midnight_not_punctual : ¬ Punctual 0 82800 [3600] := by
  rintro ⟨guarded, -⟩
  have permitted : Permitted 0 (.start 82800) 3600 :=
    (right_iff 3600 (Int.le_refl 82800)).mp guarded.1
  exact permitted (by decide) ⟨86400, by decide, by decide, rfl⟩

/-- `date.get_begin0`, and `date.get_week_begin0` for a period of a week. -/
def getBegin (base0 period ts : ℤ) : ℤ := ts - (ts - base0) % period

structure Refreshed where
  /-- `last_daily_ts` or `last_weekly_ts`. -/
  lastTs : ℤ
  /-- The times of the refreshes that no GM has asked for, the last one first. -/
  times : List ℤ

/-- A refresh in `check_daily_zero_refresh`. -/
def Refreshed.check (base0 period now : ℤ) (isGm : Bool) (role : Refreshed) : Refreshed :=
  if isGm then { role with lastTs := now }
  else if role.lastTs < getBegin base0 period now then ⟨now, now :: role.times⟩ else role

structure ZeroRole where
  lastCall : ℤ
  daily : Refreshed
  weekly : Refreshed

/-- `check_daily_zero_refresh`, some seconds after it was called last. -/
def checkDailyZeroRefresh (base0 : ℤ) (role : ZeroRole) (call : Bool × ℕ) : Option ZeroRole :=
  let now := role.lastCall + call.2
  some ⟨now, role.daily.check base0 day now call.1, role.weekly.check base0 (7 * day) now false⟩

/-- The last refresh lies in the current period, and those before it in different ones. -/
structure Refreshed.Once (base0 period now : ℤ) (role : Refreshed) : Prop where
  current : getBegin base0 period now ≤ role.lastTs
  ordered : role.lastTs ≤ now
  past : ∀ time ∈ role.times, time ≤ role.lastTs
  apart : role.times.Pairwise fun later earlier =>
    getBegin base0 period earlier < getBegin base0 period later

theorem getBegin_le (base0 ts : ℤ) {period : ℤ} (positive : 0 < period) :
    getBegin base0 period ts ≤ ts := by
  have := Int.emod_nonneg (ts - base0) (show period ≠ 0 by omega)
  rw [getBegin]
  omega

theorem Refreshed.Once.first (base0 ts : ℤ) {period : ℤ} (positive : 0 < period) :
    Refreshed.Once base0 period ts ⟨ts, [ts]⟩ where
  current := getBegin_le base0 ts positive
  ordered := le_rfl
  past := List.forall_mem_singleton.mpr le_rfl
  apart := List.pairwise_singleton _ _

theorem Refreshed.Once.check {base0 period before : ℤ} {role : Refreshed}
    (once : role.Once base0 period before) (positive : 0 < period) (isGm : Bool) (gap : ℕ) :
    (role.check base0 period (before + gap) isGm).Once base0 period (before + gap) := by
  have begins := fun ts => getBegin_le base0 ts positive
  obtain ⟨_, reached, past, apart⟩ := once
  have older : ∀ time ∈ role.times, time ≤ before + gap := fun time mem => by
    have := past time mem
    omega
  rw [Refreshed.check]
  split
  · exact ⟨begins _, le_rfl, older, apart⟩
  · split
    · refine ⟨begins _, le_rfl, List.forall_mem_cons.mpr ⟨le_rfl, older⟩,
        .cons (fun time mem => ?_) apart⟩
      have := begins time
      have := past time mem
      omega
    · exact ⟨by omega, by omega, past, apart⟩

end UEServer.RoleBase
