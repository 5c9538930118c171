import UEServer.Library.Calendar
import UEServer.RoleBase.Hourly

/-!
# The scheduled refresh of two shops

`hourly_party` in `meta_table/party.lua` refreshes the party shop and `on_hourly` in `meta_table/bar.lua` the
bar, when an hour has begun at which they are to be refreshed.  Both are called by the hourly refresh, with the
time of the one before it.
-/

namespace UEServer.ShopRefresh

open RoleBase Calendar

/-- The `refresh_time` of `ShopData["PartyShop"]`, and the `tb_int` of `bar_refresh_time_list`. -/
structure RefreshTime where
  hours : List ℤ
  ne_nil : hours ≠ []
  ascending : hours.Pairwise (· < ·)
  within : ∀ hour ∈ hours, 0 ≤ hour ∧ hour < 24

/-- `refresh_time[1]`. -/
def RefreshTime.first (times : RefreshTime) : ℤ := times.hours.head times.ne_nil

/-- `refresh_time[#refresh_time]`. -/
def RefreshTime.last (times : RefreshTime) : ℤ := times.hours.getLast times.ne_nil

def dayNumber (zone ts : ℤ) : ℤ := (ts + zone) / day

/-- The date in `os.date("*t", ts)`. -/
def date (zone ts : ℤ) : Date := dateOf (dayNumber zone ts)

def getHourBegin (ts : ℤ) : ℤ := ts - ts % hour

def getBegin0 (zone ts : ℤ) : ℤ := ts - (ts + zone) % day

variable (zone : ℤ) (times : RefreshTime) (pre now : ℤ)

/-- Whether `hourly_party` refreshes the shop. -/
def HourlyParty : Prop :=
  if now - pre ≥ day then True
  else if (date zone pre).day < (date zone now).day then
    getHour zone pre < times.last ∨ getHour zone now ≥ times.first
  else ∃ refreshHour ∈ times.hours, getHour zone pre < refreshHour ∧ getHour zone now ≥ refreshHour

/-- Whether `on_hourly` refreshes the bar. -/
def OnHourly : Prop :=
  if (getBegin0 zone now - getBegin0 zone pre) / day > 1 then True
  else ∃ refreshHour ∈ times.hours,
    (getHourBegin pre < getBegin0 zone pre + refreshHour * hour ∧
      getBegin0 zone pre + refreshHour * hour ≤ getHourBegin now) ∨
    (getHourBegin pre < getBegin0 zone now + refreshHour * hour ∧
      getBegin0 zone now + refreshHour * hour ≤ getHourBegin now)

instance : Decidable (HourlyParty zone times pre now) := by
  unfold HourlyParty
  infer_instance

instance : Decidable (OnHourly zone times pre now) := by
  unfold OnHourly
  infer_instance

def hourStart (ts : ℤ) : ℤ := ts - (ts + zone) % hour

/-- The start of a refresh hour of some local day. -/
def Starts (ts : ℤ) : Prop :=
  ∃ refreshHour ∈ times.hours, ∃ number : ℤ, ts = number * day + refreshHour * hour - zone

/-- A refresh hour starts after the hour of `pre` and not after that of `now`. -/
def Due : Prop :=
  ∃ ts, Starts zone times ts ∧ hourStart zone pre < ts ∧ ts ≤ hourStart zone now

/-- Both shops are refreshed when they are to be. -/
def Right : Prop :=
  (HourlyParty zone times pre now ↔ Due zone times pre now) ∧
    (OnHourly zone times pre now ↔ Due zone times pre now)

/-- What the party shop needs: the times are a day apart or in one month, or there is nothing to refresh
around the end of the month. -/
def PartyPermitted : Prop :=
  now - pre ≥ day ∨ (date zone now).SameMonth (date zone pre) ∨
    (times.last ≤ getHour zone pre ∧ getHour zone now < times.first)

/-- The local hour of `pre` is a refresh hour that starts after its `get_hour_begin`, and so it counts again. -/
def Again : Prop :=
  Starts zone times (hourStart zone pre) ∧ getHourBegin pre < hourStart zone pre ∧
    hourStart zone pre ≤ getHourBegin now

/-- The local hour of `now` is a refresh hour that starts after its `get_hour_begin`, and so it does not count
yet. -/
def NotYet : Prop :=
  Starts zone times (hourStart zone now) ∧ hourStart zone pre < hourStart zone now ∧
    getHourBegin now < hourStart zone now

/-- What the bar needs: there is a day between, or a refresh hour between that counts, or the hours of both
times are counted right.  In a zone of whole hours `get_hour_begin` is the start of the local hour. -/
def BarPermitted : Prop :=
  dayNumber zone pre + 1 < dayNumber zone now ∨
    (∃ ts, Starts zone times ts ∧ hourStart zone pre < ts ∧ ts ≤ getHourBegin now) ∨
    (Again zone times pre now ↔ NotYet zone times pre now)

variable {zone times pre now}

theorem RefreshTime.first_le {refreshHour : ℤ} (mem : refreshHour ∈ times.hours) :
    times.first ≤ refreshHour := by
  obtain ⟨hours, ne_nil, ascending, within⟩ := times
  cases hours with
  | nil => exact absurd rfl ne_nil
  | cons head tail =>
    rcases List.mem_cons.mp mem with rfl | mem
    · exact le_rfl
    · exact le_of_lt ((List.pairwise_cons.mp ascending).1 refreshHour mem)

theorem RefreshTime.le_last {refreshHour : ℤ} (mem : refreshHour ∈ times.hours) :
    refreshHour ≤ times.last := by
  have split := List.dropLast_append_getLast times.ne_nil
  have ascending := times.ascending
  rw [← split] at mem ascending
  rcases List.mem_append.mp mem with mem | mem
  · exact le_of_lt ((List.pairwise_append.mp ascending).2.2 refreshHour mem _ (List.mem_singleton.mpr rfl))
  · exact le_of_eq (List.mem_singleton.mp mem)

theorem RefreshTime.first_mem : times.first ∈ times.hours := List.head_mem times.ne_nil

theorem RefreshTime.last_mem : times.last ∈ times.hours := List.getLast_mem times.ne_nil

theorem due_iff : Due zone times pre now ↔ ∃ refreshHour ∈ times.hours, ∃ number : ℤ,
    (pre + zone) / hour < number * 24 + refreshHour ∧ number * 24 + refreshHour ≤ (now + zone) / hour := by
  unfold Due Starts hourStart day hour
  constructor
  · rintro ⟨_, ⟨refreshHour, mem, number, rfl⟩, after, reached⟩
    exact ⟨refreshHour, mem, number, by omega, by omega⟩
  · rintro ⟨refreshHour, mem, number, after, reached⟩
    exact ⟨_, ⟨refreshHour, mem, number, rfl⟩, by omega, by omega⟩

theorem due_of_day (far : now - pre ≥ day) : Due zone times pre now := by
  unfold day hour at far
  refine due_iff.mpr ⟨times.first, RefreshTime.first_mem,
    ((now + zone) / hour - times.first) / 24, ?_, ?_⟩ <;> unfold hour <;> omega

theorem due_same_day (same : dayNumber zone now = dayNumber zone pre) :
    Due zone times pre now ↔
      ∃ refreshHour ∈ times.hours, getHour zone pre < refreshHour ∧ getHour zone now ≥ refreshHour := by
  rw [due_iff]
  unfold dayNumber day at same
  unfold getHour hour at *
  refine exists_congr fun refreshHour => and_congr_right fun mem => ?_
  have within := times.within refreshHour mem
  constructor
  · omega
  · intro between
    exact ⟨(now + zone) / (24 * 3600), by omega, by omega⟩

theorem due_next_day (later : dayNumber zone now = dayNumber zone pre + 1) :
    Due zone times pre now ↔ getHour zone pre < times.last ∨ getHour zone now ≥ times.first := by
  rw [due_iff]
  unfold dayNumber day at later
  unfold getHour hour at *
  constructor
  · rintro ⟨refreshHour, mem, number, after, reached⟩
    have first := times.first_le mem
    have last := times.le_last mem
    omega
  · rintro (evening | morning)
    · have within := times.within _ times.last_mem
      exact ⟨times.last, times.last_mem, (pre + zone) / (24 * 3600), by omega, by omega⟩
    · have within := times.within _ times.first_mem
      exact ⟨times.first, times.first_mem, (now + zone) / (24 * 3600), by omega, by omega⟩

theorem hourlyParty_iff (later : pre < now) :
    (HourlyParty zone times pre now ↔ Due zone times pre now) ↔ PartyPermitted zone times pre now := by
  unfold HourlyParty PartyPermitted
  by_cases far : now - pre ≥ day
  · simp [far, due_of_day far]
  simp only [far, ↓reduceIte, false_or]
  have days : dayNumber zone now = dayNumber zone pre ∨ dayNumber zone now = dayNumber zone pre + 1 := by
    unfold dayNumber
    unfold day hour at *
    omega
  rcases days with same | next
  · have dates : date zone now = date zone pre := congrArg dateOf same
    simp [dates, due_same_day same, Date.SameMonth]
  · have dates : date zone now = (date zone pre).next := by
      unfold date
      rw [next, dateOf_succ]
    rw [due_next_day next]
    rcases (date zone pre).next_cases with ⟨month, number⟩ | ⟨month, number⟩
    · simp [dates, month, number]
    · have backwards : ¬ ∃ refreshHour ∈ times.hours,
          getHour zone pre < refreshHour ∧ getHour zone now ≥ refreshHour := by
        unfold getHour at *
        unfold dayNumber at next
        unfold day hour at *
        omega
      have first : ¬ (date zone pre).day < 1 := Nat.not_lt.mpr (valid_dateOf _).2.2.1
      simp only [dates, month, number, first, ↓reduceIte, backwards, false_iff, false_or]
      rw [not_or, not_lt, not_le]

theorem starts_hourStart_or {ts : ℤ} (starts : Starts zone times ts) {begin : ℤ} (near : begin - hour < ts)
    (reached : ts ≤ hourStart zone begin) : ts = hourStart zone begin := by
  obtain ⟨refreshHour, -, number, rfl⟩ := starts
  unfold hourStart day hour at *
  omega

theorem onHourly_iff (later : pre < now) :
    OnHourly zone times pre now ↔ dayNumber zone pre + 1 < dayNumber zone now ∨
      ∃ ts, Starts zone times ts ∧ getHourBegin pre < ts ∧ ts ≤ getHourBegin now := by
  have days : (getBegin0 zone now - getBegin0 zone pre) / day = dayNumber zone now - dayNumber zone pre := by
    unfold getBegin0 dayNumber day hour
    omega
  unfold OnHourly
  rw [days]
  by_cases far : dayNumber zone pre + 1 < dayNumber zone now
  · simp [far, show dayNumber zone now - dayNumber zone pre > 1 by omega]
  simp only [far, show ¬ dayNumber zone now - dayNumber zone pre > 1 by omega, ↓reduceIte, false_or]
  unfold dayNumber getBegin0 getHourBegin Starts day hour at *
  constructor
  · rintro ⟨refreshHour, mem, first | second⟩
    · exact ⟨_, ⟨refreshHour, mem, (pre + zone) / (24 * 3600), rfl⟩, by omega, by omega⟩
    · exact ⟨_, ⟨refreshHour, mem, (now + zone) / (24 * 3600), rfl⟩, by omega, by omega⟩
  · rintro ⟨_, ⟨refreshHour, mem, number, rfl⟩, after, reached⟩
    have within := times.within refreshHour mem
    exact ⟨refreshHour, mem, by omega⟩

theorem counted_iff : (∃ ts, Starts zone times ts ∧ getHourBegin pre < ts ∧ ts ≤ getHourBegin now) ↔
    (∃ ts, Starts zone times ts ∧ hourStart zone pre < ts ∧ ts ≤ getHourBegin now) ∨
      Again zone times pre now := by
  constructor
  · rintro ⟨ts, starts, after, reached⟩
    by_cases between : hourStart zone pre < ts
    · exact .inl ⟨ts, starts, between, reached⟩
    · have near : pre - hour < ts := by
        unfold getHourBegin hour at *
        omega
      obtain rfl := starts_hourStart_or starts near (not_lt.mp between)
      exact .inr ⟨starts, after, reached⟩
  · rintro (⟨ts, starts, after, reached⟩ | ⟨starts, after, reached⟩)
    · refine ⟨ts, starts, ?_, reached⟩
      obtain ⟨refreshHour, -, number, rfl⟩ := starts
      unfold hourStart getHourBegin day hour at *
      omega
    · exact ⟨_, starts, after, reached⟩

theorem due_iff_between : Due zone times pre now ↔
    (∃ ts, Starts zone times ts ∧ hourStart zone pre < ts ∧ ts ≤ getHourBegin now) ∨
      NotYet zone times pre now := by
  constructor
  · rintro ⟨ts, starts, after, reached⟩
    by_cases between : ts ≤ getHourBegin now
    · exact .inl ⟨ts, starts, after, between⟩
    · have near : now - hour < ts := by
        unfold getHourBegin hour at *
        omega
      obtain rfl := starts_hourStart_or starts near reached
      exact .inr ⟨starts, after, not_le.mp between⟩
  · rintro (⟨ts, starts, after, reached⟩ | ⟨starts, after, -⟩)
    · refine ⟨ts, starts, after, ?_⟩
      obtain ⟨refreshHour, -, number, rfl⟩ := starts
      unfold hourStart getHourBegin day hour at *
      omega
    · exact ⟨_, starts, after, le_rfl⟩

theorem due_of_days (far : dayNumber zone pre + 1 < dayNumber zone now) : Due zone times pre now := by
  refine due_iff.mpr ⟨times.first, times.first_mem, dayNumber zone pre + 1, ?_, ?_⟩
  all_goals
    have within := times.within _ times.first_mem
    unfold dayNumber day hour at *
    omega

theorem onHourly_right_iff (later : pre < now) :
    (OnHourly zone times pre now ↔ Due zone times pre now) ↔ BarPermitted zone times pre now := by
  rw [onHourly_iff later, BarPermitted]
  by_cases far : dayNumber zone pre + 1 < dayNumber zone now
  · simp [far, due_of_days far]
  rw [counted_iff, due_iff_between]
  by_cases between : ∃ ts, Starts zone times ts ∧ hourStart zone pre < ts ∧ ts ≤ getHourBegin now
  · simp only [between, true_or, or_true]
  · simp only [between, far, false_or]

/-- The shops are refreshed exactly when a refresh hour has begun, if and only if the calendar does not put the
times into different months and the hours of `get_hour_begin` are those of the zone, so far as it matters. -/
theorem refreshes_right_iff (zone : ℤ) (times : RefreshTime) (pre now : ℤ) (later : pre < now) :
    Right zone times pre now ↔ PartyPermitted zone times pre now ∧ BarPermitted zone times pre now :=
  and_congr (hourlyParty_iff later) (onHourly_right_iff later)

theorem not_right_of_due (due : Due zone times pre now) (missed : ¬ HourlyParty zone times pre now) :
    ¬ Right zone times pre now :=
  fun right => missed (right.1.mpr due)

/-- The refresh hours of the party shop and of the bar. -/
def shopTimes : RefreshTime where
  hours := [9, 12, 18, 21]
  ne_nil := by decide
  ascending := by decide
  within := by decide

/-- From the evening of the 31st of January to the next morning. -/
theorem refreshes_right_iff_january :
    Right 28800 shopTimes 2635200 2685600 ↔
      PartyPermitted 28800 shopTimes 2635200 2685600 ∧ BarPermitted 28800 shopTimes 2635200 2685600 :=
  refreshes_right_iff 28800 shopTimes 2635200 2685600 (by decide +kernel)

/-- The party shop is not refreshed in the morning after the 31st of January. -/
theorem january_not_right : ¬ Right 28800 shopTimes 2635200 2685600 :=
  not_right_of_due (due_iff.mpr ⟨9, by decide, 31, by decide +kernel, by decide +kernel⟩) (by decide +kernel)

end UEServer.ShopRefresh
