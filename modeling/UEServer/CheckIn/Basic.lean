import Mathlib.Order.Interval.Finset.Nat
import UEServer.Library.Calendar
import UEServer.Library.Execution

/-!
# The monthly check-in

`meta_table/check_in_monthly.lua`, with the logins and the daily refreshes of `meta_table/base.lua`.  Times are
local days, since the code looks at nothing else of them; a role that is online is refreshed as each begins.
-/

namespace UEServer.CheckIn

open Calendar

/-- `CSConst.RewardState`.  An entry that is nil is `unpick`. -/
inductive RewardState where
  | unpick
  | pick
  | picked
  deriving DecidableEq

/-- A row of `CheckInMonthlyData`. -/
structure CheckInMonthlyData where
  rewardId : ℕ → ℕ
  rewardCount : ℕ → ℤ
  /-- `vip_day`, with `vip_level_request`. -/
  vipDay : List (ℕ × ℕ)
  chestDayRequest : ℕ → ℕ
  /-- The item lists of `chest_reward`, if `RewardData` has them. -/
  chestReward : ℕ → Option (List (ℕ × ℤ))
  rechargeRequire : List ℤ
  replenishLimitToday : ℤ
  replenishInitNum : ℤ

structure Config where
  month : ℕ → CheckInMonthlyData
  /-- The number of chests, which is that of every month. -/
  chestNum : ℕ
  monthCheckLimit : ℤ

inductive Source where
  | day (number : ℕ)
  | chest (id : ℕ)
  deriving DecidableEq

/-- A reward that was granted, in a month. -/
structure Reward where
  month : ℤ
  source : Source
  items : List (ℕ × ℤ)

structure Role where
  today : ℤ
  isOnline : Bool
  /-- The day of `last_daily_ts`. -/
  lastDaily : ℤ
  /-- The day of `logout_ts`. -/
  logoutDay : ℤ
  checkInCount : ℕ
  replenishRemainToday : ℤ
  /-- `check_in_monthly_info_list`. -/
  info : ℕ → RewardState
  chestInfo : ℕ → RewardState
  rechargeIntegral : ℤ
  todayActiveReplenish : Bool
  replenishCount : ℤ
  replenishUsedCount : ℤ
  replenishUsedToday : ℤ
  rewards : List Reward

variable (config : Config) (role : Role)

def Role.date : Date := dateOf role.today

/-- The number of the days up to `last` that are picked. -/
def countPicked (info : ℕ → RewardState) (last : ℕ) : ℕ :=
  ((Finset.Icc 1 last).filter fun day => info day = .picked).card

/-- `init`, for a role that is created and has never been online. -/
def Role.init (today : ℕ) : Role where
  today
  isOnline := false
  lastDaily := 0
  logoutDay := 0
  checkInCount := 0
  replenishRemainToday := 0
  info day := if 1 ≤ day ∧ day ≤ (dateOf today).day then .pick else .unpick
  chestInfo _ := .unpick
  rechargeIntegral := 0
  todayActiveReplenish := false
  replenishCount := (config.month (dateOf today).month).replenishInitNum
  replenishUsedCount := 0
  replenishUsedToday := 0
  rewards := []

/-- `new` and `load`. -/
def Role.load : Role :=
  { role with
    isOnline := true
    checkInCount := countPicked role.info role.date.day
    replenishRemainToday := (config.month role.date.month).replenishLimitToday - role.replenishUsedToday }

/-- The test of `daily_reset`: the role logged out in another month, or the month begins. -/
def Role.Resets : Prop := ¬ (dateOf role.logoutDay).SameMonth role.date ∨ role.date.day = 1

instance : Decidable role.Resets := inferInstanceAs (Decidable (_ ∨ _))

/-- The start of a month in `daily_reset`. -/
def Role.startMonth : Role :=
  { role with
    info := fun _ => .unpick
    chestInfo := fun _ => .unpick
    rechargeIntegral := 0
    replenishCount := (config.month role.date.month).replenishInitNum
    replenishUsedCount := 0 }

/-- The rest of `daily_reset`, which makes the days up to today pickable. -/
def Role.startDay : Role :=
  { role with
    info := fun day =>
      if 1 ≤ day ∧ day ≤ daysInMonth role.date.year role.date.month then
        if day ≤ role.date.day then if role.info day = .unpick then .pick else role.info day
        else .unpick
      else role.info day
    todayActiveReplenish := false
    replenishUsedToday := 0
    replenishRemainToday := (config.month role.date.month).replenishLimitToday }

def Role.dailyReset : Role :=
  if role.Resets then (role.startMonth config).startDay config else role.startDay config

def Role.mark : Role := { role with lastDaily := role.today }

def Role.checkDailyZeroRefresh : Role :=
  if role.lastDaily < role.today then role.mark.dailyReset config else role

def Role.getReplenishCountByRecharge (progress : ℤ) : Role :=
  if progress ≤ 0 then role
  else
    let newNum := role.rechargeIntegral + progress
    { role with
      rechargeIntegral := newNum
      replenishCount := role.replenishCount +
        (config.month role.date.month).rechargeRequire.countP
          fun value => newNum ≥ value ∧ role.rechargeIntegral < value }

/-- `get_replenish_count_by_active`, with so many active points. -/
def Role.getReplenishCountByActive (active requireNum : ℤ) : Role :=
  if role.todayActiveReplenish = true ∨ active < requireNum then role
  else
    { role with
      todayActiveReplenish := true
      replenishCount :=
        if role.replenishCount < config.monthCheckLimit then role.replenishCount + 1
        else role.replenishCount }

/-- The make-up check-in of `check_in`, which is paid before the day is looked at, or is refused. -/
def Role.replenish : Option Role :=
  let limit := (config.month role.date.month).replenishLimitToday
  if role.replenishUsedCount ≥ config.monthCheckLimit then none
  else if role.replenishUsedToday < limit ∧ role.replenishCount - role.replenishUsedCount > 0 then
    some { role with
      replenishUsedToday := role.replenishUsedToday + 1
      replenishUsedCount := role.replenishUsedCount + 1
      replenishRemainToday := limit - (role.replenishUsedToday + 1) }
  else none

/-- `reward_count` of a day, which is doubled for a vip. -/
def CheckInMonthlyData.rewardCountFor (row : CheckInMonthlyData) (day vip : ℕ) : ℤ :=
  row.vipDay.foldl (fun count request =>
    if request.1 = day ∧ vip ≥ request.2 then count + count else count) (row.rewardCount day)

/-- The days and the chests that `check_in` changes. -/
def Role.pickDay (day vip : ℕ) : Role :=
  let row := config.month role.date.month
  { role with
    info := Function.update role.info day .picked
    checkInCount := role.checkInCount + 1
    chestInfo := fun id =>
      if 1 ≤ id ∧ id ≤ config.chestNum ∧ role.checkInCount + 1 ≥ row.chestDayRequest id ∧
        role.chestInfo id = .unpick then .pick
      else role.chestInfo id
    rewards := ⟨role.date.monthIndex, .day day, [(row.rewardId day, row.rewardCountFor day vip)]⟩ ::
      role.rewards }

/-- The days that `check_in` accepts. -/
def Role.IsDay (day : ℤ) : Prop := 0 < day ∧ day ≤ daysInMonth role.date.year role.date.month

instance (day : ℤ) : Decidable (role.IsDay day) := inferInstanceAs (Decidable (_ ∧ _))

/-- `check_in`, and whether it takes effect. -/
def Role.checkIn (day : ℤ) (vip : ℕ) : Role × Bool :=
  if role.IsDay day then
    match if day ≠ role.date.day then role.replenish config else some role with
    | none => (role, false)
    | some paid =>
      if paid.info day.toNat = .pick then (paid.pickDay config day.toNat vip, true) else (paid, false)
  else (role, false)

def Role.receiveChestAward (id : ℤ) : Role :=
  if id > config.chestNum ∨ id ≤ 0 then role
  else
    match (config.month role.date.month).chestReward id.toNat with
    | none => role
    | some items =>
      if role.chestInfo id.toNat = .pick then
        { role with
          chestInfo := Function.update role.chestInfo id.toNat .picked
          rewards := ⟨role.date.monthIndex, .chest id.toNat, items⟩ :: role.rewards }
      else role

def Role.nextDay : Role := { role with today := role.today + 1 }

inductive Event where
  | nextDay
  | logout
  | login
  | recharge (progress : ℤ)
  | active (points requireNum : ℤ)
  | checkIn (day : ℤ) (vip : ℕ)
  | chest (id : ℤ)

def step (role : Role) (event : Event) : Option Role :=
  match event, role.isOnline with
  | .nextDay, true => some (role.nextDay.checkDailyZeroRefresh config)
  | .nextDay, false => some role.nextDay
  | .login, false => some ((role.load config).checkDailyZeroRefresh config)
  | .logout, true => some { role with isOnline := false, logoutDay := role.today }
  | .recharge progress, true => some (role.getReplenishCountByRecharge config progress)
  | .active points requireNum, true => some (role.getReplenishCountByActive config points requireNum)
  | .checkIn day vip, true => some (role.checkIn config day vip).1
  | .chest id, true => some (role.receiveChestAward config id)
  | _, _ => none

def Role.numPicked : ℕ := countPicked role.info 31

structure Role.Good : Prop where
  once : (role.rewards.map fun reward => (reward.month, reward.source)).Nodup
  counted : role.isOnline = true → role.checkInCount = role.numPicked
  /-- A chest can be claimed if the count has reached its requirement. -/
  chests : role.isOnline = true → ∀ id, role.chestInfo id = .pick →
    (config.month role.date.month).chestDayRequest id ≤ role.checkInCount

/-- An event leaves a good role, and a check-in that is refused changes nothing. -/
def Right (event : Event) : Prop :=
  (∀ after, step config role event = some after → after.Good config) ∧
    ∀ day vip, event = .checkIn day vip → role.isOnline = true →
      (role.checkIn config day vip).2 = false → (role.checkIn config day vip).1 = role

/-- A list that is thrown away has nothing picked in it that is counted, and a make-up check-in is for a day
that can be picked. -/
def Permitted : Event → Prop
  | .nextDay => role.isOnline = true → role.nextDay.Resets → role.checkInCount = 0
  | .login => role.isOnline = false → role.lastDaily < role.today → role.Resets →
      countPicked role.info role.date.day = 0
  | .checkIn day _ => role.isOnline = true → role.IsDay day → day ≠ role.date.day →
      (role.replenish config).isSome = true → role.info day.toNat = .pick
  | _ => True

end UEServer.CheckIn
