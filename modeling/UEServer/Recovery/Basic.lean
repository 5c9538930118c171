import Mathlib.Data.Int.Order.Basic
import UEServer.Library.Execution

/-!
# Counters that recover

Action points of `meta_table/stage.lua`, challenge tickets of `traitor.lua`, discussions of `lover.lua` and
chances to hunt rare animals of `hunt.lua`.  A counter below its limit gets one unit in every period: from
a timer while the role is loaded, and from its timestamp when the role is loaded again.  The four modules
have the same functions with different values, so each counter is given by its values here.

The clock counts hundredths of a second, as that of the timers does.
-/

namespace UEServer.Recovery

def minute : ℤ := 60

def hour : ℤ := 3600

def timeSecond (now : ℤ) : ℤ := now / 100

/-- The values in which the modules differ.  Times are seconds, and depend on the role's level. -/
structure Counter where
  limit : ℕ → ℕ → ℤ
  /-- The period that is used when the role is loaded, and by the timer that is started then. -/
  loadTime : ℕ → ℤ
  /-- The period of a timer that is started later. -/
  startTime : ℕ → ℤ
  maxNum : Option ℤ
  /-- The timer is started when the VIP level rises. -/
  startsOnVip : Bool
  /-- The catch-up is done at each connection, not only when the role is loaded. -/
  loadsOnline : Bool
  loadTime_pos : ∀ level, 0 < loadTime level
  startTime_pos : ∀ level, 0 < startTime level
  limit_le_maxNum : ∀ num ∈ maxNum, ∀ level vip, limit level vip ≤ num

structure Params where
  stageActionPointLimit : ℤ
  actionPointRecoverTime : ℤ
  stageActionPointMaxNum : ℤ
  traitorChallengeTicketLimit : ℤ
  traitorTicketRecoverTime : ℤ
  huntRareAnimalNum : ℤ
  huntRareAnimalTime : ℤ
  /-- `discuss_max_count` of `LevelData`. -/
  discussMaxCount : ℕ → ℤ
  /-- `energy_cooldown` of `LevelData`. -/
  energyCooldown : ℕ → ℤ
  /-- `date_lover_num` of `VipData`. -/
  dateLoverNum : ℕ → ℤ
  /-- The limit of the action points is not above their maximum. -/
  stageActionPointLimit_le : stageActionPointLimit ≤ stageActionPointMaxNum
  actionPointRecoverTime_pos : 0 < actionPointRecoverTime
  traitorTicketRecoverTime_pos : 0 < traitorTicketRecoverTime
  huntRareAnimalTime_pos : 0 < huntRareAnimalTime
  energyCooldown_pos : ∀ level, 0 < energyCooldown level

/-- `action_point` of `stage.lua`. -/
def Params.actionPoint (params : Params) : Counter where
  limit := fun _ _ => params.stageActionPointLimit
  loadTime := fun _ => params.actionPointRecoverTime * minute
  startTime := fun _ => params.actionPointRecoverTime * minute
  maxNum := some params.stageActionPointMaxNum
  startsOnVip := false
  loadsOnline := false
  loadTime_pos := fun _ => Int.mul_pos params.actionPointRecoverTime_pos (by decide)
  startTime_pos := fun _ => Int.mul_pos params.actionPointRecoverTime_pos (by decide)
  limit_le_maxNum := fun _ found _ _ => Option.some.inj found ▸ params.stageActionPointLimit_le

/-- `challenge_ticket` of `traitor.lua`. -/
def Params.challengeTicket (params : Params) : Counter where
  limit := fun _ _ => params.traitorChallengeTicketLimit
  loadTime := fun _ => params.traitorTicketRecoverTime * hour
  startTime := fun _ => params.traitorTicketRecoverTime * minute
  maxNum := none
  startsOnVip := false
  loadsOnline := false
  loadTime_pos := fun _ => Int.mul_pos params.traitorTicketRecoverTime_pos (by decide)
  startTime_pos := fun _ => Int.mul_pos params.traitorTicketRecoverTime_pos (by decide)
  limit_le_maxNum := fun _ found => absurd found nofun

/-- `hunt_num` of `hunt.lua`. -/
def Params.huntNum (params : Params) : Counter where
  limit := fun _ _ => params.huntRareAnimalNum
  loadTime := fun _ => params.huntRareAnimalTime
  startTime := fun _ => params.huntRareAnimalTime * 60
  maxNum := none
  startsOnVip := false
  loadsOnline := true
  loadTime_pos := fun _ => params.huntRareAnimalTime_pos
  startTime_pos := fun _ => Int.mul_pos params.huntRareAnimalTime_pos (by decide)
  limit_le_maxNum := fun _ found => absurd found nofun

/-- `discuss_num` of `lover.lua`. -/
def Params.discussNum (params : Params) : Counter where
  limit := fun level vip => params.discussMaxCount level + params.dateLoverNum vip
  loadTime := params.energyCooldown
  startTime := params.energyCooldown
  maxNum := none
  startsOnVip := true
  loadsOnline := false
  loadTime_pos := params.energyCooldown_pos
  startTime_pos := params.energyCooldown_pos
  limit_le_maxNum := fun _ found => absurd found nofun

def Params.counters (params : Params) : List Counter :=
  [params.actionPoint, params.challengeTicket, params.huntNum, params.discussNum]

structure TimerLoop where
  nextTs : ℤ
  /-- `duration`, in seconds. -/
  duration : ℤ
  deriving DecidableEq

/-- `timer_loop` of a role. -/
def timerLoop (now duration delay : ℤ) : TimerLoop where
  nextTs := now + delay * 100
  duration := duration

/-- A role, as far as one counter goes. -/
structure RoleState where
  now : ℤ
  level : ℕ
  vip : ℕ
  num : ℤ
  ts : ℤ
  timer : Option TimerLoop
  loaded : Bool
  deriving DecidableEq

def Counter.maxOf (counter : Counter) (role : RoleState) : ℤ :=
  counter.limit role.level role.vip

/-- What `load_stage`, `load_traitor`, `load_lover` and `online_hunt` do with the counter. -/
def Counter.load (counter : Counter) (role : RoleState) : RoleState :=
  if role.num < counter.maxOf role then
    let now := timeSecond role.now
    let recoverTime := counter.loadTime role.level
    let addNum := (now - role.ts) / recoverTime
    let totalNum := addNum + role.num
    if totalNum < counter.maxOf role then
      let ts := role.ts + recoverTime * addNum
      let delay := recoverTime - (now - ts) % recoverTime
      { role with num := totalNum, ts := ts, timer := some (timerLoop role.now recoverTime delay) }
    else { role with num := counter.maxOf role, ts := now }
  else role

/-- `action_point_recover`, `challenge_ticket_recover`, `hunt_num_recover` and `discuss_num_recover`. -/
def Counter.recover (counter : Counter) (role : RoleState) : RoleState :=
  let role :=
    if role.num < counter.maxOf role then
      { role with num := role.num + 1, ts := timeSecond role.now }
    else role
  if counter.maxOf role ≤ role.num then { role with timer := none } else role

/-- A hundredth of a second passes.  A timer that is due is called, and set again unless it was
cancelled. -/
def Counter.pass (counter : Counter) (role : RoleState) : RoleState :=
  let role := { role with now := role.now + 1 }
  match role.timer with
  | none => role
  | some timer =>
      if timer.nextTs ≤ role.now then
        let role := counter.recover role
        { role with timer := role.timer.map fun timer =>
            { timer with nextTs := timer.nextTs + timer.duration * 100 } }
      else role

/-- Start the timer unless there is one, and set the timestamp, while the counter is below its limit. -/
def Counter.startTimer (counter : Counter) (role : RoleState) : RoleState :=
  if role.num < counter.maxOf role ∧ role.timer = none then
    { role with
      ts := timeSecond role.now
      timer := some (timerLoop role.now (counter.startTime role.level) (counter.startTime role.level)) }
  else role

/-- `change_action_point`, `change_challenge_ticket`, `lover_discuss` and `start_hunt_rare_animal`: spend a
number of units, for the last two one. -/
def Counter.spend (counter : Counter) (num : ℕ) (role : RoleState) : RoleState :=
  if role.num < num then role else counter.startTimer { role with num := role.num - num }

def Counter.capped (counter : Counter) (num : ℤ) : ℤ :=
  match counter.maxNum with
  | none => num
  | some maxNum => if maxNum < num then maxNum else num

/-- `change_action_point` and `change_challenge_ticket` with `is_add`, and what `recover_energy` and
`add_hunt_num` do once the item is consumed. -/
def Counter.add (counter : Counter) (num : ℕ) (role : RoleState) : RoleState :=
  let role := { role with num := counter.capped (role.num + num) }
  if counter.maxOf role ≤ role.num then { role with timer := none } else role

/-- `use_action_point_item`, for a number of units: items that would exceed the maximum are not used.  The
other counters have no maximum. -/
def Counter.useItem (counter : Counter) (num : ℕ) (role : RoleState) : RoleState :=
  if counter.capped (role.num + num) < role.num + num then role else counter.add num role

inductive Event where
  | pass
  | spend (num : ℕ)
  | add (num : ℕ)
  | useItem (num : ℕ)
  | levelUp (level : ℕ)
  | vipUp (vip : ℕ)
  | reconnect
  /-- `logout`, with which the role and its timers are removed. -/
  | logout
  | login
  deriving DecidableEq

/-- One step; nothing if the event cannot happen. -/
def Counter.step (counter : Counter) (role : RoleState) : Event → Option RoleState
  | .pass => some (counter.pass role)
  | .spend num => if role.loaded then some (counter.spend num role) else none
  | .add num => if role.loaded then some (counter.add num role) else none
  | .useItem num => if role.loaded then some (counter.useItem num role) else none
  | .levelUp level => if role.loaded then some { role with level := level } else none
  | .vipUp vip =>
      if role.loaded then
        let role := { role with vip := vip }
        some (if counter.startsOnVip then counter.startTimer role else role)
      else none
  | .reconnect =>
      if role.loaded then some (if counter.loadsOnline then counter.load role else role) else none
  | .logout => if role.loaded then some { role with timer := none, loaded := false } else none
  | .login => if role.loaded then none else some (counter.load { role with loaded := true })

/-- What happens to a role whether or not it logs out. -/
def Event.stays : Event → Bool
  | .reconnect | .logout | .login => false
  | _ => true

/-- What the database keeps of a counter, when the role is not loaded. -/
structure Stored where
  now : ℤ
  level : ℕ
  vip : ℕ
  num : ℤ
  ts : ℤ

def Stored.role (stored : Stored) : RoleState where
  now := stored.now
  level := stored.level
  vip := stored.vip
  num := stored.num
  ts := stored.ts
  timer := none
  loaded := false

/-- The value after recovery until a time: a unit for each period since the timestamp, which was set in
hundredth `frac` of its second. -/
def Counter.recovered (counter : Counter) (frac : ℤ) (role : RoleState) (time : ℤ) : ℤ :=
  if role.num < counter.maxOf role then
    min (counter.maxOf role)
      (role.num + (time - (role.ts * 100 + frac)) / (counter.startTime role.level * 100))
  else role.num

/-- Offline recovery equals online recovery, in a state that a run has reached. -/
structure Recovers (counter : Counter) (frac : ℤ) (stored : Stored) (events : List Event)
    (role : RoleState) : Prop where
  /-- A role to which the same has happened, without having been offline in between, has the same. -/
  same : role.loaded = true → ∃ twin,
    Execution.run counter.step stored.role (.login :: events.filter Event.stays) = some twin ∧
      twin.num = role.num
  bounded : ∀ event, event = .pass ∨ event = .login ∨ event = .reconnect →
    ∀ next, counter.step role event = some next → next.num ≤ max role.num (counter.maxOf role)
  online : role.loaded = true → ∀ elapsed : ℕ, ∃ next,
    Execution.run counter.step role (List.replicate elapsed .pass) = some next ∧
      next.num = counter.recovered frac role (role.now + elapsed)
  /-- A role that has just logged out and in again has got one unit in each period. -/
  offline : ∀ front elapsed before,
    events = front ++ .logout :: (List.replicate elapsed .pass ++ [.login]) →
    Execution.run counter.step stored.role (.login :: front) = some before →
      role.num = counter.recovered frac before (before.now + elapsed)

/-- What the catch-up needs: the counter has one period, and a timer that is started now is called in
hundredth `frac` of a second. -/
def Counter.InPhase (counter : Counter) (frac : ℤ) (role : RoleState) : Prop :=
  counter.loadTime role.level = counter.startTime role.level ∧ role.now % 100 = frac

instance (counter : Counter) (frac : ℤ) (role : RoleState) : Decidable (counter.InPhase frac role) :=
  inferInstanceAs (Decidable (_ ∧ _))

/-- The condition on a step. -/
def Counter.Steady (counter : Counter) (frac : ℤ) (role : RoleState) : Event → Prop
  | .login => role.num < counter.maxOf role → counter.InPhase frac role
  | .reconnect =>
      counter.loadsOnline = true → role.num < counter.maxOf role → counter.InPhase frac role
  | .spend num =>
      num ≤ role.num → role.num - num < counter.maxOf role → role.timer = none → role.now % 100 = frac
  | .levelUp level =>
      counter.maxOf role ≤ counter.limit level role.vip ∧
        (counter.limit level role.vip ≤ role.num ∨
          role.num < counter.maxOf role ∧ counter.startTime level = counter.startTime role.level)
  | .vipUp vip =>
      counter.maxOf role ≤ counter.limit role.level vip ∧
        (counter.limit role.level vip ≤ role.num ∨ role.num < counter.maxOf role ∨
          counter.startsOnVip = true ∧ role.now % 100 = frac)
  | _ => True

instance (counter : Counter) (frac : ℤ) (role : RoleState) :
    (event : Event) → Decidable (counter.Steady frac role event)
  | .login => inferInstanceAs (Decidable (_ → _))
  | .reconnect => inferInstanceAs (Decidable (_ → _ → _))
  | .spend _ => inferInstanceAs (Decidable (_ → _ → _ → _))
  | .levelUp _ => inferInstanceAs (Decidable (_ ∧ _))
  | .vipUp _ => inferInstanceAs (Decidable (_ ∧ _))
  | .pass | .add _ | .useItem _ | .logout => isTrue trivial

end UEServer.Recovery
