import Mathlib
import UEServer.Library.Execution

/-!
# The traitor boss of a server

`agent/traitor_boss_utils.lua`: the record of the boss, the timers of its activity, and the start of
the server from the saved record.  A label is what happens between two points where the service
waits; the only wait inside an operation is the question for the ranks of the dynasties, in
`give_rank_reward`.
-/

namespace UEServer.TraitorBoss

def hpSum (hpDict : List (Nat × Int)) : Int :=
  (hpDict.map Prod.snd).sum

/-- The calendar of the server and the tables that the activity reads. -/
structure Config where
  /-- `open_day[week_day]` at a time. -/
  openDay : Int → Bool
  /-- First second of the activity on the day of a time. -/
  startTime : Int → Int
  /-- End of the activity on the day of a time. -/
  closeTime : Int → Int
  challengeRecoverTime : Int
  /-- `traitor_boss_level_param`. -/
  levelParam : Int
  /-- `traitor_boss_refresh_time`: the mean and the spread of the time to a revival. -/
  refreshTime : Int × Int
  /-- `TraitorBossData` has a row for the level. -/
  isLevel : Int → Bool
  /-- `hp_dict` of `build_boss_info`. -/
  buildBossInfo : Int → List (Nat × Int)
  level_one : isLevel 1 = true
  level_below : ∀ {level below}, isLevel level = true → 1 ≤ below → below ≤ level →
    isLevel below = true
  levelParam_nonneg : 0 ≤ levelParam
  boss_alive : ∀ {level}, isLevel level = true → 0 < hpSum (buildBossInfo level)

/-- The tables of the server, in universal time. -/
def excelConfig : Config where
  openDay now := (now / 86400 + 4) % 7 = 1 || (now / 86400 + 4) % 7 = 5
  startTime now := now - now % 86400 + 12 * 3600
  closeTime now := now - now % 86400 + 20 * 3600
  challengeRecoverTime := 60 * 60
  levelParam := 120
  refreshTime := (30, 2)
  isLevel level := 1 ≤ level && level ≤ 201
  buildBossInfo level := [1, 2, 3, 4, 5, 6].map fun pos => (pos, 50 * (1000 * level))
  level_one := by decide
  level_below {level below} := by
    simp only [Bool.and_eq_true, decide_eq_true_eq]
    omega
  levelParam_nonneg := by decide
  boss_alive {level} := by
    simp only [Bool.and_eq_true, decide_eq_true_eq, hpSum, List.map_cons, List.map_nil,
      List.sum_cons, List.sum_nil]
    omega

/-- The document `TraitorBoss`. -/
structure BossData where
  bossLevel : Int := 1
  isOpen : Bool := false
  /-- `max_hp`; not read before the first opening. -/
  maxHp : Int := 0
  /-- `hp_dict`; not read before the first opening. -/
  hpDict : List (Nat × Int) := []
  reviveTs : Option Int := none
  /-- `challenge_recover_num`; not read before the first opening. -/
  challengeRecoverNum : Int := 0
  killedRole : Option String := none
  deriving DecidableEq

namespace BossData

def hp (data : BossData) : Int :=
  hpSum data.hpDict

/-- What `open` writes. -/
def opened (cfg : Config) (data : BossData) : BossData :=
  let newLevel := data.bossLevel - cfg.levelParam
  let newLevel := if newLevel < 1 then 1 else newLevel
  { data with
    isOpen := true
    challengeRecoverNum := 0
    bossLevel := newLevel
    maxHp := hpSum (cfg.buildBossInfo newLevel)
    hpDict := cfg.buildBossInfo newLevel }

/-- What `close` writes. -/
def closed (data : BossData) : BossData :=
  { data with isOpen := false }

/-- What `challenge_num_recover` writes. -/
def recovered (data : BossData) : BossData :=
  { data with challengeRecoverNum := data.challengeRecoverNum + 1 }

/-- What `death` writes. -/
def died (cfg : Config) (data : BossData) (roleName : String) (reviveTs : Int) : BossData :=
  { data with
    bossLevel := if cfg.isLevel (data.bossLevel + 1) then data.bossLevel + 1 else data.bossLevel
    hpDict := []
    killedRole := some roleName
    reviveTs := some reviveTs }

/-- What `revive` writes. -/
def revived (cfg : Config) (data : BossData) : BossData :=
  { data with
    maxHp := hpSum (cfg.buildBossInfo data.bossLevel)
    hpDict := cfg.buildBossInfo data.bossLevel
    killedRole := none
    reviveTs := none }

end BossData

/-- What a timer of the module calls. -/
inductive TimerKind where
  | opening
  | closing
  | revival
  | recovery
  deriving DecidableEq

/-- A timer that has not fired and is not cancelled. -/
structure Timer where
  guid : Nat
  due : Int
  kind : TimerKind
  deriving DecidableEq

/-- A `close` that waits for the ranks of the dynasties. -/
structure Closing where
  opening : Nat
  /-- It was called by `start`, which waits with it. -/
  inStart : Bool
  /-- The opening for which `start` then sets the timer. -/
  nextOpen : Option Int
  deriving DecidableEq

structure State where
  data : BossData
  stored : BossData
  marked : Bool
  timers : List Timer
  /-- Last `guid` of a timer. -/
  guid : Nat
  stateTimer : Option Nat
  reviveTimer : Option Nat
  challengeNumTimer : Option Nat
  /-- Calls of `close` that wait for the ranks. -/
  waiting : List Closing
  openings : Nat
  /-- The openings whose rank rewards have been sent. -/
  rewarded : List Nat
  /-- The hit points of a living boss before and after every restart. -/
  restarts : List (List (Nat × Int) × List (Nat × Int))
  deriving DecidableEq

namespace State

variable (cfg : Config)

def save (state : State) (data : BossData) : State :=
  { state with data := data, marked := true }

/-- `timer.once` or `timer.loop`, and the assignment of the timer to its variable. -/
def startTimer (state : State) (kind : TimerKind) (due : Int) : State :=
  let guid := state.guid + 1
  let timer : Timer := { guid := guid, due := due, kind := kind }
  let started := { state with timers := state.timers ++ [timer], guid := guid }
  match kind with
  | .opening | .closing => { started with stateTimer := some guid }
  | .revival => { started with reviveTimer := some guid }
  | .recovery => { started with challengeNumTimer := some guid }

/-- The timers without the one of a variable. -/
def cancelled (timers : List Timer) (guid : Option Nat) : List Timer :=
  timers.filter fun timer => some timer.guid ≠ guid

def nextRecovery (now : Int) : Int :=
  now + (cfg.challengeRecoverTime - (now - cfg.startTime now) % cfg.challengeRecoverTime)

def openBoss (state : State) (now : Int) : State :=
  ((({ state with openings := state.openings + 1 }.save (state.data.opened cfg)).startTimer
    .closing (cfg.closeTime now)).startTimer .recovery (nextRecovery cfg now))

/-- `close`, up to the question for the ranks of the dynasties. -/
def closeBoss (state : State) (inStart : Bool) (nextOpen : Option Int) : State :=
  { state.save state.data.closed with
    timers := cancelled (cancelled state.timers state.reviveTimer) state.challengeNumTimer
    reviveTimer := none
    challengeNumTimer := none
    waiting := state.waiting ++
      [{ opening := state.openings, inStart := inStart, nextOpen := nextOpen }] }

def revive (state : State) : State :=
  state.save (state.data.revived cfg)

/-- `death`, with the time that `math.random` gives. -/
def death (state : State) (roleName : String) (now delay : Int) : State :=
  (state.save (state.data.died cfg roleName (now + delay))).startTimer .revival (now + delay)

def onHurt (state : State) (hpDict : List (Nat × Int)) (roleName : String) (now delay : Int) :
    State :=
  let hurt := { state with data := { state.data with hpDict := hpDict } }
  if hpSum hpDict ≤ 0 then hurt.death cfg roleName now delay else hurt

/-- `give_rank_reward`, from the answer of the dynasties, and the rest of a `start` that waited. -/
def giveRankReward (state : State) (closing : Closing) : State :=
  let given := { state with
    waiting := state.waiting.erase closing
    rewarded := state.rewarded ++ [closing.opening] }
  match closing.nextOpen with
  | none => given
  | some due => given.startTimer .opening due

def callback (state : State) (timer : Timer) (now : Int) : State :=
  match timer.kind with
  | .opening => openBoss cfg { state with stateTimer := none } now
  | .closing => closeBoss { state with stateTimer := none } false none
  | .revival => revive cfg { state with reviveTimer := none }
  | .recovery => state.save state.data.recovered

/-- A timer fires; a loop timer is set again. -/
def fire (state : State) (timer : Timer) (now : Int) : State :=
  let rest := state.timers.erase timer
  let rest := if timer.kind = .recovery then
      rest ++ [{ timer with due := timer.due + cfg.challengeRecoverTime }]
    else rest
  callback cfg { state with timers := rest } timer now

def dailyRefresh (state : State) (now : Int) : State :=
  if cfg.openDay now && (now < cfg.startTime now && state.stateTimer.isNone) then
    state.startTimer .opening (cfg.startTime now)
  else
    state

/-- The part of `start` for an open activity in its time. -/
def resume (state : State) (now : Int) : State :=
  let revival :=
    match state.data.reviveTs with
    | none => state
    | some reviveTs =>
        if reviveTs ≤ now then state.revive cfg else state.startTimer .revival reviveTs
  (revival.startTimer .closing (cfg.closeTime now)).startTimer .recovery (nextRecovery cfg now)

def start (state : State) (now : Int) : State :=
  if state.data.isOpen then
    if cfg.openDay now then
      if now < cfg.startTime now then state.closeBoss true (some (cfg.startTime now))
      else if cfg.closeTime now ≤ now then state.closeBoss true none
      else state.resume cfg now
    else
      state.closeBoss true none
  else
    if cfg.openDay now then
      if now < cfg.startTime now then state.startTimer .opening (cfg.startTime now)
      else if now < cfg.closeTime now then state.openBoss cfg now
      else state
    else
      state

/-- The process that is started after this one has ended: it has the saved record. -/
def reloaded (state : State) : State :=
  { state with
    data := state.stored
    marked := false
    timers := []
    stateTimer := none
    reviveTimer := none
    challengeNumTimer := none
    waiting := [] }

def Living (state : State) : Prop :=
  state.data.isOpen = true ∧ 0 < state.data.hp

instance (state : State) : Decidable state.Living :=
  inferInstanceAs (Decidable (_ ∧ _))

def restart (state : State) (now : Int) : State :=
  let started := state.reloaded.start cfg now
  if state.Living then
    { started with restarts := started.restarts ++ [(state.data.hpDict, started.data.hpDict)] }
  else
    started

end State

inductive Label where
  | fire (timer : Timer) (now : Int)
  | dailyRefresh (now : Int)
  /-- A challenge ends with these hit points; if the boss dies, it comes back after the delay. -/
  | hurt (hpDict : List (Nat × Int)) (roleName : String) (now delay : Int)
  | answer (closing : Closing)
  | save
  /-- The process ends, with or without a save, and is started again. -/
  | restart (now : Int)

/-- Run one label, if it is possible. A challenge needs an open activity and a living boss, and the
refresh at midnight is started after `start`. -/
def step (cfg : Config) (state : State) : Label → Option State
  | .fire timer now =>
      if timer ∈ state.timers ∧ timer.due ≤ now then some (state.fire cfg timer now) else none
  | .dailyRefresh now =>
      if ∀ closing ∈ state.waiting, closing.inStart = false then some (state.dailyRefresh cfg now)
      else none
  | .hurt hpDict roleName now delay =>
      if state.Living ∧ cfg.refreshTime.1 - cfg.refreshTime.2 ≤ delay ∧
          delay ≤ cfg.refreshTime.1 + cfg.refreshTime.2 then
        some (state.onHurt cfg hpDict roleName now delay)
      else none
  | .answer closing =>
      if closing ∈ state.waiting then some (state.giveRankReward closing) else none
  | .save => some (if state.marked then { state with stored := state.data, marked := false }
      else state)
  | .restart now => some (state.restart cfg now)

/-- The server has been installed, and not started. -/
def initial : State where
  data := {}
  stored := {}
  marked := false
  timers := []
  guid := 0
  stateTimer := none
  reviveTimer := none
  challengeNumTimer := none
  waiting := []
  openings := 0
  rewarded := []
  restarts := []

end UEServer.TraitorBoss
