import UEServer.Traitor.Boss

/-!
# A role and the traitor boss

The record `traitor_boss` of a role in `agent/meta_table/traitor.lua`, and what `open`, `close`,
`challenge_num_recover` and `death` of the boss do to the roles that are online.  Beside the role
there is one that has been online throughout and has done the same.
-/

namespace UEServer.TraitorBoss

/-- A row of `TraitorBossRewardData`. -/
structure RewardRow where
  requireHonour : Option Int
  requireBossLevel : Option Int

/-- The tables that the record of a role depends on. -/
structure RoleConfig extends Config where
  /-- `traitor_boss_init_challenge_num`. -/
  initChallengeNum : Int
  /-- `traitor_boss_honour_param`. -/
  honourParam : Int
  /-- `cross_traitor_boss_honour_param`. -/
  crossHonourParam : Int
  /-- `TraitorBossRewardData`, by id. -/
  rewardData : List (Int × RewardRow)
  honour_pos : ∀ {id row honour}, (id, row) ∈ rewardData → row.requireHonour = some honour →
    0 < honour

def rewardHonours : List Int :=
  [80, 160, 240, 320, 400, 800, 960, 1120, 1280, 1440, 1600, 2400, 2720, 3040, 3360, 3680, 4000,
    5600, 6240, 6880, 7520, 8160, 8800, 12000, 13280, 14560, 15840, 17120, 18400, 24800, 27360,
    29920, 32480, 35040, 37600, 50400, 55520, 60640, 65760, 70880, 76000, 101600]

/-- `TraitorBossRewardData` of the server: rewards for honour, and from 43 on for every fifth
level. -/
def excelRewardData : List (Int × RewardRow) :=
  (rewardHonours.zipIdx.map fun (honour, index) => ((index : Int) + 1, ⟨some honour, none⟩)) ++
    (List.range 40).map fun index => ((index : Int) + 43, ⟨none, some (5 * ((index : Int) + 1))⟩)

/-- The tables of the server. -/
def excelRoleConfig : RoleConfig where
  toConfig := excelConfig
  initChallengeNum := 10
  honourParam := 1000
  crossHonourParam := 1000
  rewardData := excelRewardData
  honour_pos {id row honour} member required := by
    have positive : ∀ pair ∈ excelRewardData, ∀ honour ∈ pair.2.requireHonour, 0 < honour := by
      decide
    exact positive _ member honour required

/-- `traitor_boss` of a role. -/
@[ext]
structure RoleBoss where
  isOpen : Bool := false
  challengeRecoverNum : Int := 0
  challengeNum : Int := 0
  buyChallengeNum : Int := 0
  honour : Int := 0
  maxHurt : Int := 0
  /-- `reward_dict`: true for a reward that can be taken, absent once it is taken. -/
  rewardDict : Int → Option Bool := fun _ => none

namespace RoleBoss

/-- The reward is for an honour that the role has. -/
def honoured (row : RewardRow) (honour : Int) : Bool :=
  row.requireHonour.any (· ≤ honour)

/-- The reward is for a level that the boss has. -/
def levelled (row : RewardRow) (bossLevel : Int) : Bool :=
  row.requireBossLevel.any (· ≤ bossLevel)

/-- The condition of `set_traitor_boss_reward_dict`. -/
def reached (row : RewardRow) (honour : Int) (bossLevel : Option Int) : Bool :=
  honoured row honour || bossLevel.any (levelled row)

/-- `set_traitor_boss_reward_dict`. -/
def setRewardDict (cfg : RoleConfig) (bossLevel : Option Int) (role : RoleBoss) : RoleBoss :=
  { role with
    rewardDict := fun id =>
      match cfg.rewardData.lookup id with
      | none => role.rewardDict id
      | some row =>
          if role.rewardDict id = some false ∧ reached row role.honour bossLevel then some true
          else role.rewardDict id }

/-- `traitor_boss_open`. -/
def opened (cfg : RoleConfig) : RoleBoss where
  isOpen := true
  challengeRecoverNum := 0
  challengeNum := cfg.initChallengeNum
  buyChallengeNum := 0
  honour := 0
  maxHurt := 0
  rewardDict := fun id => (cfg.rewardData.lookup id).map fun _ => false

/-- `traitor_boss_close`. -/
def closed (role : RoleBoss) : RoleBoss :=
  { role with isOpen := false, challengeNum := 0 }

/-- `challenge_num_recover`. -/
def recovered (role : RoleBoss) : RoleBoss :=
  { role with
    challengeRecoverNum := role.challengeRecoverNum + 1
    challengeNum := role.challengeNum + 1 }

/-- The branches of `load_traitor_boss`. -/
def synced (cfg : RoleConfig) (boss : BossData) (role : RoleBoss) : RoleBoss :=
  if boss.isOpen then
    if role.isOpen then
      if role.challengeRecoverNum < boss.challengeRecoverNum then
        { role with
          challengeNum :=
            role.challengeNum + (boss.challengeRecoverNum - role.challengeRecoverNum)
          challengeRecoverNum := boss.challengeRecoverNum }
      else role
    else opened cfg
  else
    if role.isOpen then role.closed else role

/-- `load_traitor_boss`. -/
def load (cfg : RoleConfig) (boss : BossData) (role : RoleBoss) : RoleBoss :=
  (role.synced cfg boss).setRewardDict cfg (some (boss.bossLevel - 1))

/-- The part that a challenge and a cross-server challenge share, from the hurt on. -/
def hurtBoss (cfg : RoleConfig) (param hurt : Int) (role : RoleBoss) : RoleBoss :=
  let honour := hurt / param
  { role with
    maxHurt := if role.maxHurt < hurt then hurt else role.maxHurt
    honour := role.honour + if honour < 1 then 1 else honour }.setRewardDict cfg none

/-- `update_cross_traitor_fight`. -/
def crossFight (cfg : RoleConfig) (hurt : Int) (role : RoleBoss) : RoleBoss :=
  { role with challengeNum := role.challengeNum - 1 }.hurtBoss cfg cfg.crossHonourParam hurt

/-- `buy_traitor_boss_challenge_num`, for the limit of the role's vip level and items that suffice
or not. -/
def buy (num maxBuyNum : Int) (consumed : Bool) (role : RoleBoss) : RoleBoss :=
  if num < 1 ∨ maxBuyNum < role.buyChallengeNum + num ∨ consumed = false then role
  else
    { role with
      challengeNum := role.challengeNum + num
      buyChallengeNum := role.buyChallengeNum + num }

/-- `get_traitor_boss_reward`. -/
def takeReward (rewardId : Option Int) (role : RoleBoss) : RoleBoss :=
  { role with
    rewardDict := fun id =>
      if role.rewardDict id = some true ∧ (∀ only ∈ rewardId, only = id) then none
      else role.rewardDict id }

end RoleBoss

/-- What has happened to the boss since the role went offline, or since the last opening in that
time. -/
structure Missed where
  opened : Bool := false
  closed : Bool := false
  recoveries : Nat := 0
  died : Bool := false

/-- The boss, the role, and the role that has stayed online. -/
structure RoleState where
  boss : BossData
  record : RoleBoss
  /-- The record it would have if it had been online throughout. -/
  stayed : RoleBoss
  online : Bool
  missed : Missed

inductive Action where
  /-- A challenge, which leaves these hit points; a dead boss comes back at the time. -/
  | challenge (hpDict : List (Nat × Int)) (roleName : String) (reviveTs : Int)
  | crossFight (hurt : Int)
  | buy (num maxBuyNum : Int) (consumed : Bool)
  | takeReward (rewardId : Option Int)

/-- What happens to the boss and the role. -/
inductive RoleLabel where
  | openBoss
  | closeBoss
  | recover
  /-- The challenge of another role leaves these hit points; a dead boss comes back at the time. -/
  | hurt (hpDict : List (Nat × Int)) (roleName : String) (reviveTs : Int)
  | revive
  | login
  | logout
  | act (action : Action)

namespace RoleState

variable (cfg : RoleConfig)

/-- Something happens to the record of every role that is online. -/
def notify (state : RoleState) (change : RoleBoss → RoleBoss) : RoleState :=
  { state with
    record := if state.online then change state.record else state.record
    stayed := change state.stayed }

/-- `on_hurt`, for the boss and the roles that are online. -/
def onHurt (state : RoleState) (hpDict : List (Nat × Int)) (roleName : String) (reviveTs : Int) :
    RoleState :=
  let hurt := { state.boss with hpDict := hpDict }
  if hpSum hpDict ≤ 0 then
    let died := hurt.died cfg.toConfig roleName reviveTs
    { state with boss := died, missed := { state.missed with died := true } }.notify
      (RoleBoss.setRewardDict cfg (some died.bossLevel))
  else
    { state with boss := hurt }

/-- `challenge_traitor_boss`, from its checks to the rewards. -/
def challenge (state : RoleState) (hpDict : List (Nat × Int)) (roleName : String)
    (reviveTs : Int) : RoleState :=
  if state.record.challengeNum ≤ 0 ∨ state.boss.isOpen = false ∨ state.boss.hp ≤ 0 then state
  else
    let hurt := state.boss.hp - hpSum hpDict
    let spent := state.notify fun role => { role with challengeNum := role.challengeNum - 1 }
    (spent.onHurt cfg hpDict roleName reviveTs).notify
      (RoleBoss.hurtBoss cfg cfg.honourParam hurt)

/-- The role does something, and so does the one that has stayed online. -/
def act (state : RoleState) : Action → RoleState
  | .challenge hpDict roleName reviveTs => state.challenge cfg hpDict roleName reviveTs
  | .crossFight hurt => state.notify (RoleBoss.crossFight cfg hurt)
  | .buy num maxBuyNum consumed => state.notify (RoleBoss.buy num maxBuyNum consumed)
  | .takeReward rewardId => state.notify (RoleBoss.takeReward rewardId)

end RoleState

/-- Run one label, if it is possible: the activity is closed, recovers and is fought while it is
open. -/
def roleStep (cfg : RoleConfig) (state : RoleState) : RoleLabel → Option RoleState
  | .openBoss =>
      some ({ state with
        boss := state.boss.opened cfg.toConfig
        missed := { opened := true } }.notify fun _ => RoleBoss.opened cfg)
  | .closeBoss =>
      if state.boss.isOpen then
        some ({ state with
          boss := state.boss.closed
          missed := { state.missed with closed := true } }.notify RoleBoss.closed)
      else none
  | .recover =>
      if state.boss.isOpen then
        some ({ state with
          boss := state.boss.recovered
          missed := { state.missed with recoveries := state.missed.recoveries + 1 } }.notify
            RoleBoss.recovered)
      else none
  | .hurt hpDict roleName reviveTs =>
      if state.boss.isOpen = true ∧ 0 < state.boss.hp then
        some (state.onHurt cfg hpDict roleName reviveTs)
      else none
  | .revive => some { state with boss := state.boss.revived cfg.toConfig }
  | .login =>
      if state.online then none
      else some { state with record := state.record.load cfg state.boss, online := true }
  | .logout => if state.online then some { state with online := false, missed := {} } else none
  | .act action => if state.online then some (state.act cfg action) else none

/-- A new server, and a role that has not logged in. -/
def roleInitial : RoleState where
  boss := {}
  record := {}
  stayed := {}
  online := false
  missed := {}

end UEServer.TraitorBoss
