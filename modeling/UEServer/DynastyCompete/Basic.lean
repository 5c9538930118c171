import Mathlib
import UEServer.Library.Dict
import UEServer.Library.Execution

/-!
# Dynasty wars

The war of a dynasty in `dynasty.lua` and `dynasty_utils.lua`.  `compete.enemy_dict` is what the dynasty
keeps of its enemies, and `compete_enemy_dict` is the snapshot of it on which the members fight; building
the snapshot calls an agent for every defender, and requests are handled during each call.  A fight
itself only sends.  What a battle comes to is a function of its seed and of the data of the two sides.
-/

namespace UEServer.DynastyCompete

/-- `DynastyBuildingData`. -/
structure BuildingData where
  buildingHp : ℕ
  defendCount : ℕ
  winHp : ℤ
  failHp : ℤ
  dynastyExpReward : ℤ

/-- `CSConst.CompeteRewardCondition`. -/
inductive RewardCondition where
  | one
  | two
  | three

structure CompeteRewardData where
  id : ℕ
  condition : RewardCondition
  num : ℕ

/-- The tables of the game and the battle of two sides, which may raise. -/
structure Config (φ : Type*) where
  /-- `DynastyBuildingData`, whose keys count from 1. -/
  buildings : List BuildingData
  rewards : List CompeteRewardData
  /-- `exp` of `DynastyData`, whose keys count from 1. -/
  levelExps : List ℤ
  /-- `dynasty_compete_init_attack_num`. -/
  initAttackNum : ℕ
  day : ℤ
  /-- `Game.New` and `GoToFight`. -/
  goToFight : ℕ → φ → φ → Option Bool

namespace Config

variable {φ : Type*} (config : Config φ)

/-- `DynastyBuildingData[building_id]`. -/
def buildingData : ℕ → Option BuildingData
  | 0 => none
  | index + 1 => config.buildings[index]?

/-- `#DynastyBuildingData`, the headquarters. -/
def headquartersId : ℕ := config.buildings.length

end Config

/-- What a war counts for a member; `compete_open` sets all of it. -/
structure Numbers where
  attackNum : ℤ
  dailyMark : ℤ
  totalMark : ℤ
  deriving DecidableEq

structure MemberInfo where
  joinTs : ℤ
  /-- The numbers of the war, unless the member has joined since `compete_open`. -/
  numbers : Option Numbers
  competeReward : Option (Table ℕ Bool)

/-- A building in `compete.enemy_dict`. -/
structure SavedBuilding (υ : Type*) where
  buildingHp : ℤ
  /-- `role_dict`: the `defend_num` of each defender. -/
  roleDict : Table υ ℤ

/-- A defender in `compete_enemy_dict`. -/
structure FightRole (φ : Type*) where
  defendNum : ℤ
  fightData : φ

/-- A building in `compete_enemy_dict`. -/
structure BuildingInfo (υ φ : Type*) where
  buildingHp : ℤ
  roleDict : Table υ (FightRole φ)

/-- Where `build_compete_enemy_dict` stands. -/
inductive Builder (δ υ φ : Type*) where
  | dynasties
  /-- Between two buildings of a dynasty, with its `building_dict`. -/
  | buildings (dynastyId : δ) (buildingDict : Table ℕ (BuildingInfo υ φ))
  /-- Between two defenders of a building, with its `role_dict`. -/
  | roles (dynastyId : δ) (buildingDict : Table ℕ (BuildingInfo υ φ)) (buildingId : ℕ)
      (roleDict : Table υ (FightRole φ))
  | call (dynastyId : δ) (buildingDict : Table ℕ (BuildingInfo υ φ)) (buildingId : ℕ)
      (roleDict : Table υ (FightRole φ)) (uuid : υ) (defendNum : ℤ)
  | ended
  | raised

/-- What a fight has taken from a building. -/
structure Blow (δ υ : Type*) where
  uuid : υ
  dynastyId : δ
  buildingId : ℕ
  mark : ℤ

structure War (δ υ φ : Type*) where
  memberDict : Table υ MemberInfo
  isOpen : Bool
  attackMark : ℤ
  totalMark : ℤ
  totalAttackNum : ℤ
  /-- `compete.enemy_dict`, with the `building_dict` of each enemy. -/
  enemyDict : Table δ (Table ℕ (SavedBuilding υ))
  /-- `compete_enemy_dict`, with the `building_dict` of each enemy. -/
  competeEnemyDict : Table δ (Table ℕ (BuildingInfo υ φ))
  /-- Where `build_compete_enemy_dict` stands. -/
  builder : Builder δ υ φ
  dynastyExp : ℤ
  dynastyLevel : ℕ
  /-- The fights since the snapshot was begun or the marks were set to zero. -/
  blows : List (Blow δ υ)
  /-- The buildings whose `dynasty_exp_reward` was granted since then. -/
  grants : List (δ × ℕ)

structure FightInfo (δ υ φ : Type*) where
  ownFightData : φ
  dynastyId : δ
  buildingId : ℕ
  /-- `uuid` of the defender. -/
  uuid : υ

/-- What a request to fight comes to. -/
inductive Reply where
  | refused
  | buildingHasDestroy
  | fightRoleHasKilled
  | raised
  | fought (isWin isDestroyBuilding : Bool) (dynastyLevel : ℕ)
  deriving DecidableEq

section
variable {υ φ : Type*} [DecidableEq υ]

def BuildingInfo.IsBuildingDestroy (building : BuildingInfo υ φ) : Prop :=
  building.buildingHp ≤ 0 ∨ ∀ role ∈ building.roleDict.values, role.defendNum ≤ 0

omit [DecidableEq υ] in
instance (building : BuildingInfo υ φ) : Decidable building.IsBuildingDestroy :=
  inferInstanceAs (Decidable (_ ∨ ∀ _ ∈ _, _))

def Config.CanAttackHeadquarters (config : Config φ)
    (buildingDict : Table ℕ (BuildingInfo υ φ)) : Prop :=
  ∃ id ∈ buildingDict.keys, id ≠ config.headquartersId ∧
    ∃ building ∈ buildingDict.get id, building.IsBuildingDestroy

omit [DecidableEq υ] in
instance (config : Config φ) (buildingDict : Table ℕ (BuildingInfo υ φ)) :
    Decidable (config.CanAttackHeadquarters buildingDict) :=
  inferInstanceAs (Decidable (∃ _ ∈ _, _))

end

/-- The level that a dynasty reaches with its experience, in `check_lvlup`. -/
def lvlups (exp : ℤ) : List ℤ → ℕ
  | [] => 0
  | next :: rest => if exp < next then 0 else lvlups exp rest + 1

section
variable {υ φ : Type*}

/-- The number of destroyed buildings of an enemy. -/
def destroyedNum (buildingDict : Table ℕ (BuildingInfo υ φ)) : ℕ :=
  (buildingDict.values.filter fun building => decide building.IsBuildingDestroy).length

/-- What `set_compete_reward` counts for a condition; nothing if it raises. -/
def Config.rewardCount (config : Config φ) (enemies : List (Table ℕ (BuildingInfo υ φ))) :
    RewardCondition → Option ℕ
  | .one => some (enemies.map destroyedNum).sum
  | .two =>
      (enemies.mapM fun (buildingDict : Table ℕ (BuildingInfo υ φ)) =>
        buildingDict.get config.headquartersId).map fun buildings =>
        (buildings.filter fun building => decide building.IsBuildingDestroy).length
  | .three =>
      some (enemies.filter fun buildingDict =>
        destroyedNum buildingDict = config.buildings.length).length

/-- The rewards whose conditions are met; nothing if the count raises. -/
def Config.reachedRewards (config : Config φ) (enemies : List (Table ℕ (BuildingInfo υ φ))) :
    Option (List ℕ) :=
  (config.rewards.mapM fun reward =>
      (config.rewardCount enemies reward.condition).map fun count => (reward, count)).map
    fun counted => (counted.filter fun entry => entry.1.num ≤ entry.2).map fun entry => entry.1.id

/-- One member's statuses: what was not reached before is. -/
def markReached (reached : List ℕ) (competeReward : Table ℕ Bool) : Table ℕ Bool :=
  reached.foldl
    (fun statuses id => if statuses.get id = some false then statuses.set id (some true) else statuses)
    competeReward

variable [DecidableEq υ]

/-- The members' statuses, in the order of the table; `false` if it raises at a member without
statuses. -/
def giveReached (reached : List ℕ) : List υ → Table υ MemberInfo → Table υ MemberInfo × Bool
  | [], members => (members, true)
  | uuid :: rest, members =>
      match members.get uuid with
      | none => giveReached reached rest members
      | some member =>
          match member.competeReward with
          | none => (members, false)
          | some competeReward =>
              giveReached reached rest (members.set uuid
                (some { member with competeReward := some (markReached reached competeReward) }))

end

namespace War

variable {δ υ φ : Type*} [DecidableEq δ] [DecidableEq υ]

/-- `set_compete_reward`; `false` if it raises. -/
def setCompeteReward (config : Config φ) (war : War δ υ φ) : War δ υ φ × Bool :=
  match config.reachedRewards war.competeEnemyDict.values with
  | none => (war, false)
  | some [] => (war, true)
  | some reached =>
      let given := giveReached reached war.memberDict.keys war.memberDict
      ({ war with memberDict := given.1 }, given.2)

/-- `add_dynasty_exp`, for a building. -/
def addDynastyExp (config : Config φ) (war : War δ υ φ) (exp : ℤ) : War δ υ φ :=
  { war with
    dynastyExp := war.dynastyExp + exp
    dynastyLevel := war.dynastyLevel +
      lvlups (war.dynastyExp + exp) (config.levelExps.drop war.dynastyLevel) }

/-- What the checks of a fight have found. -/
structure Target (υ φ : Type*) where
  member : MemberInfo
  numbers : Numbers
  buildingDict : Table ℕ (BuildingInfo υ φ)
  building : BuildingInfo υ φ
  fightRole : FightRole φ

/-- The checks of `dynasty_compete_fight`. -/
def checkFight (config : Config φ) (war : War δ υ φ) (uuid : υ) (info : FightInfo δ υ φ) (now : ℤ) :
    Except Reply (Target υ φ) :=
  match war.memberDict.get uuid with
  | none => .error .refused
  | some member =>
      if now - member.joinTs < config.day then .error .refused
      else
        match member.numbers with
        | none => .error .raised
        | some numbers =>
            if numbers.attackNum ≤ 0 then .error .refused
            else
              match war.competeEnemyDict.get info.dynastyId with
              | none => .error .refused
              | some buildingDict =>
                  match buildingDict.get info.buildingId with
                  | none => .error .refused
                  | some building =>
                      if building.IsBuildingDestroy then .error .buildingHasDestroy
                      else if info.buildingId = config.headquartersId ∧
                          ¬ config.CanAttackHeadquarters buildingDict then .error .refused
                      else
                        match building.roleDict.get info.uuid with
                        | none => .error .refused
                        | some fightRole =>
                            if fightRole.defendNum ≤ 0 then .error .fightRoleHasKilled
                            else .ok { member, numbers, buildingDict, building, fightRole }

def spend (war : War δ υ φ) (uuid : υ) (target : Target υ φ) : War δ υ φ :=
  { war with
    memberDict := war.memberDict.set uuid (some { target.member with
      numbers := some { target.numbers with attackNum := target.numbers.attackNum - 1 } })
    totalAttackNum := war.totalAttackNum + 1 }

def Target.struckRole (target : Target υ φ) (isWin : Bool) : FightRole φ :=
  if isWin then { target.fightRole with defendNum := target.fightRole.defendNum - 1 }
  else target.fightRole

/-- The hit points of the building after the fight. -/
def Target.struckHp (target : Target υ φ) (data : BuildingData) (isWin : Bool) : ℤ :=
  let hp := target.building.buildingHp - if isWin then data.winHp else data.failHp
  if hp < 0 then 0 else hp

def Target.struck (target : Target υ φ) (data : BuildingData) (isWin : Bool) (uuid : υ) :
    BuildingInfo υ φ where
  buildingHp := target.struckHp data isWin
  roleDict := target.building.roleDict.set uuid (some (target.struckRole isWin))

def strike (war : War δ υ φ) (info : FightInfo δ υ φ) (target : Target υ φ) (data : BuildingData)
    (isWin : Bool) : War δ υ φ :=
  { war with
    competeEnemyDict := war.competeEnemyDict.set info.dynastyId (some
      (target.buildingDict.set info.buildingId (some (target.struck data isWin info.uuid)))) }

/-- The fight in `compete.enemy_dict`. -/
def save (war : War δ υ φ) (info : FightInfo δ υ φ) (target : Target υ φ) (data : BuildingData)
    (isWin : Bool) (enemy : Table ℕ (SavedBuilding υ)) (saveData : SavedBuilding υ) : War δ υ φ :=
  { war with
    enemyDict := war.enemyDict.set info.dynastyId (some (enemy.set info.buildingId (some
      { buildingHp := target.struckHp data isWin
        roleDict := saveData.roleDict.set info.uuid
          (some (target.struckRole isWin).defendNum) }))) }

/-- The marks of the fight, for the dynasty and for the member. -/
def mark (war : War δ υ φ) (uuid : υ) (info : FightInfo δ υ φ) (target : Target υ φ) (mark : ℤ) :
    War δ υ φ :=
  { war with
    attackMark := war.attackMark + mark
    totalMark := war.totalMark + mark
    memberDict := war.memberDict.set uuid (some { target.member with
      numbers := some
        { attackNum := target.numbers.attackNum - 1
          dailyMark := target.numbers.dailyMark + mark
          totalMark := target.numbers.totalMark + mark } })
    blows := war.blows ++ [⟨uuid, info.dynastyId, info.buildingId, mark⟩] }

/-- What follows when the building is destroyed. -/
def destroy (config : Config φ) (war : War δ υ φ) (info : FightInfo δ υ φ) (data : BuildingData) :
    War δ υ φ × Bool :=
  ({ war with grants := war.grants ++ [(info.dynastyId, info.buildingId)] }.addDynastyExp config
    data.dynastyExpReward).setCompeteReward config

/-- `dynasty_compete_fight` after its battle. -/
def settle (config : Config φ) (war : War δ υ φ) (uuid : υ) (info : FightInfo δ υ φ)
    (target : Target υ φ) (data : BuildingData) (isWin : Bool) : War δ υ φ × Reply :=
  let struck := war.strike info target data isWin
  match struck.enemyDict.get info.dynastyId with
  | none => (struck, .raised)
  | some enemy =>
      match enemy.get info.buildingId with
      | none => (struck, .raised)
      | some saveData =>
          let mark := target.building.buildingHp - target.struckHp data isWin
          let marked := (struck.save info target data isWin enemy saveData).mark uuid info target mark
          if (target.struck data isWin info.uuid).IsBuildingDestroy then
            let destroyed := marked.destroy config info data
            if destroyed.2 then
              (destroyed.1, .fought isWin true destroyed.1.dynastyLevel)
            else (destroyed.1, .raised)
          else (marked, .fought isWin false marked.dynastyLevel)

def dynastyCompeteFight (config : Config φ) (war : War δ υ φ) (uuid : υ) (info : FightInfo δ υ φ)
    (now : ℤ) (seed : ℕ) : War δ υ φ × Reply :=
  match war.checkFight config uuid info now with
  | .error reply => (war, reply)
  | .ok target =>
      let spent := war.spend uuid target
      match config.goToFight seed info.ownFightData target.fightRole.fightData,
        config.buildingData info.buildingId with
      | some isWin, some data => spent.settle config uuid info target data isWin
      | _, _ => (spent, .raised)

/-- `add_compete_attack_num`, for a member that has bought attempts. -/
def addCompeteAttackNum (war : War δ υ φ) (uuid : υ) (addNum : ℕ) : War δ υ φ :=
  if war.isOpen then
    match war.memberDict.get uuid with
    | none => war
    | some member =>
        { war with
          memberDict := war.memberDict.set uuid (some { member with
            numbers := member.numbers.map fun numbers =>
              { numbers with attackNum := numbers.attackNum + addNum } }) }
  else war

/-- `build_compete_enemy_dict` up to its first enemy. -/
def buildCompeteEnemyDict (war : War δ υ φ) : War δ υ φ :=
  { war with competeEnemyDict := .empty, builder := .dynasties, blows := [], grants := [] }

/-- The next enemy in `build_compete_enemy_dict`, in any order. -/
def nextDynasty (war : War δ υ φ) (id : δ) : Option (War δ υ φ) :=
  match war.builder with
  | .dynasties =>
      if id ∈ war.enemyDict.keys ∧ id ∉ war.competeEnemyDict.keys then
        some { war with builder := .buildings id .empty }
      else none
  | _ => none

/-- The next building of the enemy. -/
def nextBuilding (war : War δ υ φ) (buildingId : ℕ) : Option (War δ υ φ) :=
  match war.builder with
  | .buildings id buildingDict =>
      match (war.enemyDict.get id).bind fun enemy => enemy.get buildingId with
      | some _ =>
          if buildingId ∈ buildingDict.keys then none
          else some { war with builder := .roles id buildingDict buildingId .empty }
      | none => none
  | _ => none

/-- The next defender of the building is asked for. -/
def nextRole (war : War δ υ φ) (uuid : υ) : Option (War δ υ φ) :=
  match war.builder with
  | .roles id buildingDict buildingId roleDict =>
      match (war.enemyDict.get id).bind fun enemy => enemy.get buildingId with
      | some info =>
          match info.roleDict.get uuid with
          | some defendNum =>
              if uuid ∈ roleDict.keys then none
              else some { war with builder := .call id buildingDict buildingId roleDict uuid defendNum }
          | none => none
      | none => none
  | _ => none

def answer (war : War δ υ φ) (fightData : φ) : Option (War δ υ φ) :=
  match war.builder with
  | .call id buildingDict buildingId roleDict uuid defendNum =>
      some { war with
        builder := .roles id buildingDict buildingId
          (roleDict.set uuid (some { defendNum, fightData })) }
  | _ => none

/-- All defenders of the building are there. -/
def endRoles (war : War δ υ φ) : Option (War δ υ φ) :=
  match war.builder with
  | .roles id buildingDict buildingId roleDict =>
      match (war.enemyDict.get id).bind fun enemy => enemy.get buildingId with
      | some info =>
          if ∀ uuid ∈ info.roleDict.keys, uuid ∈ roleDict.keys then
            some { war with
              builder := .buildings id
                (buildingDict.set buildingId (some { buildingHp := info.buildingHp, roleDict })) }
          else none
      | none => none
  | _ => none

/-- All buildings of the enemy are there. -/
def endBuildings (war : War δ υ φ) : Option (War δ υ φ) :=
  match war.builder with
  | .buildings id buildingDict =>
      match war.enemyDict.get id with
      | some enemy =>
          if ∀ buildingId ∈ enemy.keys, buildingId ∈ buildingDict.keys then
            some { war with
              competeEnemyDict := war.competeEnemyDict.set id (some buildingDict)
              builder := .dynasties }
          else none
      | none => none
  | _ => none

def endDynasties (war : War δ υ φ) : Option (War δ υ φ) :=
  match war.builder with
  | .dynasties =>
      if ∀ id ∈ war.enemyDict.keys, id ∈ war.competeEnemyDict.keys then
        some { war with builder := .ended }
      else none
  | _ => none

/-- A call raises, and with it `build_compete_enemy_dict`. -/
def raise (war : War δ υ φ) : Option (War δ υ φ) :=
  match war.builder with
  | .call .. => some { war with builder := .raised }
  | _ => none

/-- The rest of `compete_open` on a day of fights, when the snapshot is built. -/
def openFights (config : Config φ) (war : War δ υ φ) : War δ υ φ :=
  { war with
    isOpen := true
    memberDict := war.memberDict.keys.foldl (fun members uuid =>
      members.set uuid ((members.get uuid).map fun member => { member with
        numbers := some { attackNum := config.initAttackNum, dailyMark := 0, totalMark := 0 }
        competeReward := some (Table.tabulate (fun _ => false)
          (config.rewards.map CompeteRewardData.id)) })) war.memberDict
    blows := []
    grants := [] }

/-- The buildings of an enemy in `set_dynasty_compete_enemy`, with the members that defend each; nothing
if it raises. -/
def enemyBuildings (config : Config φ) (enemy : Table ℕ (List υ)) :
    Option (Table ℕ (SavedBuilding υ)) :=
  enemy.keys.foldlM (fun made buildingId =>
    (config.buildingData buildingId).bind fun data =>
      (enemy.get buildingId).map fun members =>
        made.set buildingId (some
          { buildingHp := data.buildingHp
            roleDict := Table.tabulate (fun _ => (data.defendCount : ℤ)) members })) Table.empty

/-- `set_dynasty_compete_enemy`; nothing if it raises. -/
def setDynastyCompeteEnemy (config : Config φ) (war : War δ υ φ)
    (enemyDict : Table δ (Table ℕ (List υ))) : Option (War δ υ φ) :=
  if war.isOpen then some war
  else
    (enemyDict.keys.foldlM (fun made id =>
      ((enemyDict.get id).bind (enemyBuildings config)).map fun buildingDict =>
        made.set id (some buildingDict)) Table.empty).map fun made => { war with enemyDict := made }

end War

inductive Event (δ υ φ : Type*) where
  | fight (uuid : υ) (info : FightInfo δ υ φ) (now : ℤ) (seed : ℕ)
  | buy (uuid : υ) (addNum : ℕ)
  | nextDynasty (id : δ)
  | nextBuilding (buildingId : ℕ)
  | nextRole (uuid : υ)
  | answer (fightData : φ)
  | endRoles
  | endBuildings
  | endDynasties
  | raise

/-- One step of a war. -/
def step {δ υ φ : Type*} [DecidableEq δ] [DecidableEq υ] (config : Config φ) (war : War δ υ φ) :
    Event δ υ φ → Option (War δ υ φ)
  | .fight uuid info now seed => some (war.dynastyCompeteFight config uuid info now seed).1
  | .buy uuid addNum => some (war.addCompeteAttackNum uuid addNum)
  | .nextDynasty id => war.nextDynasty id
  | .nextBuilding buildingId => war.nextBuilding buildingId
  | .nextRole uuid => war.nextRole uuid
  | .answer fightData => war.answer fightData
  | .endRoles => war.endRoles
  | .endBuildings => war.endBuildings
  | .endDynasties => war.endDynasties
  | .raise => war.raise

end UEServer.DynastyCompete
