import Mathlib.Data.Rat.Floor

/-!
# The data of a battle

The battles of `lualib/CSCommon/Fight`: line-ups and the configuration of spells and buffs, the
units with their buffs, and the state of a battle.  Numbers are exact.  An attribute that a
dictionary lacks counts as zero, as it does where the source reads it.  The events that the client
shows are left out, since the server passes no `send_event_func`; instead a battle records what it
is about to do, with the units as they are.
-/

namespace UEServer.Fight

inductive Side where
  | own
  | enemy
  deriving DecidableEq

/-- `GetOtherSide`. -/
def Side.other : Side → Side
  | .own => .enemy
  | .enemy => .own

/-- The place of a unit: its side and its position, from one to six. -/
structure Place where
  side : Side
  pos : Nat
  deriving DecidableEq

/-- `FConst.BuffStateType`. -/
inductive BuffState where
  | unmatched
  | vertigo
  | reduceAnger
  deriving DecidableEq

inductive Attr where
  | hp
  /-- `anger`, which is no attribute but may be named by a buff. -/
  | anger
  | maxHp
  | att
  | defence
  | hit
  | miss
  | crit
  | critDef
  | addHurt
  | hurtDef
  | addFinalHurt
  | finalHurtDef
  | angerRecover
  | other (id : Nat)
  deriving DecidableEq

/-- What a buff does at one of the times of `FConst.ComputeBuffTime`. -/
structure BuffInfo where
  attrName : Option Attr
  attPctHurt : Option ℚ
  attrValue : Option ℚ
  attrValuePct : Option ℚ
  state : Option BuffState

/-- `begin_attack_do`. -/
structure AttackDo where
  attrName : Option Attr
  attrValue : Option ℚ
  attrValuePct : Option ℚ
  object : Option Side
  hurtRatio : Option NNRat
  suckBlood : Option NNRat

structure AttackedDo where
  hpRecover : Option NNRat
  reboundHurt : Option NNRat

/-- An entry of `BuffData`. -/
structure BuffData where
  /-- `buff_type` is `Sub`. -/
  isSub : Bool
  keepRound : Int
  overrideId : Option Nat
  clearLevel : Int
  doAndRemove : Bool
  triggerRate : ℚ
  objectType : Option Side
  beginRoundDo : Option BuffInfo
  endRoundDo : Option BuffInfo
  beginBuffDo : Option BuffInfo
  endBuffDo : Option BuffInfo
  beginAttackDo : Option AttackDo
  attackedDo : Option AttackedDo

/-- `FConst.SpellAttackType`. -/
inductive AttackType where
  | all
  | angerNum
  | column
  | frontRow
  | backRow
  | backOne
  | frontOne
  | randomNum
  | columnOne
  | neighbor
  | cureOne
  | extraCure (below : ℚ) (extra : NNRat)

/-- `FConst.AddBuffType`, with the numbers of the random ones. -/
inductive AddBuffType where
  | own
  | attackTarget
  | ownAll
  | enemyAll
  | randomOwn (num : Nat)
  | randomEnemy (num : Nat)

/-- `reduce_anger`, `reduce_anger_level` and `reduce_anger_ratio`. -/
structure ReduceAnger where
  /-- `reduce_anger`. -/
  anger : ℚ
  /-- `reduce_anger_level`. -/
  level : Int
  /-- `reduce_anger_ratio`. -/
  ratio : ℚ

structure AddedBuff where
  /-- The entry of `add_buff_list`. -/
  buffId : Nat
  /-- The entry of `buff_object_list`. -/
  object : AddBuffType
  /-- The entry of `buff_random_list`. -/
  ratio : ℚ

/-- An entry of `SpellData`. -/
structure SpellData where
  spellType : Nat
  costAnger : ℚ
  addAnger : ℚ
  spellUnitList : Option (List Nat)
  /-- `side_type` is `Own`. -/
  isOwn : Bool
  attackType : AttackType
  buffClearLevel : Option Int
  buffClearRatio : Option ℚ
  modifyAttrDict : Attr → ℚ
  spellHurtPct : ℚ
  hurtGrowRate : ℚ
  fixedHurt : ℚ
  /-- `hurt_rate` in `hit_tb`. -/
  hitTb : List NNRat
  isSecondKill : Bool
  addBuffList : List AddedBuff
  /-- What the spell takes of the anger of its targets. -/
  reduceAnger : Option ReduceAnger

/-- An entry of `spell_dict_by_type`. -/
structure Spell where
  /-- The entry of `SpellData`. -/
  data : SpellData
  /-- `spell_level`. -/
  level : ℚ

/-- An entry of `MonsterData`. -/
structure MonsterData where
  isImmune : Bool
  reduceAngerLevel : Int

structure UnitData where
  unitId : Nat
  addAnger : ℚ
  score : ℚ
  /-- `hp` in `fight_attr_dict`. -/
  hp : Option ℚ
  /-- `fight_attr_dict`, without `hp`. -/
  fightAttrDict : Attr → ℚ
  /-- `spell_dict`. -/
  spells : List Spell
  buffList : List Nat
  /-- The monster of `monster_id`. -/
  monster : Option MonsterData

/-- An entry of `VictoryData`. -/
structure VictoryData where
  roundNum : Option Nat
  /-- `remian_hp`. -/
  remainHp : Option ℚ
  deathNum : Option Nat

/-- `fight_data`, with the buffs of the configuration. -/
structure FightData where
  seed : Nat
  lineUp : Place → Option UnitData
  isPvp : Bool
  /-- The entry of `victory_id`. -/
  victory : Option VictoryData
  getBuffData : Nat → BuffData

def positions : List Nat := [1, 2, 3, 4, 5, 6]

def FightData.occupied (fight : FightData) (place : Place) : Bool :=
  place.pos ∈ positions ∧ (fight.lineUp place).isSome

structure Buff where
  buffId : Nat
  caster : Place
  roundNum : Int
  attrDict : Attr → ℚ
  state : Option BuffState

structure BattleUnit where
  unitId : Nat
  anger : ℚ
  totalHurt : ℚ
  /-- `hp` in `attr_dict`. -/
  hp : ℚ
  /-- `attr_dict`, without `hp`. -/
  attrDict : Attr → ℚ
  tempAttrDict : Attr → ℚ
  buffList : List Buff
  /-- `state_dict`: an entry that is absent counts as zero. -/
  stateDict : BuffState → Nat
  /-- The spells of `spell_dict_by_type`. -/
  spells : List Spell
  /-- The monster of `monster_id`. -/
  monster : Option MonsterData

def BattleUnit.isDeath (unit : BattleUnit) : Bool :=
  unit.hp ≤ 0

def BattleUnit.canHurt (unit : BattleUnit) : Bool :=
  unit.stateDict .unmatched = 0

/-- The unit that `New` makes of its data, before its buffs are added. -/
def UnitData.bare (data : UnitData) : BattleUnit where
  unitId := data.unitId
  anger := 2 + data.addAnger
  totalHurt := 0
  hp := data.hp.getD (data.fightAttrDict .maxHp)
  attrDict := data.fightAttrDict
  tempAttrDict _ := 0
  buffList := []
  stateDict _ := 0
  spells := data.spells
  monster := none

/-- A value in the place of a unit where there is none. -/
def noUnit : BattleUnit where
  unitId := 0
  anger := 0
  totalHurt := 0
  hp := 0
  attrDict _ := 0
  tempAttrDict _ := 0
  buffList := []
  stateDict _ := 0
  spells := []
  monster := none

/-- Where the hit points of a hurt come from. -/
inductive HurtSource where
  | spell
  | secondKill
  | rebound
  | buff
  deriving DecidableEq

/-- Where the hit points of a cure come from. -/
inductive CureSource where
  | spell
  | suckBlood
  | recover
  | buff
  deriving DecidableEq

/-- What a battle is about to do, or has done. -/
inductive Event where
  | cast (place : Place)
  | hurt (place : Place) (source : HurtSource) (hpDiff : ℚ)
  | cure (place : Place) (source : CureSource) (hpDiff : ℚ)
  /-- `ComputeBuff` is about to change hit points or anger. -/
  | effect (info : BuffInfo)
  | trigger (info : AttackDo)
  /-- The ratio of a spell that clears buffs is about to be compared. -/
  | clear (ratio : Option ℚ)
  /-- The neighbors of the first of the units are about to be attacked. -/
  | neighbor (units : List Place)
  /-- A buff is about to be appended to the list of a unit. -/
  | append (place : Place)
  /-- A buff that may hold a state is about to add one. -/
  | addState (place : Place) (held : Option BuffState)
  /-- A buff is about to become invalid and to be removed at an index. -/
  | invalid (place : Place) (index : Nat) (state : Option BuffState)
  | changed
  /-- `AddBuff`, `RemoveBuff`, `SpellClearBuff`, or the start or the end of a round is over. -/
  | settled

/-- An event, with the units as they are. -/
structure Moment where
  /-- What is about to be done, or has been done. -/
  event : Event
  units : Place → BattleUnit
  /-- The hit points that have been taken from all units. -/
  removed : ℚ

structure Game where
  /-- `seed` of the random numbers. -/
  seed : Nat
  /-- `unit_dict_by_side`. -/
  units : Place → BattleUnit
  currRoundNum : Nat
  /-- The hit points that have been taken from all units. -/
  removed : ℚ
  history : List Moment

/-- The functions of a battle, which may raise errors. -/
abbrev M := EStateM Unit Game

/-- `error`, or an error of the language. -/
def raise {α : Type} : M α := throw ()

namespace Game

def note (game : Game) (event : Event) : Game :=
  { game with
    history := game.history ++ [{ event, units := game.units, removed := game.removed }] }

def set (game : Game) (place : Place) (unit : BattleUnit) : Game :=
  { game with units := Function.update game.units place unit }

end Game

def note (event : Event) : M Unit :=
  modify fun game => game.note event

def getUnit (place : Place) : M BattleUnit := do
  return (← get).units place

def modifyUnit (place : Place) (change : BattleUnit → BattleUnit) : M Unit :=
  modify fun game => game.set place (change (game.units place))

def random : M ℚ := do
  let seed := (22695477 * (← get).seed + 1) % 0x10000000
  modify fun game => { game with seed }
  return seed / 0x10000000

def randomInt (first last : Int) : M Int := do
  return ⌊first + (← random) * (last + 1 - first)⌋

/-- The entry of a list at an index from one on, in a place where the source uses it at once. -/
def entry {α : Type} (list : List α) (index : Int) : M α :=
  if 1 ≤ index then
    match list[index.toNat - 1]? with
    | some value => pure value
    | none => raise
  else raise

end UEServer.Fight
