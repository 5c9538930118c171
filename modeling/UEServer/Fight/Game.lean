import UEServer.Fight.Buff
import UEServer.Fight.Target

/-!
# Battles

The parts of `Unit.lua` by which a unit attacks and goes through its rounds, and `Game.lua`.
-/

namespace UEServer.Fight

/-- An attribute of the attacker, with what the spell and the buffs of the moment add. -/
def BattleUnit.attack (unit : BattleUnit) (spell : SpellData) (attr : Attr) : ℚ :=
  unit.attrDict attr + spell.modifyAttrDict attr + unit.tempAttrDict attr

/-- An attribute of the target, with what the buffs of the moment add. -/
def BattleUnit.defend (unit : BattleUnit) (attr : Attr) : ℚ :=
  unit.attrDict attr + unit.tempAttrDict attr

def critHurtRate : ℚ := 3 / 2

/-- The end of `ComputeHurt` and `ComputeCure`: rounded down, and one at least. -/
def atLeastOne (value : ℚ) : ℚ :=
  if ⌊value⌋ ≤ 1 then 1 else ⌊value⌋

/-- `ComputeHurt`: the hit points, and whether the spell misses. -/
def computeHurt (self target : BattleUnit) (spell : SpellData) (hurtRate : ℚ) : M (ℚ × Bool) := do
  let hit := self.attack spell .hit
  let miss := target.defend .miss
  let missed ←
    if hit ≤ miss then pure true
    else do
      let chance ← random
      pure (decide ((hit - miss) / 100 < chance))
  if missed then return (0, true)
  else do
    let addHurt := self.attack spell .addHurt / 100
    let addFinalHurt := self.attack spell .addFinalHurt / 100
    let hurtDef := target.defend .hurtDef / 100
    let finalHurtDef := target.defend .finalHurtDef / 100
    let hurt := (self.attack spell .att - target.defend .defence) * (1 + addHurt - hurtDef) *
      (1 + addFinalHurt - finalHurtDef) * hurtRate + spell.fixedHurt
    let isCrit := (← random) ≤ (self.attack spell .crit - target.defend .critDef) / 100
    return (-atLeastOne (if isCrit then hurt * critHurtRate else hurt), false)

/-- `ComputeCure`: the hit points. -/
def computeCure (self : BattleUnit) (spell : SpellData) (hurtRate : ℚ) : M ℚ := do
  let addHurt := self.attack spell .addHurt / 100
  let addFinalHurt := self.attack spell .addFinalHurt / 100
  let cure := self.attack spell .att * (1 + addHurt) * (1 + addFinalHurt) * hurtRate +
    spell.fixedHurt
  let isCrit := (← random) ≤ self.attack spell .crit / 100
  return atLeastOne (if isCrit then cure * critHurtRate else cure)

/-- A quotient is less than a bound.  The quotient of a negative number by zero is infinite, and of
another number by zero it is not less than anything. -/
def quotientBelow (numerator denominator bound : ℚ) : Bool :=
  if denominator = 0 then numerator < 0 else numerator / denominator < bound

/-- The extra cure of `ExtraCure`. -/
def AttackType.extra (attackType : AttackType) (target : BattleUnit) (hpDiff : ℚ) : ℚ :=
  match attackType with
  | .extraCure below extra =>
      if quotientBelow target.hp (target.attrDict .maxHp) (below / 100) then
        ⌊hpDiff * (1 + extra / 100)⌋
      else hpDiff
  | _ => hpDiff

/-- The hit points of a spell for a target, and whether it misses. -/
def spellHpDiff (self target : Place) (spell : Spell) (triggered : Triggered) :
    M (ℚ × Bool) := do
  let attacker ← getUnit self
  let unit ← getUnit target
  if unit.canHurt then do
    let hurtRatio :=
      (spell.data.spellHurtPct + spell.data.hurtGrowRate * (spell.level - 1)) / 100
    if spell.data.isOwn then do
      let cure ← computeCure attacker spell.data hurtRatio
      return (spell.data.attackType.extra unit cure, false)
    else do
      let (hurt, missed) ← computeHurt attacker unit spell.data hurtRatio
      match triggered.hurtRatio with
      | none => return (hurt, missed)
      | some ratio => return (hurt * ratio, missed)
  else return (0, false)

/-- `x == 0 and -1 or x`. -/
def orMinusOne (value : ℚ) : ℚ :=
  if value = 0 then -1 else value

/-- The loop over `hit_tb`: what is taken of the target, and whether the spell misses. -/
def hitLoop (self target : Place) (spell : SpellData) (hpDiff : ℚ) :
    List NNRat → ℚ → Bool → M (ℚ × Bool)
  | [], singleHurt, missed => return (singleHurt, missed)
  | hurtRate :: hurtRates, singleHurt, missed => do
      let unit ← getUnit target
      if unit.canHurt then
        if spell.isSecondKill then do
          let realHurt ← hurt target self .secondKill (orMinusOne (-unit.hp))
          hitLoop self target spell hpDiff hurtRates (singleHurt + realHurt) false
        else if spell.isOwn then do
          cure target .spell (orOne ⌊hpDiff * hurtRate⌋)
          hitLoop self target spell hpDiff hurtRates singleHurt missed
        else if missed then hitLoop self target spell hpDiff hurtRates singleHurt missed
        else do
          let realHurt ← hurt target self .spell (orMinusOne ⌈hpDiff * hurtRate⌉)
          hitLoop self target spell hpDiff hurtRates (singleHurt + realHurt) missed
      else hitLoop self target spell hpDiff hurtRates singleHurt missed

/-- What the loop over the targets adds up. -/
structure Hits where
  totalHurt : ℚ
  /-- `rebound_hurt_list`. -/
  rebounds : List (ℚ × Place)
  /-- `miss_unit_dict`. -/
  missed : List Nat

/-- The loop over the targets. -/
def hitTargets (fight : FightData) (self : Place) (spell : Spell) (triggered : Triggered) :
    List Place → Hits → M Hits
  | [], hits => return hits
  | target :: targets, hits => do
      let (hpDiff, missed) ← spellHpDiff self target spell triggered
      let (singleHurt, missed) ← hitLoop self target spell.data hpDiff spell.data.hitTb 0 missed
      let rebound ← onHit fight target (-singleHurt)
      hitTargets fight self spell triggered targets
        { totalHurt := hits.totalHurt + singleHurt
          rebounds := hits.rebounds ++ (rebound.map fun hurt => (hurt, target)).toList
          missed := if missed then target.pos :: hits.missed else hits.missed }

def suckBlood (self : Place) (totalHurt : ℚ) (suck : NNRat) : M Unit :=
  cure self .suckBlood (orOne ⌊-totalHurt * suck / 100⌋)

def reboundAll (self : Place) : List (ℚ × Place) → M Unit
  | [] => return
  | (reboundHurt, target) :: rebounds => do
      if (← getUnit self).isDeath then reboundAll self rebounds
      else do
        let _ ← hurt self target .rebound (-reboundHurt)
        reboundAll self rebounds

def clearTempAttr : List Place → M Unit
  | [] => return
  | place :: places => do
      modifyUnit place fun unit => { unit with tempAttrDict := fun _ => 0 }
      clearTempAttr places

/-- The loop over the targets of a buff. -/
def addToAll (fight : FightData) (self : Place) (added : AddedBuff) (missed : List Nat) :
    List Place → M Unit
  | [] => return
  | target :: targets => do
      if target.pos ∈ missed then addToAll fight self added missed targets
      else if (← random) ≤ added.ratio then do
        addBuff fight target added.buffId self
        addToAll fight self added missed targets
      else addToAll fight self added missed targets

/-- The loop over `add_buff_list`. -/
def addBuffs (fight : FightData) (self : Place) (attacked : List Place) (missed : List Nat) :
    List AddedBuff → M Unit
  | [] => return
  | added :: rest => do
      let targets ← getAddBuffTarget fight self attacked added.object
      addToAll fight self added missed targets
      addBuffs fight self attacked missed rest

def spellReduceAnger (reduce : ReduceAnger) : List Place → M Unit
  | [] => return
  | place :: places => do
      let unit ← getUnit place
      if unit.isImmune .reduceAnger reduce.level || unit.isDeath then
        spellReduceAnger reduce places
      else if (← random) ≤ reduce.ratio then do
        changeAnger place (-reduce.anger)
        spellReduceAnger reduce places
      else spellReduceAnger reduce places

def SpellData.side (spell : SpellData) (self : Place) : Side :=
  if spell.isOwn then self.side else self.side.other

/-- The buffs that a spell clears. -/
def clearBuffs (fight : FightData) (spell : SpellData) (targets : List Place) : M Unit :=
  match spell.buffClearLevel with
  | none => return
  | some level => do
      let chance ← random
      note (.clear spell.buffClearRatio)
      match spell.buffClearRatio with
      | none => raise
      | some ratio =>
          if chance ≤ ratio then spellClearBuff fight targets level else return

/-- The hits of a spell, and what comes back of them. -/
def hitAndRebound (fight : FightData) (self : Place) (spell : Spell) (targets : List Place) :
    M Hits := do
  let triggered ← checkIsTriggerBuff fight self targets
  let hits ← hitTargets fight self spell triggered targets
    { totalHurt := 0, rebounds := [], missed := [] }
  match triggered.suckBlood with
  | none => pure ()
  | some suck => suckBlood self hits.totalHurt suck
  reboundAll self hits.rebounds
  clearTempAttr (self :: targets)
  return hits

def castSpell (fight : FightData) (self : Place) (spell : Spell) : M Unit := do
  note (.cast self)
  modifyUnit self fun unit =>
    { unit with anger := unit.anger - spell.data.costAnger + spell.data.addAnger }
  let targets ← getAttackTarget fight self (spell.data.side self) spell.data.attackType
  clearBuffs fight spell.data targets
  let hits ← hitAndRebound fight self spell targets
  addBuffs fight self targets hits.missed spell.data.addBuffList
  match spell.data.reduceAnger with
  | none => return
  | some reduce => spellReduceAnger reduce targets

/-- There is a living unit of each kind that the spell needs. -/
def Game.together (game : Game) (fight : FightData) (side : Side) (unitIds : List Nat) : Bool :=
  unitIds.all fun unitId =>
    (fight.units side).any fun place =>
      (game.units place).unitId = unitId ∧ !(game.units place).isDeath

def canCastSpell (fight : FightData) (self : Place) (spell : SpellData) : M Bool := do
  if (← getUnit self).anger < spell.costAnger then return false
  else
    match spell.spellUnitList with
    | none => return true
    | some unitIds => return (← get).together fight self.side unitIds

/-- The entry of `spell_dict_by_type`: the last spell of the type. -/
def BattleUnit.spell (unit : BattleUnit) (spellType : Nat) : Option Spell :=
  (unit.spells.filter fun spell => spell.data.spellType = spellType).getLast?

/-- The loop of `Attack` over the types of spells. -/
def attackLoop (fight : FightData) (self : Place) : List Nat → M Unit
  | [] => return
  | spellType :: spellTypes => do
      match (← getUnit self).spell spellType with
      | none => attackLoop fight self spellTypes
      | some spell =>
          if ← canCastSpell fight self spell.data then castSpell fight self spell
          else attackLoop fight self spellTypes

def attack (fight : FightData) (self : Place) : M Unit :=
  attackLoop fight self [4, 3, 2, 1]

def beginRound (fight : FightData) (place : Place) : M Unit := do
  computeBuffs fight place .beginRound
  note .settled

def BattleUnit.canAttack (unit : BattleUnit) : Bool :=
  !unit.isDeath && unit.stateDict .vertigo = 0

/-- The unit with one round less for each of its buffs. -/
def BattleUnit.countDown (unit : BattleUnit) : BattleUnit :=
  { unit with
    buffList := unit.buffList.map fun buff => { buff with roundNum := buff.roundNum - 1 } }

def endRound (fight : FightData) (place : Place) : M Unit := do
  computeBuffs fight place .endRound
  modifyUnit place BattleUnit.countDown
  let ended := (← getUnit place).buffList.filter fun buff => buff.roundNum ≤ 0
  removeBuff fight place (ended.map Buff.buffId)
  changeAnger place ((← getUnit place).attrDict .angerRecover)
  note .settled

def roundStart (fight : FightData) (place : Place) : M Unit := do
  beginRound fight place
  if (← getUnit place).canAttack then attack fight place else pure ()
  endRound fight place

def FightData.totalScore (fight : FightData) (side : Side) : ℚ :=
  ((fight.units side).map fun place => ((fight.lineUp place).map UnitData.score).getD 0).sum

def FightData.attackSideList (fight : FightData) : List Side :=
  if fight.isPvp ∧ fight.totalScore .own < fight.totalScore .enemy then [.enemy, .own]
  else [.own, .enemy]

def FightData.maxRoundNum (fight : FightData) : Nat :=
  (fight.victory.bind VictoryData.roundNum).getD 20

/-- `total_num` is `death_num`: all units of a side are dead. -/
def Game.allDeath (game : Game) (fight : FightData) (side : Side) : Bool :=
  (fight.units side).all fun place => (game.units place).isDeath

def Game.checkResult (game : Game) (fight : FightData) : Bool :=
  game.allDeath fight .own || game.allDeath fight .enemy

/-- The places in the order of the loops of `Start`. -/
def FightData.order (fight : FightData) : List Place :=
  positions.flatMap fun pos => fight.attackSideList.map fun side => { side, pos }

/-- The loops of `Start`: whether the battle is over. -/
def startLoop (fight : FightData) : List Place → M Bool
  | [] => return false
  | place :: places => do
      if (← get).alive fight place then roundStart fight place else pure ()
      if (← get).checkResult fight then return true
      else startLoop fight places

/-- The loop of `GoToFight`, for a number of rounds. -/
def roundLoop (fight : FightData) : Nat → M Unit
  | 0 => return
  | rounds + 1 => do
      modify fun game => { game with currRoundNum := game.currRoundNum + 1 }
      if ← startLoop fight fight.order then return
      else roundLoop fight rounds

/-- `death_num` of a side. -/
def Game.deathNum (game : Game) (fight : FightData) (side : Side) : Nat :=
  (fight.units side).countP fun place => (game.units place).isDeath

/-- `total_hp` of a side. -/
def Game.totalHp (game : Game) (fight : FightData) (side : Side) : ℚ :=
  ((fight.units side).map fun place => (game.units place).attrDict .maxHp).sum

/-- `remain_hp` of a side. -/
def Game.remainHp (game : Game) (fight : FightData) (side : Side) : ℚ :=
  ((fight.units side).map fun place => (game.units place).hp).sum

/-- The victory condition in `JudgeResult`. -/
def Game.meets (game : Game) (fight : FightData) (victory : VictoryData) : Bool :=
  match victory.remainHp, victory.deathNum with
  | some remainHp, _ =>
      !quotientBelow (game.remainHp fight .own) (game.totalHp fight .own) remainHp
  | none, some deathNum => game.deathNum fight .own ≤ deathNum
  | none, none => true

def Game.judgeResult (game : Game) (fight : FightData) : Bool :=
  if game.allDeath fight .own then false
  else if game.allDeath fight .enemy then
    match fight.victory with
    | none => true
    | some victory => game.meets fight victory
  else false

def goToFight (fight : FightData) : M Bool := do
  roundLoop fight fight.maxRoundNum
  return (← get).judgeResult fight

/-- The loop over `buff_list` in `Unit.New`. -/
def addOwnBuffs (fight : FightData) (place : Place) : List Nat → M Unit
  | [] => return
  | buffId :: buffIds => do
      addBuff fight place buffId place
      addOwnBuffs fight place buffIds

/-- `Unit.New`: it is only after its buffs that the unit gets its monster. -/
def newUnit (fight : FightData) (place : Place) : M Unit :=
  match fight.lineUp place with
  | none => return
  | some data => do
      addOwnBuffs fight place data.buffList
      modifyUnit place fun unit => { unit with monster := data.monster }

/-- The loop of `Game.New`. -/
def newUnits (fight : FightData) : List Place → M Unit
  | [] => return
  | place :: places => do
      newUnit fight place
      newUnits fight places

/-- The battle before its units have their buffs. -/
def FightData.start (fight : FightData) : Game where
  seed := fight.seed % 0x10000000
  units place :=
    match fight.lineUp place with
    | none => noUnit
    | some data => data.bare
  currRoundNum := 0
  removed := 0
  history := []

def newGame (fight : FightData) : M Unit :=
  newUnits fight (fight.units .own ++ fight.units .enemy)

def battle (fight : FightData) : M Bool := do
  newGame fight
  goToFight fight

end UEServer.Fight
