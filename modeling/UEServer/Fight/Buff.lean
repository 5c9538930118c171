import UEServer.Fight.Data

/-!
# Hit points and buffs

`Buff.lua`, and the parts of `Unit.lua` about hit points and buffs.
-/

namespace UEServer.Fight

def changeAnger (place : Place) (angerDiff : ℚ) : M Unit :=
  modifyUnit place fun unit =>
    { unit with
      anger := if unit.anger + angerDiff < 0 then 0 else unit.anger + angerDiff }

def BattleUnit.realHurt (unit : BattleUnit) (hpDiff : ℚ) : ℚ :=
  if unit.hp + hpDiff < 0 then unit.hp else -hpDiff

/-- The unit that is hurt in `Hurt`. -/
def BattleUnit.lose (unit : BattleUnit) (hpDiff : ℚ) : BattleUnit :=
  if unit.hp + hpDiff ≤ 0 then
    { unit with
      hp := 0
      buffList := []
      stateDict := fun _ => 0
      anger := 0 }
  else { unit with hp := unit.hp + hpDiff }

/-- The unit that is cured in `Cure`. -/
def BattleUnit.gain (unit : BattleUnit) (hpDiff : ℚ) : BattleUnit :=
  { unit with
    hp :=
      if unit.attrDict .maxHp < unit.hp + hpDiff then unit.attrDict .maxHp
      else unit.hp + hpDiff }

/-- What `Hurt` does to the units. -/
def Game.hurt (game : Game) (place caster : Place) (hpDiff : ℚ) : Game :=
  let unit := game.units place
  let hurt :=
    { game.set place (unit.lose hpDiff) with
      removed := game.removed + (unit.hp - (unit.lose hpDiff).hp) }
  hurt.set caster
    { hurt.units caster with
      totalHurt := (hurt.units caster).totalHurt + unit.realHurt hpDiff }

def hurt (place caster : Place) (source : HurtSource) (hpDiff : ℚ) : M ℚ := do
  note (.hurt place source hpDiff)
  if 0 ≤ ⌊hpDiff⌋ then raise
  else do
    let unit ← getUnit place
    modify fun game => game.hurt place caster ⌊hpDiff⌋
    note .changed
    return -unit.realHurt ⌊hpDiff⌋

def cure (place : Place) (source : CureSource) (hpDiff : ℚ) : M Unit := do
  note (.cure place source hpDiff)
  if ⌊hpDiff⌋ ≤ 0 then raise
  else do
    modifyUnit place fun unit => unit.gain ⌊hpDiff⌋
    note .changed

inductive ComputeBuffTime where
  | beginRound
  | endRound
  | beginBuff
  | endBuff

def BuffData.doAt (data : BuffData) : ComputeBuffTime → Option BuffInfo
  | .beginRound => data.beginRoundDo
  | .endRound => data.endRoundDo
  | .beginBuff => data.beginBuffDo
  | .endBuff => data.endBuffDo

/-- A value of `ComputeBuff`, rounded down and with its sign. -/
def BuffData.signed (data : BuffData) (value : ℚ) : ℚ :=
  if data.isSub then -⌊value⌋ else ⌊value⌋

/-- The value of `ComputeBuff` for hit points, which depends on the attack of the caster. -/
def BuffData.hpValue (data : BuffData) (info : BuffInfo) (attPctHurt : ℚ)
    (caster unit : BattleUnit) : ℚ :=
  data.signed (caster.attrDict .att * attPctHurt / 100 +
    unit.attrDict .maxHp / 100 * info.attrValuePct.getD 0)

/-- `Hurt` for a negative value, and `Cure` for another. -/
def hurtOrCure (place caster : Place) (value : ℚ) : M Unit :=
  if value < 0 then do
    let _ ← hurt place caster .buff value
    return
  else cure place .buff value

/-- `ComputeBuff` for hit points. -/
def computeBuffHp (data : BuffData) (place caster : Place) (info : BuffInfo) : M Unit := do
  note (.effect info)
  match info.attPctHurt with
  | none => raise
  | some attPctHurt => do
      let attacker ← getUnit caster
      let unit ← getUnit place
      hurtOrCure place caster (data.hpValue info attPctHurt attacker unit)

def computeBuffAnger (data : BuffData) (place : Place) (info : BuffInfo) : M Unit := do
  note (.effect info)
  match info.attrValue with
  | none => raise
  | some attrValue => changeAnger place (data.signed attrValue)

/-- A buff with one more contribution to an attribute. -/
def Buff.contribute (buff : Buff) (attr : Attr) (value : ℚ) : Buff :=
  { buff with attrDict := Function.update buff.attrDict attr (buff.attrDict attr + value) }

/-- A unit with one more contribution of a buff to an attribute. -/
def BattleUnit.contribute (unit : BattleUnit) (index : Nat) (buff : Buff) (attr : Attr)
    (value : ℚ) : BattleUnit :=
  { unit with
    attrDict := Function.update unit.attrDict attr (unit.attrDict attr + value)
    buffList := unit.buffList.set index (buff.contribute attr value) }

/-- The value of `ComputeBuff` for another attribute. -/
def BuffData.attrValue (data : BuffData) (info : BuffInfo) (unit : BattleUnit) (attr : Attr) : ℚ :=
  data.signed (info.attrValue.getD 0 + unit.attrDict attr / 100 * info.attrValuePct.getD 0)

/-- `ComputeBuff` for another attribute. -/
def computeBuffAttr (data : BuffData) (place : Place) (index : Nat) (buff : Buff) (info : BuffInfo)
    (attr : Attr) : M Buff := do
  let unit ← getUnit place
  let value := data.attrValue info unit attr
  modifyUnit place fun unit => unit.contribute index buff attr value
  return buff.contribute attr value

def BattleUnit.addState (unit : BattleUnit) (index : Nat) (buff : Buff) (state : BuffState) :
    BattleUnit :=
  { unit with
    stateDict := Function.update unit.stateDict state (unit.stateDict state + 1)
    buffList := unit.buffList.set index { buff with state := some state } }

def computeBuffState (place : Place) (index : Nat) (buff : Buff) (state : BuffState) : M Buff := do
  note (.addState place buff.state)
  modifyUnit place fun unit => unit.addState index buff state
  return { buff with state := some state }

/-- The first part of `Buff:ComputeBuff`. -/
def computeBuffValue (data : BuffData) (place : Place) (index : Nat) (buff : Buff)
    (info : BuffInfo) : M Buff :=
  match info.attrName with
  | none => return buff
  | some .hp => do
      computeBuffHp data place buff.caster info
      return buff
  | some .anger => do
      computeBuffAnger data place info
      return buff
  | some attr => computeBuffAttr data place index buff info attr

/-- `Buff:ComputeBuff`, of the buff at an index of the list of its unit, as long as it is there. -/
def computeBuff (fight : FightData) (place : Place) (index : Nat) (buff : Buff) (info : BuffInfo) :
    M Buff := do
  let next ← computeBuffValue (fight.getBuffData buff.buffId) place index buff info
  match info.state with
  | none => return next
  | some state => computeBuffState place index next state

/-- `BecomeEffective`: the buff afterwards, if it does anything at the time. -/
def becomeEffective (fight : FightData) (place : Place) (index : Nat) (buff : Buff)
    (time : ComputeBuffTime) : M (Option Buff) :=
  match (fight.getBuffData buff.buffId).doAt time with
  | none => return none
  | some info => do
      let next ← computeBuff fight place index buff info
      return some next

/-- `BecomeInvalid` and `table.remove` raise no error: the state of the buff is counted, and the
index is in the list or next to it. -/
def BattleUnit.canDrop (unit : BattleUnit) (index : Nat) (state : Option BuffState) : Bool :=
  (match state with
    | none => true
    | some state => 0 < unit.stateDict state) &&
  index ≤ unit.buffList.length

/-- What `BecomeInvalid` and `table.remove` do to the unit. -/
def BattleUnit.drop (unit : BattleUnit) (index : Nat) (buff : Buff) : BattleUnit :=
  { unit with
    attrDict := fun attr => unit.attrDict attr - buff.attrDict attr
    stateDict :=
      match buff.state with
      | none => unit.stateDict
      | some state => Function.update unit.stateDict state (unit.stateDict state - 1)
    buffList := unit.buffList.eraseIdx index }

/-- `BecomeInvalid` and `table.remove`. -/
def becomeInvalid (place : Place) (index : Nat) (buff : Buff) : M Unit := do
  note (.invalid place index buff.state)
  if (← getUnit place).canDrop index buff.state then
    modifyUnit place fun unit => unit.drop index buff
  else raise

/-- The body of the loop of `RemoveBuff`. -/
def removeOne (fight : FightData) (place : Place) (buffId : Nat) : M Unit := do
  let buffList := (← getUnit place).buffList
  let index := buffList.findIdx fun buff => buff.buffId = buffId
  match buffList[index]? with
  | none => return
  | some buff => do
      let effective ← becomeEffective fight place index buff .endBuff
      becomeInvalid place index (effective.getD buff)

/-- The loop of `RemoveBuff`. -/
def removeAll (fight : FightData) (place : Place) : List Nat → M Unit
  | [] => return
  | buffId :: buffIds => do
      removeOne fight place buffId
      removeAll fight place buffIds

/-- `RemoveBuff`, if there is anything to remove. -/
def removeBuff (fight : FightData) (place : Place) (buffIds : List Nat) : M Unit := do
  removeAll fight place buffIds
  note .settled

/-- The loop of `Unit:ComputeBuff`, from an index on: the buffs to remove, or nothing if the unit
dies. -/
def computeBuffLoop (fight : FightData) (place : Place) (time : ComputeBuffTime) :
    Nat → Nat → List Nat → M (Option (List Nat))
  | 0, _, removed => return some removed
  | rounds + 1, index, removed => do
      match (← getUnit place).buffList[index]? with
      | none => return some removed
      | some buff => do
          let effective ← becomeEffective fight place index buff time
          let remove := effective.isSome && (fight.getBuffData buff.buffId).doAndRemove &&
            buff.roundNum = 1
          if (← getUnit place).isDeath then return none
          else
            computeBuffLoop fight place time rounds (index + 1)
              (if remove then removed ++ [buff.buffId] else removed)

/-- `Unit:ComputeBuff`. -/
def computeBuffs (fight : FightData) (place : Place) (time : ComputeBuffTime) : M Unit := do
  match ← computeBuffLoop fight place time (← getUnit place).buffList.length 0 [] with
  | none => return
  | some removed => removeBuff fight place removed

def BattleUnit.isImmune (unit : BattleUnit) (state : BuffState) (reduceAngerLevel : Int) : Bool :=
  match state, unit.monster with
  | .vertigo, some monster => monster.isImmune
  | .reduceAnger, some monster =>
      monster.isImmune && reduceAngerLevel ≤ monster.reduceAngerLevel
  | _, _ => false

def FightData.newBuff (fight : FightData) (buffId : Nat) (caster : Place) : Buff where
  buffId := buffId
  caster := caster
  roundNum := (fight.getBuffData buffId).keepRound
  attrDict _ := 0
  state := none

/-- The end of `AddBuff`. -/
def appendBuff (fight : FightData) (place : Place) (buffId : Nat) (caster : Place) : M Unit := do
  note (.append place)
  let index := (← getUnit place).buffList.length
  let buff := fight.newBuff buffId caster
  modifyUnit place fun unit => { unit with buffList := unit.buffList ++ [buff] }
  let _ ← becomeEffective fight place index buff .beginBuff
  note .settled

/-- The first buff of the override group of another. -/
def FightData.overridden (fight : FightData) (unit : BattleUnit) (buffId : Nat) : Option Buff :=
  match (fight.getBuffData buffId).overrideId with
  | none => none
  | some group =>
      unit.buffList.find? fun buff => (fight.getBuffData buff.buffId).overrideId = some group

/-- The unit is immune against the state of a buff. -/
def FightData.immune (fight : FightData) (unit : BattleUnit) (buffId : Nat) : Bool :=
  match (fight.getBuffData buffId).beginBuffDo.bind BuffInfo.state with
  | none => false
  | some state => unit.isImmune state 0

def addBuff (fight : FightData) (place : Place) (buffId : Nat) (caster : Place) : M Unit := do
  let unit ← getUnit place
  if unit.isDeath || fight.immune unit buffId then return
  else
    match fight.overridden unit buffId with
    | none => appendBuff fight place buffId caster
    | some old =>
        if (fight.getBuffData buffId).clearLevel < (fight.getBuffData old.buffId).clearLevel then
          return
        else do
          removeBuff fight place [old.buffId]
          appendBuff fight place buffId caster

/-- The loop of `SpellClearBuff`. -/
def spellClearAll (fight : FightData) (level : Int) : List Place → M Unit
  | [] => return
  | place :: places => do
      let buffs := (← getUnit place).buffList.filter fun buff =>
        (fight.getBuffData buff.buffId).clearLevel ≤ level
      removeBuff fight place (buffs.map Buff.buffId)
      spellClearAll fight level places

def spellClearBuff (fight : FightData) (places : List Place) (level : Int) : M Unit := do
  spellClearAll fight level places
  note .settled

/-- What `CheckIsTriggerBuff` gives. -/
structure Triggered where
  hurtRatio : Option NNRat
  suckBlood : Option NNRat

/-- The loop over the targets in `CheckIsTriggerBuff`. -/
def reduceTemp (info : AttackDo) (attr : Attr) : List Place → M Unit
  | [] => return
  | place :: places => do
      let value := info.attrValue.getD 0 +
        (← getUnit place).attrDict attr / 100 * info.attrValuePct.getD 0
      modifyUnit place fun unit =>
        { unit with
          tempAttrDict := Function.update unit.tempAttrDict attr (unit.tempAttrDict attr - value) }
      reduceTemp info attr places

/-- What a buff triggers in `CheckIsTriggerBuff`.  A change of an attribute of the attacker itself
reads `self.unit`, which a unit does not have. -/
def triggerBuff (data : BuffData) (info : AttackDo) (targets : List Place)
    (triggered : Triggered) : M Triggered :=
  match info.attrName with
  | some attr => do
      note (.trigger info)
      if info.object = some .own then raise
      else if data.objectType = some .enemy then do
        reduceTemp info attr targets
        return triggered
      else return triggered
  | none =>
      match info.hurtRatio, info.suckBlood with
      | some hurtRatio, _ => return { triggered with hurtRatio := some hurtRatio }
      | none, some suckBlood => return { triggered with suckBlood := some suckBlood }
      | none, none => return triggered

/-- The loop of `CheckIsTriggerBuff`. -/
def triggerAll (fight : FightData) (targets : List Place) : List Buff → Triggered → M Triggered
  | [], triggered => return triggered
  | buff :: buffs, triggered => do
      let data := fight.getBuffData buff.buffId
      match data.beginAttackDo with
      | none => triggerAll fight targets buffs triggered
      | some info =>
          if (← random) ≤ data.triggerRate then do
            let triggered ← triggerBuff data info targets triggered
            triggerAll fight targets buffs triggered
          else triggerAll fight targets buffs triggered

def checkIsTriggerBuff (fight : FightData) (place : Place) (targets : List Place) :
    M Triggered := do
  triggerAll fight targets (← getUnit place).buffList { hurtRatio := none, suckBlood := none }

/-- `x == 0 and 1 or x`. -/
def orOne (value : ℚ) : ℚ :=
  if value = 0 then 1 else value

/-- The loop of `OnHit`. -/
def hitAll (fight : FightData) (place : Place) (hurt : ℚ) :
    List Buff → Option ℚ → M (Option ℚ)
  | [], rebound => return rebound
  | buff :: buffs, rebound => do
      let data := fight.getBuffData buff.buffId
      match data.attackedDo with
      | none => hitAll fight place hurt buffs rebound
      | some info =>
          if (← random) ≤ data.triggerRate then
            match info.hpRecover, info.reboundHurt with
            | some hpRecover, _ => do
                let maxHp := (← getUnit place).attrDict .maxHp
                cure place .recover (orOne ⌊maxHp * hpRecover / 100⌋)
                hitAll fight place hurt buffs rebound
            | none, some reboundHurt =>
                hitAll fight place hurt buffs (some (orOne ⌊hurt * reboundHurt / 100⌋))
            | none, none => hitAll fight place hurt buffs rebound
          else hitAll fight place hurt buffs rebound

/-- `OnHit`: the hurt that comes back. -/
def onHit (fight : FightData) (place : Place) (hurt : ℚ) : M (Option ℚ) := do
  hitAll fight place hurt (← getUnit place).buffList none

end UEServer.Fight
