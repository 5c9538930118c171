import UEServer.Hero.Role

/-!
# The operations on heroes and on the line-up

The operations of `meta_table/hero.lua` and of the first part of `meta_table/lineup.lua` that a
client calls.  An operation gives the role as it leaves it, also where the source returns early or
raises; the random numbers and the guids of new items are inputs.
-/

namespace UEServer.Hero

section
variable (config : Config)

/-- The second loop of `consume_item_list`: whether it goes through, and the bag after it. -/
def consumeAll (force : Bool) (bag : Bag.Role) : List Bag.Required → Bool × Bag.Role
  | [] => (true, bag)
  | required :: rest =>
      match Bag.consumeItem config.items force bag required with
      | none => (false, bag)
      | some bag => consumeAll force bag rest

/-- `consume_item_list`: whether it returns true, and the bag after it. -/
def consumeItemList (force : Bool) (bag : Bag.Role) (itemList : List Bag.Required) :
    Bool × Bag.Role :=
  match Bag.canConsumeAll config.items force bag itemList with
  | some true => consumeAll config force bag itemList
  | _ => (false, bag)

def consuming (force : Bool) (role : Role) (itemList : List Bag.Required) (next : Role → Role) :
    Role :=
  let (consumed, bag) := consumeItemList config force role.bag itemList
  if consumed then next { role with bag } else { role with bag }

def costItems (itemDict : List (Nat × Int)) : List Bag.Required :=
  itemDict.map fun (itemId, count) => { itemId, count }

/-- The loop of `_pile_bag_item` over the items there are: what is left, and the items. -/
def pileItems (itemId : Nat) (maxPlus : Int) : Int → List Bag.Item → Int × List Bag.Item
  | count, [] => (count, [])
  | count, item :: items =>
      if count ≤ 0 then (count, item :: items)
      else if item.itemId = itemId ∧ item.count < maxPlus then
        let added := min count (maxPlus - item.count)
        let (left, items) := pileItems itemId maxPlus (count - added) items
        (left, { item with count := item.count + added } :: items)
      else
        let (left, items) := pileItems itemId maxPlus count items
        (left, item :: items)

/-- New items of a type, as many as there are guids for. -/
def newItems (itemId : Nat) (maxPlus : Int) : Int → List String → List Bag.Item
  | _, [] => []
  | count, guid :: guids =>
      if count ≤ 0 then []
      else
        { guid, itemId, count := min count maxPlus } ::
          newItems itemId maxPlus (count - maxPlus) guids

/-- `add_new_item` for currencies, equipment and what is piled. -/
def addNewItem (bag : Bag.Role) (itemId : Nat) (count : Int) (guids : List String) : Bag.Role :=
  if count ≤ 0 then bag
  else
    match config.items.config itemId with
    | none => bag
    | some row =>
        match row.itemType with
        | .virtual =>
            if row.subType = .currency then
              { bag with currency := fun id =>
                if id = itemId then bag.currency id + count else bag.currency id }
            else bag
        | .equip => { bag with items := bag.items ++ newItems itemId 1 count guids }
        | .title | .pet => bag
        | .default | .prop | .stuff | .hero | .lover =>
            let maxPlus := (config.itemRow itemId).maxPlus
            if maxPlus > 1 then
              let (left, items) := pileItems itemId maxPlus count bag.items
              { bag with items := items ++ newItems itemId maxPlus left guids }
            else { bag with items := bag.items ++ newItems itemId 1 count guids }

/-- `add_item_dict`; every entry has its own guids. -/
def addItemDict (bag : Bag.Role) (itemDict : Table Nat Int) (guids : Nat → List String) :
    Bag.Role :=
  itemDict.keys.foldl (fun bag itemId =>
    addNewItem config bag itemId (itemDict.read itemId) (guids itemId)) bag

def addHero (role : Role) (heroId : Int) : Role :=
  if ¬ config.hasHero heroId then role
  else if (role.heroDict.get heroId).isSome then role
  else
    let role := { role with heroDict := role.heroDict.set heroId (some {}) }
    refreshHeroAttr config role heroId {}

def setHero (role : Role) (heroId : Int) (heroInfo : HeroInfo) : Role :=
  { role with heroDict := role.heroDict.set heroId (some heroInfo) }

def upgradeHeroLevel (role : Role) (heroId : Int) (tenLevel : Bool) : Role :=
  match role.heroDict.get heroId with
  | none => role
  | some heroInfo =>
      let newLevel := min (heroInfo.level + if tenLevel then 10 else 1)
        (getHeroLevelLimit config role.level)
      if newLevel = heroInfo.level then role
      else
        match getHeroLevelCost config heroId heroInfo.level newLevel with
        | none => role
        | some cost =>
            consuming config false role (costItems cost) fun role =>
              let role := setHero role heroId { heroInfo with level := newLevel }
              modifyHeroAttr config role (some heroId)
                (some (config.grow.levelGrow heroId heroInfo.level heroInfo.breakLv))
                (some (config.grow.levelGrow heroId newLevel heroInfo.breakLv))

/-- The part of `on_hero_breakthrough` that gives a talent to all heroes of the line-up. -/
def giveTalent (role : Role) (heroId : Int) (talent : TalentRow) : Role :=
  if (getHeroLineupId role heroId).isSome then
    role.lined.foldl (fun role other =>
      modifyHeroAttr config role (some other) none
        (some (talent.given ((config.heroData heroId).power = (config.heroData other).power)))) role
  else role

def onHeroBreakthrough (role : Role) (heroId : Int) (heroInfo : HeroInfo) (newBreakLv : Nat) :
    Role :=
  let oldAttr := config.grow.levelGrow heroId heroInfo.level heroInfo.breakLv
  let newAttr := config.grow.levelGrow heroId heroInfo.level newBreakLv
  match ((config.heroData heroId).talent newBreakLv).map config.talentData with
  | none => modifyHeroAttr config role (some heroId) (some oldAttr) (some newAttr)
  | some talent =>
      match talent.talentType with
      | .ownAttr =>
          modifyHeroAttr config role (some heroId) (some oldAttr)
            (some (newAttr.addAll talent.attrDict))
      | .allAttr =>
          modifyHeroAttr config (giveTalent config role heroId talent) (some heroId) (some oldAttr)
            (some newAttr)

def heroBreakthrough (role : Role) (heroId : Int) : Role :=
  match role.heroDict.get heroId with
  | none => role
  | some heroInfo =>
      let newBreakLv := heroInfo.breakLv + 1
      match config.heroBreakLvData[heroInfo.breakLv]? with
      | none => role
      | some levelLimit =>
          if heroInfo.level < levelLimit then role
          else
            consuming config false role (costItems (getHeroBreakCost config heroId newBreakLv))
              fun role =>
                let role := setHero role heroId { heroInfo with breakLv := newBreakLv }
                onHeroBreakthrough config role heroId heroInfo newBreakLv

def upgradeHeroStarLv (role : Role) (heroId : Int) : Role :=
  match role.heroDict.get heroId with
  | none => role
  | some heroInfo =>
      if heroInfo.starLv ≥ config.itemParam.heroStarLvLimit then role
      else
        let newStarLv := heroInfo.starLv + 1
        consuming config false role (costItems (getHeroStarCost config heroId newStarLv))
          fun role =>
            let role := setHero role heroId { heroInfo with starLv := newStarLv }
            modifyHeroAttr config role (some heroId)
              (some (config.grow.starGrow heroId heroInfo.starLv))
              (some (config.grow.starGrow heroId newStarLv))

def checkDestinyLevelUp (destinyData : DestinyRow) (destinyExp : Int) (random : ℚ) : Bool :=
  if destinyExp ≥ destinyData.expLimit then true
  else
    let reached := destinyData.upgrade.takeWhile fun upgrade => upgrade.1 ≤ destinyExp
    random < (reached.getLast?.map Prod.snd).getD 0

def upgradeHeroDestinyLv (role : Role) (heroId : Int) (random : ℚ) : Role :=
  match role.heroDict.get heroId with
  | none => role
  | some heroInfo =>
      if heroInfo.destinyLv ≥ config.heroDestinyData.length then role
      else
        match config.heroDestinyData[heroInfo.destinyLv - 1]? with
        | none => role
        | some destinyData =>
            let cost := [(config.itemParam.heroDestinyCostItem, destinyData.costNum)]
            consuming config false role (costItems cost) fun role =>
              let exp := heroInfo.destinyExp + destinyData.costNum
              let currCost := heroInfo.destinyCurrCost + destinyData.costNum
              if checkDestinyLevelUp destinyData exp random then
                let newDestinyLv := heroInfo.destinyLv + 1
                let role := setHero role heroId
                  { heroInfo with
                    destinyLv := newDestinyLv
                    destinyExp := 0
                    destinyLvCost := heroInfo.destinyLvCost + currCost
                    destinyCurrCost := 0 }
                modifyHeroAttr config role (some heroId)
                  (some (config.grow.destinyGrow heroId heroInfo.destinyLv))
                  (some (config.grow.destinyGrow heroId newDestinyLv))
              else
                setHero role heroId
                  { heroInfo with destinyExp := exp, destinyCurrCost := currCost }

/-- What the items given to a hero add: each draws one of the attributes. -/
def drawnAttr (randomAttr : List (Attribute × ℚ)) (draws : List Nat) : List (Attribute × ℚ) :=
  draws.filterMap fun draw => randomAttr[draw]?

/-- `give_hero_item`, for as many items as there are draws. -/
def giveHeroItem (role : Role) (heroId : Int) (itemId : Nat) (draws : List Nat) : Role :=
  match role.heroDict.get heroId, config.items.config itemId,
      (config.itemRow itemId).randomAttr with
  | some heroInfo, some _, some randomAttr =>
      let drawn := drawnAttr randomAttr draws
      consuming config false role (costItems [(itemId, draws.length)]) fun role =>
        let role := setHero role heroId
          { heroInfo with
            bookAttrDict := heroInfo.bookAttrDict.addList drawn
            bookNum := heroInfo.bookNum + draws.length }
        modifyHeroAttr config role (some heroId) none (some (Table.empty.addList drawn))
  | _, _, _ => role

def addCosts (itemDict : Table Nat Int) (costs : List (Nat × Int)) : Table Nat Int :=
  itemDict.addList costs

/-- The books of `get_hero_recover_item`. -/
def recoverBooks (heroInfo : HeroInfo) (itemDict : Table Nat Int) : Table Nat Int :=
  heroInfo.bookAttrDict.keys.foldl (fun itemDict attr =>
    let books := config.itemParam.heroRecoverBookItem.filterMap fun itemId =>
      ((config.itemRow itemId).randomAttr.bind List.head?).bind fun first =>
        if first.1 = attr then some (itemId, first.2) else none
    match books.getLast? with
    | none => itemDict
    | some (itemId, each) =>
        let count := ⌊heroInfo.bookAttrDict.read attr / each⌋
        if count > 0 then itemDict.increase itemId count else itemDict) itemDict

def getHeroRecoverItem (heroId : Int) (heroInfo : HeroInfo) : Table Nat Int :=
  let fragmentId := (config.heroData heroId).fragmentId
  let itemDict := Table.empty.set fragmentId (some (config.itemRow fragmentId).synthesizeCount)
  let itemDict :=
    addCosts itemDict ((getHeroLevelCost config heroId 1 heroInfo.level).getD [])
  let itemDict := (List.range heroInfo.breakLv).foldl (fun itemDict level =>
    addCosts itemDict (getHeroBreakCost config heroId (level + 1))) itemDict
  let itemDict := (List.range heroInfo.starLv).foldl (fun itemDict level =>
    addCosts itemDict (getHeroStarCost config heroId (level + 1))) itemDict
  let itemDict :=
    if heroInfo.destinyLvCost > 0 then
      itemDict.increase config.itemParam.heroDestinyCostItem heroInfo.destinyLvCost
    else itemDict
  recoverBooks config heroInfo itemDict

def heroRecover (role : Role) (heroId : Int) (guids : Nat → List String) : Role :=
  match role.heroDict.get heroId with
  | none => role
  | some heroInfo =>
      if (getHeroLineupId role heroId).isSome then role
      else
        let cost := config.itemParam.heroRecoverCost
        consuming config false role (costItems [cost]) fun role =>
          let role := { role with heroDict := role.heroDict.set heroId none }
          { role with
            bag := addItemDict config role.bag (getHeroRecoverItem config heroId heroInfo) guids }

def checkLineupUnlock (role : Role) : Role :=
  let opened (dict : Table Int LineupInfo) (entry : Nat × Nat) : Table Int LineupInfo :=
    let lineupId : Int := entry.2 + 1
    if (lineupId ≤ lineupMaxCount ∧ entry.1 ≤ role.level) ∧ dict.get lineupId = none then
      dict.set lineupId (some {})
    else dict
  { role with lineupDict := config.lineupUnlockData.zipIdx.foldl opened role.lineupDict }

def checkReinforcementsUnlock (role : Role) : Role :=
  let opened (dict : Table Int (Option Int)) (entry : Nat × Nat) : Table Int (Option Int) :=
    let posId : Int := entry.2 + 1
    if entry.1 ≤ role.level ∧ dict.get posId = none then dict.set posId (some none) else dict
  { role with
    reinforcementsDict := config.reinforcementsUnlockData.zipIdx.foldl opened
      role.reinforcementsDict }

/-- `_on_lvlup`, as far as the line-up goes. -/
def onLvlup (role : Role) (newLevel : Nat) : Role :=
  checkReinforcementsUnlock config (checkLineupUnlock config { role with level := newLevel })

/-- The positions from 1 to `LineupMaxCount`. -/
def positions : List Int :=
  [1, 2, 3, 4, 5, 6]

def getLineupNewPosId (role : Role) : Option Int :=
  positions.find? fun posId =>
    role.lineupDict.values.all fun lineupInfo => lineupInfo.posId ≠ some posId

/-- The part of `lineup_change_hero` about the hero that leaves the slot. -/
def leaveSlot (role : Role) (attr : AttrDict) (heroId : Option Int) : Role :=
  match heroId with
  | none => role
  | some oldHeroId =>
      let role := modifyHeroAttr config role (some oldHeroId) (some attr) none
      let role := changeLineupHeroTalentAttr config role oldHeroId true
      modifyHeroAttr config role (some oldHeroId) (some role.dynastySpellAttr) none

def lineupChangeHero (role : Role) (heroId lineupId : Int) : Role :=
  if lineupId > lineupMaxCount ∨ lineupId ≤ 0 then role
  else if (role.heroDict.get heroId).isNone then role
  else if (getReinforcementsPosId role heroId).isSome then role
  else if role.lined.contains heroId then role
  else
    match role.lineupDict.get lineupId with
    | none => role
    | some lineupInfo =>
        if ¬ lineupInfo.unlocked then role
        else
          let posId := lineupInfo.posId.or (getLineupNewPosId role)
          let attr := getLineupAttrDict config role.bag lineupInfo
          let role := leaveSlot config role attr lineupInfo.heroId
          let role := { role with
            lineupDict := role.lineupDict.set lineupId
              (some { lineupInfo with posId, heroId := some heroId }) }
          let role := modifyHeroAttr config role (some heroId) none (some attr)
          let role := changeLineupHeroTalentAttr config role heroId false
          let role := modifyHeroAttr config role (some heroId) none (some role.dynastySpellAttr)
          refreshFates config role

/-- The slots that a mapping of positions names, if they pass the checks. -/
def checkPosDict (role : Role) (posDict : Int → Option Int) : List Int → List Int → Bool
  | _, [] => true
  | signed, posId :: rest =>
      match posDict posId with
      | none => checkPosDict role posDict signed rest
      | some lineupId =>
          if lineupId > lineupMaxCount ∨ lineupId ≤ 0 then false
          else if ((role.lineupDict.get lineupId).bind LineupInfo.heroId).isNone then false
          else if signed.contains lineupId then false
          else checkPosDict role posDict (lineupId :: signed) rest

def setPosId (dict : Table Int LineupInfo) (lineupId posId : Int) : Table Int LineupInfo :=
  match dict.get lineupId with
  | none => dict
  | some lineupInfo => dict.set lineupId (some { lineupInfo with posId := some posId })

/-- The second loop of `adjust_pos_lineup`. -/
def setPosIds (posDict : Int → Option Int) (dict : Table Int LineupInfo) (posIds : List Int) :
    Table Int LineupInfo :=
  posIds.foldl (fun dict posId =>
    match posDict posId with
    | none => dict
    | some lineupId => setPosId dict lineupId posId) dict

def adjustPosLineup (role : Role) (posDict : Int → Option Int) : Role :=
  if checkPosDict role posDict [] positions then
    { role with lineupDict := setPosIds posDict role.lineupDict positions }
  else role

def leavePlace (role : Role) (heroId : Int) : Table Int (Option Int) :=
  match getReinforcementsPosId role heroId with
  | some oldPosId => role.reinforcementsDict.set oldPosId (some none)
  | none => role.reinforcementsDict

def reinforcementsChange (role : Role) (posId : Int) (heroId : Option Int) : Role :=
  match role.reinforcementsDict.get posId with
  | none => role
  | some current =>
      if current = heroId then role
      else if (role.lined.length : Int) ≠ lineupMaxCount then role
      else
        match heroId with
        | none =>
            refreshFates config
              { role with reinforcementsDict := role.reinforcementsDict.set posId (some none) }
        | some newHeroId =>
            if (getHeroLineupId role newHeroId).isSome then role
            else
              refreshFates config
                { role with
                  reinforcementsDict :=
                    (leavePlace role newHeroId).set posId (some (some newHeroId)) }

end

end UEServer.Hero
