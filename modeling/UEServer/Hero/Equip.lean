import UEServer.Bag.Spares
import UEServer.Hero.Ops

/-!
# The operations on equipment

The operations of the second part of `meta_table/lineup.lua`: wearing, taking off, strengthening,
refining, starring, smelting and recovering equipment.  As before, an operation gives the role as it
leaves it.  A field of an item is assigned in the bag.
-/

namespace UEServer.Hero

def modifyItem (bag : Bag.Role) (guid : String) (f : Bag.Item → Bag.Item) : Bag.Role :=
  { bag with items := bag.items.map fun item => if item.guid = guid then f item else item }

/-- `deep_copy` of an item of the bag. -/
def copyOf (role : Role) (guid : String) : Option EquipCopy :=
  (Bag.getBagItem role.bag guid).map fun item => ⟨item, role.extra guid⟩

def setSlot (role : Role) (lineupId : Int) (lineupInfo : LineupInfo) : Role :=
  { role with lineupDict := role.lineupDict.set lineupId (some lineupInfo) }

def copyItem (role : Role) (lineupId : Int) (guid : String) : Role :=
  match role.lineupDict.get lineupId with
  | none => role
  | some lineupInfo =>
      setSlot role lineupId
        { lineupInfo with equipInfoDict := lineupInfo.equipInfoDict.set guid (copyOf role guid) }

inductive Master where
  | strengthen
  | refine

/-- The level of an item that a master looks at. -/
def Master.itemLv : Master → Bag.Item → Int
  | .strengthen, item => item.strengthenLv
  | .refine, item => item.refineLv

def Master.lv : Master → LineupInfo → PartType → Nat
  | .strengthen, lineupInfo => lineupInfo.strengthenMasterLv
  | .refine, lineupInfo => lineupInfo.refineMasterLv

/-- Assign the level of a master of a slot. -/
def Master.setLv (master : Master) (lineupInfo : LineupInfo) (partType : PartType) (lv : Nat) :
    LineupInfo :=
  match master with
  | .strengthen =>
      { lineupInfo with
        strengthenMasterLv := Function.update lineupInfo.strengthenMasterLv partType lv }
  | .refine =>
      { lineupInfo with refineMasterLv := Function.update lineupInfo.refineMasterLv partType lv }

section
variable (config : Config)

def Master.rows (config : Config) : Master → PartType → List MasterRow
  | .strengthen => config.strengthenMaster
  | .refine => config.refineMaster

/-- How many worn pieces of a type have a level. -/
def countEquips (role : Role) (equipDict : Table Int String) (type : PartType)
    (reaches : Bag.Item → Bool) : Nat :=
  equipDict.keys.countP fun partIndex =>
    partType config partIndex = some type &&
      ((equipDict.get partIndex).bind (Bag.getBagItem role.bag)).any reaches

/-- The level of a master that the equipment of a slot reaches. -/
def reachedMasterLv (role : Role) (master : Master) (equipDict : Table Int String)
    (type : PartType) : Nat :=
  ((master.rows config type).takeWhile fun row =>
    masterEquipCount type ≤
      countEquips config role equipDict type fun item => row.equipLv ≤ master.itemLv item).length

/-- `check_strengthen_master_lv` and `check_refine_master_lv`, which differ in the master. -/
def checkMasterLv (master : Master) (role : Role) (lineupId : Int) (type : PartType) : Role :=
  match role.lineupDict.get lineupId with
  | none => role
  | some lineupInfo =>
      let newLv := reachedMasterLv config role master lineupInfo.equipDict type
      let oldLv := master.lv lineupInfo type
      if newLv = oldLv then role
      else
        setSlot
          (modifyHeroAttr config role lineupInfo.heroId
            (some (getMasterAttr (master.rows config type) oldLv))
            (some (getMasterAttr (master.rows config type) newLv)))
          lineupId (master.setLv lineupInfo type newLv)

def checkStrengthenMasterLv : Role → Int → PartType → Role :=
  checkMasterLv config .strengthen

def checkRefineMasterLv : Role → Int → PartType → Role :=
  checkMasterLv config .refine

/-- The last part of wearing and taking off: masters and fates. -/
def checkSlot (role : Role) (lineupId partIndex : Int) (heroId : Option Int) : Role :=
  match partType config partIndex with
  | none => role
  | some type =>
      let role := checkStrengthenMasterLv config role lineupId type
      let role := checkRefineMasterLv config role lineupId type
      refreshFate config role heroId

def lineupUnwearEquip (role : Role) (lineupId partIndex : Int) : Role :=
  match role.lineupDict.get lineupId with
  | none => role
  | some lineupInfo =>
      match lineupInfo.equipDict.get partIndex with
      | none => role
      | some equipGuid =>
          let oldAttr := (getEquipSuitAttr config role.bag lineupInfo.equipDict).addAll
            (getEquipAttr config role.bag equipGuid)
          let equipDict := lineupInfo.equipDict.set partIndex none
          let role := setSlot role lineupId
            { lineupInfo with
              equipDict
              equipInfoDict := lineupInfo.equipInfoDict.set equipGuid none }
          let role := { role with
            bag := modifyItem role.bag equipGuid fun item => { item with lineupId := none } }
          let newAttr := getEquipSuitAttr config role.bag equipDict
          let role := modifyHeroAttr config role lineupInfo.heroId (some oldAttr) (some newAttr)
          checkSlot config role lineupId partIndex lineupInfo.heroId

/-- The part of `lineup_wear_equip` after the piece is taken off elsewhere. -/
def putOn (role : Role) (lineupId partIndex : Int) (itemGuid : String) : Role :=
  match role.lineupDict.get lineupId with
  | none => role
  | some lineupInfo =>
      let suitAttr := getEquipSuitAttr config role.bag lineupInfo.equipDict
      let oldEquipGuid := lineupInfo.equipDict.get partIndex
      let oldAttr :=
        match oldEquipGuid with
        | none => suitAttr
        | some guid => suitAttr.addAll (getEquipAttr config role.bag guid)
      let bag :=
        match oldEquipGuid with
        | none => role.bag
        | some guid => modifyItem role.bag guid fun item => { item with lineupId := none }
      let bag := modifyItem bag itemGuid fun item =>
        { item with lineupId := some lineupId.toNat }
      let equipDict := lineupInfo.equipDict.set partIndex (some itemGuid)
      let role := setSlot { role with bag } lineupId { lineupInfo with equipDict }
      let role := copyItem role lineupId itemGuid
      let newAttr := (getEquipSuitAttr config role.bag equipDict).addAll
        (getEquipAttr config role.bag itemGuid)
      let role := modifyHeroAttr config role lineupInfo.heroId (some oldAttr) (some newAttr)
      checkSlot config role lineupId partIndex lineupInfo.heroId

def isEquip (itemId : Nat) : Bool :=
  (config.items.config itemId).any fun row => row.itemType = .equip

def lineupWearEquip (role : Role) (lineupId partIndex : Int) (itemGuid : String) : Role :=
  match partType config partIndex, Bag.getBagItem role.bag itemGuid,
      role.lineupDict.get lineupId with
  | some _, some item, some _ =>
      if ¬ isEquip config item.itemId then role
      else if (config.itemRow item.itemId).partIndex ≠ some partIndex then role
      else
        let role :=
          match item.lineupId with
          | none => role
          | some oldLineupId => lineupUnwearEquip config role oldLineupId partIndex
        putOn config role lineupId partIndex itemGuid
  | _, _, _ => role

/-- A piece of equipment of the bag, with its part and type. -/
def findEquip (role : Role) (itemGuid : String) : Option (Bag.Item × PartType) :=
  (Bag.getBagItem role.bag itemGuid).bind fun equip =>
    if isEquip config equip.itemId then
      ((config.itemRow equip.itemId).partIndex.bind (partType config)).map fun type => (equip, type)
    else none

/-- Train a piece of equipment; if it is worn, its copy and the attributes of the hero follow. -/
def trainEquip (role : Role) (equip : Bag.Item) (train : Bag.Item → Bag.Item) (extra : Extra)
    (oldAttr newAttr : AttrDict) : Role :=
  let role := { role with
    bag := modifyItem role.bag equip.guid train
    extra := Function.update role.extra equip.guid extra }
  match equip.lineupId with
  | none => role
  | some lineupId =>
      match role.lineupDict.get lineupId with
      | none => role
      | some lineupInfo =>
          modifyHeroAttr config (copyItem role lineupId equip.guid) lineupInfo.heroId
            (some oldAttr) (some newAttr)

/-- The check of a master if the equipment is worn. -/
def checkWorn (master : Master) (role : Role) (equip : Bag.Item) (type : PartType) : Role :=
  match equip.lineupId with
  | none => role
  | some lineupId => checkMasterLv config master role lineupId type

/-- The highest level whose experience is reached, above a level. -/
def reachLv (exp : Int) : List (Option Int) → Int → Option Int
  | [], lv => some lv
  | none :: _, _ => none
  | some need :: rest, lv => if exp < need then some lv else reachLv exp rest (lv + 1)

def getStrengthenConsume (role : Role) (oldLevel oldExp : Int) (costItemList : List String)
    (quality : Nat) : Option (Int × Int × List Bag.Required) := do
  let items ← costItemList.mapM (Bag.getBagItem role.bag)
  let exps ← items.mapM fun item =>
    if isEquip config item.itemId then
      (config.itemRow item.itemId).addExp.map (· + item.strengthenExp)
    else none
  let costNum := (items.map fun item => (config.itemRow item.itemId).costCoin).sum
  let newExp := oldExp + exps.sum
  let newLevel ← reachLv newExp
    ((config.strengthenLvData.drop oldLevel.toNat).map fun exp => exp quality) oldLevel
  let pieces := items.map fun item =>
    ({ itemId := item.itemId, count := 1, guid := some item.guid } : Bag.Required)
  some (newLevel, newExp,
    pieces ++ costItems [(config.itemParam.strengthenEquipCostCoin, costNum)])

/-- What strengthening costs and gives: the new level, the new experience and the items. -/
def strengthenTarget (role : Role) (equip : Bag.Item) (type : PartType)
    (costItemList : Option (List String)) : Option (Int × Int × List Bag.Required) :=
  match type with
  | .equip =>
      if equip.strengthenLv ≥ role.level * 2 then none
      else
        let newLevel := equip.strengthenLv + 1
        some (newLevel, equip.strengthenExp, costItems
          [(config.itemParam.strengthenEquipCostCoin,
            config.grow.strengthenCost equip.itemId newLevel)])
  | .treasure =>
      if equip.strengthenLv ≥ config.strengthenLvData.length then none
      else
        costItemList.bind fun costItemList =>
          getStrengthenConsume config role equip.strengthenLv equip.strengthenExp costItemList
            (config.itemRow equip.itemId).quality

/-- `strengthen_equip`: whether it returns true, and the role. -/
def strengthenEquip (role : Role) (itemGuid : String) (costItemList : Option (List String)) :
    Bool × Role :=
  match findEquip config role itemGuid with
  | none => (false, role)
  | some (equip, type) =>
      match strengthenTarget config role equip type costItemList with
      | none => (false, role)
      | some (newLevel, newExp, itemList) =>
          ((consumeItemList config true role.bag itemList).1,
            consuming config true role itemList fun role =>
              let role := trainEquip config role equip
                (fun item => { item with strengthenLv := newLevel, strengthenExp := newExp })
                (role.extra itemGuid)
                (getEquipStrengthenAttr config equip.itemId equip.strengthenLv)
                (getEquipStrengthenAttr config equip.itemId newLevel)
              checkWorn config .strengthen role equip type)

/-- Strengthen until it fails, or so many times. -/
def strengthenTimes (itemGuid : String) : Nat → Role → Role
  | 0, role => role
  | times + 1, role =>
      let (done, role) := strengthenEquip config role itemGuid none
      if done then strengthenTimes itemGuid times role else role

def strengthenEquipFiveTimes (role : Role) (itemGuid : String) : Role :=
  strengthenTimes config itemGuid 5 role

/-- The loop of `quick_strengthen_equip` over the parts.  A piece cannot be strengthened more often
than its limit leaves levels. -/
def quickStrengthenParts (equipDict : Table Int String) : List (PartType × Nat) → Role → Role
  | [], role => role
  | (.treasure, _) :: rest, role => quickStrengthenParts equipDict rest role
  | (.equip, index) :: rest, role =>
      match (equipDict.get (index + 1)).bind fun guid =>
          (Bag.getBagItem role.bag guid).map fun equip => (guid, equip) with
      | none => quickStrengthenParts equipDict rest role
      | some (guid, equip) =>
          let role := strengthenTimes config guid
            ((role.level * 2 - equip.strengthenLv).toNat + 1) role
          match Bag.getBagItem role.bag guid with
          | none => role
          | some equip =>
              if equip.strengthenLv < role.level * 2 then role
              else quickStrengthenParts equipDict rest role

/-- `quick_strengthen_equip`.  The border that `#` finds in `equip_dict` is an input. -/
def quickStrengthenEquip (role : Role) (lineupId : Int) (border : Nat) : Role :=
  match role.lineupDict.get lineupId with
  | none => role
  | some lineupInfo =>
      if border = 0 then role
      else quickStrengthenParts config lineupInfo.equipDict config.equipPartData.zipIdx role

def getRefineConsume (equip : Bag.Item) (costItemId : Option Nat) :
    Option (List (Nat × Int) × List (Nat × Int)) := do
  let row ← config.refineLvData[equip.refineLv.toNat]?
  let itemNum ← row.itemNum
  let base := [(config.itemParam.refineEquipCostCoin, row.coinNum),
    (config.itemParam.refineTreasureCostItem, itemNum)]
  let itemRow := config.itemRow equip.itemId
  if itemRow.quality = 6 then
    if row.treasureCount > 0 then
      let costItemId ← costItemId
      let costRow := config.itemRow costItemId
      if (config.items.config costItemId).isNone then none
      else if costRow.partIndex ≠ itemRow.partIndex then none
      else if costRow.quality + 1 ≠ itemRow.quality then none
      else some (base ++ [(costItemId, row.treasureCount)], [(costItemId, row.treasureCount)])
    else some (base, [])
  else if row.treasureNum > 0 then
    some (base ++ [(equip.itemId, row.treasureNum)], [(equip.itemId, row.treasureNum)])
  else some (base, [])

/-- The levels above a level of `RefineLvData`. -/
def refineExps (refineLv : Int) (quality : Nat) : List (Option Int) :=
  (config.refineLvData.drop (refineLv.toNat + 1)).map fun row => row.exp quality

/-- What refining costs and gives: the new level, the new experience, the items, and those to keep
for the recovery. -/
def refineTarget (equip : Bag.Item) (type : PartType) (costItemId : Option Nat) :
    Option (Int × Int × List (Nat × Int) × List (Nat × Int)) :=
  match type with
  | .equip =>
      costItemId.bind fun costItemId =>
        if (config.items.config costItemId).isNone then none
        else
          (config.itemRow costItemId).addExp.bind fun addExp =>
            let newExp := equip.refineExp + addExp
            (reachLv newExp
              (refineExps config equip.refineLv (config.itemRow equip.itemId).quality)
              equip.refineLv).map fun newLv => (newLv, newExp, [(costItemId, 1)], [])
  | .treasure =>
      (getRefineConsume config equip costItemId).map fun (itemList, costDict) =>
        (equip.refineLv + 1, equip.refineExp, itemList, costDict)

/-- Refine a piece of equipment. -/
def refineTo (role : Role) (equip : Bag.Item) (type : PartType) (newLv newExp : Int)
    (costDict : List (Nat × Int)) : Role :=
  let extra := role.extra equip.guid
  let role := trainEquip config role equip
    (fun item => { item with refineLv := newLv, refineExp := newExp })
    { extra with refineCost := extra.refineCost.addList costDict }
    (getEquipRefineAttr config equip.itemId equip.refineLv)
    (getEquipRefineAttr config equip.itemId newLv)
  checkWorn config .refine role equip type

def refineEquip (role : Role) (itemGuid : String) (costItemId : Option Nat) : Role :=
  match findEquip config role itemGuid with
  | none => role
  | some (equip, type) =>
      if equip.refineLv ≥ (config.refineLvData.length : Int) - 1 then role
      else
        match refineTarget config equip type costItemId with
        | none => role
        | some (newLv, newExp, itemList, costDict) =>
            consuming config false role (costItems itemList) fun role =>
              refineTo config role equip type newLv newExp costDict

/-- What `quick_refine_equip` adds up. -/
def quickRefineExp (costItemDict : List (Nat × Int)) : Option Int :=
  (costItemDict.mapM fun (itemId, count) =>
    if (config.items.config itemId).isNone then none
    else (config.itemRow itemId).addExp.map (· * count)).map List.sum

def quickRefineEquip (role : Role) (itemGuid : String) (costItemDict : List (Nat × Int)) : Role :=
  match findEquip config role itemGuid with
  | some (equip, .equip) =>
      if equip.refineLv ≥ (config.refineLvData.length : Int) - 1 then role
      else
        match quickRefineExp config costItemDict with
        | none => role
        | some addExp =>
            let newExp := equip.refineExp + addExp
            consuming config false role (costItems costItemDict) fun role =>
              match reachLv newExp
                  (refineExps config equip.refineLv (config.itemRow equip.itemId).quality)
                  equip.refineLv with
              | none => role
              | some newLv => refineTo config role equip .equip newLv newExp []
  | _ => role

def upgradeEquipStarLv (role : Role) (itemGuid : String) : Role :=
  match findEquip config role itemGuid with
  | none => role
  | some (equip, _) =>
      if equip.starLv ≥ config.equipStarLvLimit (config.itemRow equip.itemId).quality then role
      else
        let newLevel := equip.starLv + 1
        consuming config false role (costItems (getEquipStarCost config equip.itemId newLevel))
          fun role =>
            trainEquip config role equip (fun item => { item with starLv := newLevel })
              (role.extra itemGuid)
              (getEquipStarAttr config equip.itemId equip.starLv)
              (getEquipStarAttr config equip.itemId newLevel)

/-- The outcome of smelting: the new level, the new experience and the new lucky value. -/
def smeltOutcome (smeltData : SmeltRow) (smeltLv smeltExp luckyValue : Int)
    (random critRandom : ℚ) : Int × Int × Int :=
  let rate :=
    if smeltData.initRate = 1 then smeltData.initRate
    else smeltData.initRate + (1 - smeltData.initRate) * luckyValue / smeltData.luckLimit
  if random < rate then
    let exp :=
      if critRandom < smeltData.critRate2 then smeltData.eachExp * 2
      else if critRandom < smeltData.critRate1 then smeltData.eachExp * (3 / 2)
      else smeltData.eachExp
    let newExp := ⌊exp⌋ + smeltExp
    if newExp ≥ smeltData.exp then (smeltLv + 1, 0, 0) else (smeltLv, newExp, luckyValue)
  else (smeltLv, smeltExp, min (luckyValue + smeltData.addLuck) smeltData.luckLimit)

def equipSmelt (role : Role) (itemGuid : String) (costItemId : Nat) (random critRandom : ℚ) :
    Role :=
  match findEquip config role itemGuid with
  | none => role
  | some (equip, _) =>
      if ¬ config.canSmelt (config.itemRow equip.itemId).quality then role
      else
        match config.equipSmeltData[equip.smeltLv.toNat]?,
            (getEquipSmeltCost config equip.itemId (equip.smeltLv + 1)).lookup costItemId with
        | some smeltData, some costNum =>
            consuming config false role (costItems [(costItemId, costNum)]) fun role =>
              let extra := role.extra itemGuid
              let (newLv, newExp, luckyValue) := smeltOutcome smeltData equip.smeltLv
                equip.smeltExp extra.luckyValue random critRandom
              trainEquip config role equip
                (fun item => { item with smeltLv := newLv, smeltExp := newExp })
                { extra with luckyValue, smeltCost := extra.smeltCost.increase costItemId costNum }
                (getEquipSmeltAttr config equip.itemId equip.smeltLv equip.smeltExp)
                (getEquipSmeltAttr config equip.itemId newLv newExp)
        | _, _ => role

/-- Take items for experience: what is left, and the items with their costs. -/
def expItems (exp : Int) (itemIds : List Nat) (itemDict : Table Nat Int) (coin : Option Nat) :
    Int × Table Nat Int :=
  itemIds.reverse.foldl (fun (exp, itemDict) itemId =>
    let row := config.itemRow itemId
    let addExp := row.addExp.getD 1
    let count := exp / addExp
    if count > 0 then
      let itemDict := itemDict.increase itemId count
      (exp - count * addExp,
        match coin with
        | some coin => itemDict.increase coin (count * row.costCoin)
        | none => itemDict)
    else (exp, itemDict)) (exp, itemDict)

/-- `get_equip_recover_item`: the items, and the experience it leaves with the equipment. -/
def getEquipRecoverItem (equip : Bag.Item) (extra : Extra) : Table Nat Int × Int × Int :=
  let param := config.itemParam
  let isTreasure := (config.itemRow equip.itemId).isTreasure
  let (strengthenExp, itemDict) : Int × Table Nat Int :=
    if equip.strengthenLv > 1 ∨ equip.strengthenExp > 0 then
      if isTreasure then
        expItems config equip.strengthenExp param.expTreasureList Table.empty
          (some param.strengthenEquipCostCoin)
      else
        (equip.strengthenExp,
          Table.empty.increase param.strengthenEquipCostCoin
            ((List.range (equip.strengthenLv - 1).toNat).map fun level =>
              config.grow.strengthenCost equip.itemId (level + 2)).sum)
    else (equip.strengthenExp, Table.empty)
  let (refineExp, itemDict) : Int × Table Nat Int :=
    if equip.refineLv > 0 ∨ equip.refineExp > 0 then
      if isTreasure then
        let rows := (config.refineLvData.drop 1).take equip.refineLv.toNat
        let itemDict := itemDict.increase param.refineEquipCostCoin
          (rows.map RefineRow.coinNum).sum
        let itemDict := itemDict.increase param.refineTreasureCostItem
          (rows.map fun row => row.itemNum.getD 0).sum
        (equip.refineExp, itemDict.addAll extra.refineCost)
      else expItems config equip.refineExp param.equipRefineItemList itemDict none
    else (equip.refineExp, itemDict)
  let itemDict := (List.range equip.starLv.toNat).foldl (fun itemDict level =>
    addCosts itemDict (getEquipStarCost config equip.itemId (level + 1))) itemDict
  (itemDict.addAll extra.smeltCost, strengthenExp, refineExp)

def equipRecover (role : Role) (equipGuid : String) (guids : Nat → List String) : Role :=
  match findEquip config role equipGuid with
  | none => role
  | some (equip, _) =>
      if equip.isWorn then role
      else
        let cost := config.itemParam.equipRecoverCost
        consuming config false role (costItems [cost]) fun role =>
          let (itemDict, strengthenExp, refineExp) :=
            getEquipRecoverItem config equip (role.extra equipGuid)
          let row := config.itemRow equip.itemId
          let role := { role with
            bag := modifyItem role.bag equipGuid fun item =>
              { item with strengthenExp, refineExp } }
          if row.isTreasure then
            let role := { role with
              bag := modifyItem role.bag equipGuid fun item =>
                { item with
                  starLv := 0
                  refineLv := 0
                  refineExp := 0
                  strengthenLv := 1
                  strengthenExp := 0
                  smeltLv := 0
                  smeltExp := 0 }
              extra := Function.update role.extra equipGuid {} }
            { role with bag := addItemDict config role.bag itemDict guids }
          else
            let itemDict := itemDict.set row.fragment
              (some (config.itemRow row.fragment).synthesizeCount)
            consuming config true role (costItems [(equip.itemId, equip.count)]) fun role =>
              { role with bag := addItemDict config role.bag itemDict guids }

end

end UEServer.Hero
