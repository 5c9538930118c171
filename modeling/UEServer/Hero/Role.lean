import UEServer.Hero.Config

/-!
# Heroes of a role

`meta_table/hero.lua`: the stored heroes and line-up of a role, the fields of the heroes that are
computed from them, the computation at login and the functions that change the computed fields by a
difference.
-/

namespace UEServer.Hero

structure HeroInfo where
  level : Nat := 1
  fateDict : Table Nat Bool := Table.empty
  breakLv : Nat := 0
  starLv : Nat := 0
  destinyLv : Nat := 1
  destinyExp : Int := 0
  destinyLvCost : Int := 0
  destinyCurrCost : Int := 0
  bookAttrDict : AttrDict := Table.empty
  bookNum : Int := 0

/-- The fields of equipment that are not of `Bag.Item`. -/
structure Extra where
  luckyValue : Int := 0
  /-- `smelt_cost`; the empty table stands for `nil`. -/
  smeltCost : Table Nat Int := Table.empty
  /-- `refine_cost`; the empty table stands for `nil`. -/
  refineCost : Table Nat Int := Table.empty

structure EquipCopy where
  /-- The fields of `Bag.Item`. -/
  item : Bag.Item
  extra : Extra

/-- An element of `lineup_dict`. -/
structure LineupInfo where
  /-- `unlock_status` is `Yes`. -/
  unlocked : Bool := true
  posId : Option Int := none
  heroId : Option Int := none
  equipDict : Table Int String := Table.empty
  strengthenMasterLv : PartType → Nat := fun _ => 0
  refineMasterLv : PartType → Nat := fun _ => 0
  equipInfoDict : Table String EquipCopy := Table.empty

/-- An element of `lover_dict`. -/
structure LoverInfo where
  spellDict : Table Nat Nat := Table.empty
  starLv : Nat := 0

structure Role where
  level : Nat
  /-- `hero_dict`, without the computed fields. -/
  heroDict : Table Int HeroInfo
  lineupDict : Table Int LineupInfo
  /-- `reinforcements_dict`: the hero of each place. -/
  reinforcementsDict : Table Int (Option Int)
  /-- `bag_item_list` and `currency`. -/
  bag : Bag.Role
  extra : String → Extra
  loverDict : Table Nat LoverInfo
  /-- `get_hero_title_attr`. -/
  heroTitleAttr : AttrDict
  /-- `get_dynasty_spell_attr`. -/
  dynastySpellAttr : AttrDict
  computed : Int → Computed

def lineupMaxCount : Int := 6

def getHeroLineupId (role : Role) (heroId : Int) : Option Int :=
  role.lineupDict.keys.find? fun lineupId =>
    (role.lineupDict.get lineupId).bind LineupInfo.heroId = some heroId

def getReinforcementsPosId (role : Role) (heroId : Int) : Option Int :=
  role.reinforcementsDict.keys.find? fun posId =>
    (role.reinforcementsDict.get posId).bind id = some heroId

/-- The heroes of the line-up, in the order of `lineup_dict`. -/
def Role.lined (role : Role) : List Int :=
  role.lineupDict.values.filterMap LineupInfo.heroId

section
variable (config : Config)

def getHeroLoverAttr (role : Role) (heroId : Int) : AttrDict :=
  role.loverDict.keys.foldl (fun dict loverId =>
    match role.loverDict.get loverId with
    | none => dict
    | some loverInfo =>
        let fits := config.loverHeroes loverId heroId
        let dict := loverInfo.spellDict.keys.foldl (fun dict spellId =>
          let spellData := config.loverSpellData spellId
          let spellLevel := (loverInfo.spellDict.get spellId).getD 0
          if spellData.isAll ∨ fits then
            spellData.attrs.foldl (fun dict (attr, ratio) =>
              dict.increase attr (spellLevel * ratio)) dict
          else dict) dict
        if fits then dict.addAll (config.grow.loverStarGrow loverId loverInfo.starLv) else dict)
    Table.empty

/-- The talents of a hero up to a break level. -/
def talents (heroId : Int) (breakLv : Nat) : List TalentRow :=
  (List.range breakLv).filterMap fun level =>
    ((config.heroData heroId).talent (level + 1)).map config.talentData

/-- The raw attributes of `refresh_hero_attr`. -/
def refreshRawAttr (role : Role) (heroId : Int) (heroInfo : HeroInfo) : AttrDict :=
  let raw := (Table.empty : AttrDict).addAll config.heroInitAttr
  let raw := raw.addAll (config.grow.levelGrow heroId heroInfo.level heroInfo.breakLv)
  let raw := raw.addAll (config.grow.starGrow heroId heroInfo.starLv)
  let raw := raw.addAll (config.grow.destinyGrow heroId heroInfo.destinyLv)
  let raw := (talents config heroId heroInfo.breakLv).foldl (fun raw talent =>
    if talent.talentType = .ownAttr then raw.addAll talent.attrDict else raw) raw
  let raw := raw.addAll (getHeroFateAttr config heroInfo.fateDict)
  let raw := raw.addAll (getHeroLoverAttr config role heroId)
  raw.addAll role.heroTitleAttr

def refreshHeroAttr (role : Role) (heroId : Int) (heroInfo : HeroInfo) : Role :=
  let raw := refreshRawAttr config role heroId heroInfo
  let attrDict := refreshAllAttr config.param raw
  { role with
    computed := Function.update role.computed heroId
      { rawAttrDict := raw, attrDict, score := evalHeroScore config.param attrDict.read } }

def modifyHeroAttr (role : Role) (heroId : Option Int) (oldAttr newAttr : Option AttrDict) : Role :=
  match heroId, getAttrDictDiff oldAttr newAttr with
  | some heroId, some diff =>
      if diff.keys = [] then role
      else if (role.heroDict.get heroId).isSome then
        { role with
          computed := Function.update role.computed heroId
            ((role.computed heroId).modify config.param diff) }
      else role
  | _, _ => role

/-- What a talent of all heroes gives a hero of a power. -/
def TalentRow.given (talent : TalentRow) (samePower : Bool) : AttrDict :=
  let dict := (Table.empty : AttrDict).addAll talent.attrDict
  match talent.extraAttrDict with
  | some extra => if samePower then dict.addAll extra else dict
  | none => dict

def getAddTalentAttr (role : Role) (heroId : Int) (selfPower : Nat) : AttrDict :=
  match role.heroDict.get heroId with
  | none => Table.empty
  | some heroInfo =>
      (talents config heroId heroInfo.breakLv).foldl (fun dict talent =>
        if talent.talentType = .allAttr then
          dict.addAll (talent.given ((config.heroData heroId).power = selfPower))
        else dict) Table.empty

def loadHeroTalentAttr (role : Role) (heroId : Int) : Role :=
  role.lined.foldl (fun role other =>
    modifyHeroAttr config role (some other) none
      (some (getAddTalentAttr config role heroId (config.heroData other).power))) role

/-- Take attributes from a hero, or give them to it. -/
def changeAttr (role : Role) (isClear : Bool) (heroId : Int) (attr : AttrDict) : Role :=
  if isClear then modifyHeroAttr config role (some heroId) (some attr) none
  else modifyHeroAttr config role (some heroId) none (some attr)

/-- The first part of `change_lineup_hero_talent_attr`: what a hero gives the others. -/
def changeGivenAttr (role : Role) (heroId : Int) (heroInfo : HeroInfo) (isClear : Bool) : Role :=
  if heroInfo.breakLv > 0 then
    role.lined.foldl (fun role other =>
      if other ≠ heroId then
        changeAttr config role isClear other
          (getAddTalentAttr config role heroId (config.heroData other).power)
      else role) role
  else role

/-- What the heroes of the line-up, itself included, give a hero of a power. -/
def receivedAttr (role : Role) (power : Nat) : AttrDict :=
  role.lined.foldl (fun dict other => dict.addAll (getAddTalentAttr config role other power))
    Table.empty

def changeLineupHeroTalentAttr (role : Role) (heroId : Int) (isClear : Bool) : Role :=
  match role.heroDict.get heroId with
  | none => role
  | some heroInfo =>
      let role := changeGivenAttr config role heroId heroInfo isClear
      changeAttr config role isClear heroId
        (receivedAttr config role (config.heroData heroId).power)

def isWearEquip (role : Role) (heroId : Int) (equipId : Nat) : Bool :=
  match (getHeroLineupId role heroId).bind role.lineupDict.get with
  | none => false
  | some lineupInfo => lineupInfo.equipInfoDict.values.any fun copy => copy.item.itemId = equipId

def fulfilled (role : Role) (heroId : Int) (fateData : FateRow) : Bool :=
  (match fateData.fateHero with
    | some other =>
        (getHeroLineupId role other).isSome || (getReinforcementsPosId role other).isSome
    | none => false) ||
  (match fateData.fateItem with
    | some equipId => isWearEquip role heroId equipId
    | none => false)

/-- The loop of `refresh_fate` over the fates of a hero. -/
def refreshFateDict (role : Role) (heroId : Int) (fateDict : Table Nat Bool) : Table Nat Bool :=
  (config.heroData heroId).fate.foldl (fun fateDict fateId =>
    if fulfilled role heroId (config.fateData fateId) then fateDict.set fateId (some true)
    else fateDict.set fateId none) fateDict

/-- Some fate of the list is to be set or removed. -/
def fateChanges (role : Role) (heroId : Int) (fateDict : Table Nat Bool) : Bool :=
  (config.heroData heroId).fate.any fun fateId =>
    fulfilled role heroId (config.fateData fateId) ≠ (fateDict.get fateId).isSome

def refreshFate (role : Role) (heroId : Option Int) : Role :=
  match heroId with
  | none => role
  | some heroId =>
      match role.heroDict.get heroId with
      | none => role
      | some heroInfo =>
          if (getHeroLineupId role heroId).isSome ∧
              fateChanges config role heroId heroInfo.fateDict then
            let fateDict := refreshFateDict config role heroId heroInfo.fateDict
            let role := { role with
              heroDict := role.heroDict.set heroId (some { heroInfo with fateDict }) }
            modifyHeroAttr config role (some heroId)
              (some (getHeroFateAttr config heroInfo.fateDict))
              (some (getHeroFateAttr config fateDict))
          else role

/-- The second loops of `on_lineup_change` and `on_reinforcements_change`. -/
def refreshFates (role : Role) : Role :=
  role.lined.foldl (fun role heroId => refreshFate config role (some heroId)) role

/-- `get_equip_attr`; in `equip_dict` there is no guid that the bag does not have. -/
def getEquipAttr (bag : Bag.Role) (equipGuid : String) : AttrDict :=
  match Bag.getBagItem bag equipGuid with
  | some equip => getEquipAllAttr config equip
  | none => Table.empty

def getEquipSuitAttr (bag : Bag.Role) (equipDict : Table Int String) : AttrDict :=
  let suits := equipDict.values.filterMap fun equipGuid =>
    (Bag.getBagItem bag equipGuid).bind fun item => (config.itemRow item.itemId).suit
  suits.dedup.foldl (fun dict suitId =>
    (config.suitData suitId).foldl (fun dict (needEquipNum, suitAttrDict) =>
      if needEquipNum ≤ suits.count suitId then dict.addAll suitAttrDict else dict) dict)
    Table.empty

def getLineupAttrDict (bag : Bag.Role) (lineupInfo : LineupInfo) : AttrDict :=
  let dict := lineupInfo.equipDict.values.foldl (fun dict equipGuid =>
    dict.addAll (getEquipAttr config bag equipGuid)) Table.empty
  let dict := dict.addAll (getEquipSuitAttr config bag lineupInfo.equipDict)
  let dict := [PartType.equip, PartType.treasure].foldl (fun dict partType =>
    dict.addAll (getStrengthenMasterAttr config partType (lineupInfo.strengthenMasterLv partType)))
    dict
  [PartType.equip, PartType.treasure].foldl (fun dict partType =>
    dict.addAll (getRefineMasterAttr config partType (lineupInfo.refineMasterLv partType))) dict

def loadHero (role : Role) : Role :=
  role.heroDict.keys.foldl (fun role heroId =>
    match role.heroDict.get heroId with
    | some heroInfo => refreshHeroAttr config role heroId heroInfo
    | none => role) role

def loadLineup (role : Role) : Role :=
  role.lineupDict.values.foldl (fun role lineupInfo =>
    match lineupInfo.heroId with
    | none => role
    | some heroId =>
        let attr := (getLineupAttrDict config role.bag lineupInfo).addAll role.dynastySpellAttr
        loadHeroTalentAttr config (modifyHeroAttr config role (some heroId) none (some attr)) heroId)
    role

/-- What a login computes of the stored data: `load_hero` and then `load_lineup`. -/
def login (role : Role) : Role :=
  loadLineup config (loadHero config role)

end

def emptyRole (bag : Bag.Role) : Role where
  level := 0
  heroDict := Table.empty
  lineupDict := Table.empty
  reinforcementsDict := Table.empty
  bag := bag
  extra _ := {}
  loverDict := Table.empty
  heroTitleAttr := Table.empty
  dynastySpellAttr := Table.empty
  computed _ := ⟨Table.empty, Table.empty, 0⟩

end UEServer.Hero
