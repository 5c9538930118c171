import UEServer.Bag.Consume
import UEServer.Hero.Attribute

/-!
# The tables of heroes and equipment

The rows of `excel_data` that `meta_table/hero.lua` and `meta_table/lineup.lua` read, and the
functions of `CSCommon/CSFunction.lua` on them.  A column that is read at a level is a function of
the level, as are the formulas of `GrowData`.
-/

namespace UEServer.Hero

/-- `CSConst.EquipPartType`. -/
inductive PartType where
  | equip
  | treasure
  deriving DecidableEq

def masterEquipCount : PartType → Nat
  | .equip => 4
  | .treasure => 2

inductive HeroTalentType where
  | ownAttr
  | allAttr
  deriving DecidableEq

/-- A row of `TalentData`. -/
structure TalentRow where
  talentType : HeroTalentType
  attrDict : AttrDict
  extraAttrDict : Option AttrDict := none

/-- A row of `HeroData`. -/
structure HeroRow where
  power : Nat := 0
  talent : Nat → Option Nat := fun _ => none
  fate : List Nat := []
  fragmentId : Nat := 0

/-- A row of `FateData`. -/
structure FateRow where
  fateHero : Option Int := none
  fateItem : Option Nat := none
  /-- `attr_list` and `attr_value_list`. -/
  attrs : List (Attribute × ℚ) := []

/-- The columns of `ItemData` that are read of equipment and of what trains heroes. -/
structure ItemRow where
  quality : Nat := 1
  isTreasure : Bool := false
  partIndex : Option Int := none
  suit : Option Nat := none
  /-- `base_attr_list` and `base_attr_value`. -/
  baseAttr : List (Attribute × ℚ) := []
  /-- `base_attr_list` and `strengthen_attr_value`. -/
  strengthenAttr : List (Attribute × ℚ) := []
  /-- `refine_attr_list` and `refine_attr_value`. -/
  refineAttr : List (Attribute × ℚ) := []
  /-- `refine_level_list` and `refine_spell_list`. -/
  refineSpell : List (Int × Nat) := []
  smeltAttr : Attribute := .att
  /-- `#smelt_attr_value`. -/
  smeltLevels : Int := 0
  smeltAttrValue : Nat → ℚ := fun _ => 0
  smeltExtraAttrValue : Nat → ℚ := fun _ => 0
  addExp : Option Int := none
  costCoin : Int := 0
  fragment : Nat := 0
  synthesizeCount : Int := 0
  maxPlus : Int := 1
  /-- `random_attr_list` and `random_attr_value_list`. -/
  randomAttr : Option (List (Attribute × ℚ)) := none

structure MasterRow where
  equipLv : Int
  /-- `attr_list` and `attr_value_list`. -/
  attrs : List (Attribute × ℚ)

/-- A row of `HeroDestinyData`. -/
structure DestinyRow where
  costNum : Int
  expLimit : Int
  /-- `upgrade_range` and `upgrade_rate`. -/
  upgrade : List (Int × ℚ)

/-- A row of `EquipSmeltData`. -/
structure SmeltRow where
  initRate : ℚ
  luckLimit : Int
  addLuck : Int
  eachExp : ℚ
  exp : Int
  critRate1 : ℚ
  critRate2 : ℚ

/-- A row of `RefineLvData`. -/
structure RefineRow where
  /-- `exp_q`, by quality. -/
  exp : Nat → Option Int := fun _ => none
  coinNum : Int := 0
  itemNum : Option Int := none
  treasureCount : Int := 0
  treasureNum : Int := 0

/-- A row of `LoverSpellData`. -/
structure LoverSpellRow where
  isAll : Bool
  /-- `attr_list` and `attr_ratio`. -/
  attrs : List (Attribute × ℚ)

/-- The rows of `ParamData` that name items and amounts. -/
structure ItemParam where
  heroLevelupCostCoin : Nat := 0
  heroBreakCostCoin : Nat := 0
  heroBreakCostItem : Nat := 0
  heroStarCostCoin : Nat := 0
  heroDestinyCostItem : Nat := 0
  heroRecoverCost : Nat × Int := (0, 0)
  heroRecoverBookItem : List Nat := []
  strengthenEquipCostCoin : Nat := 0
  expTreasureList : List Nat := []
  refineEquipCostCoin : Nat := 0
  refineTreasureCostItem : Nat := 0
  equipRefineItemList : List Nat := []
  equipStarCostCoin : Nat := 0
  equipRecoverCost : Nat × Int := (0, 0)
  heroStarLvLimit : Nat := 0
  heroInitLevelLimit : Nat := 0
  heroLevelLimitChangeInterval : Nat := 1
  heroLevelLimitChangeValue : Nat := 0

/-- The formulas of `GrowData`, as the heroes and the equipment use them. -/
structure GrowData where
  levelGrow : Int → Nat → Nat → AttrDict
  /-- `level_grow` gives the attributes whose formulas add others to them. -/
  named : ∀ heroId level breakLv,
    .maxHp ∈ (levelGrow heroId level breakLv).keys ∧ .att ∈ (levelGrow heroId level breakLv).keys
  levelCost : Int → Nat → Int := fun _ _ => 0
  breakCost : Int → Nat → Int × Int × Int := fun _ _ => (0, 0, 0)
  /-- `star_cost` of a hero. -/
  starCost : Int → Nat → Int × Int := fun _ _ => (0, 0)
  /-- `star_grow` of a hero. -/
  starGrow : Int → Nat → AttrDict := fun _ _ => Table.empty
  destinyGrow : Int → Nat → AttrDict := fun _ _ => Table.empty
  strengthenCost : Nat → Int → Int := fun _ _ => 0
  /-- `star_cost` of equipment. -/
  equipStarCost : Nat → Int → Int × Int := fun _ _ => (0, 0)
  equipStarGrow : Nat → Int → AttrDict := fun _ _ => Table.empty
  smeltCost : Nat → Int → Int × Int × Int := fun _ _ => (0, 0, 0)
  loverStarGrow : Nat → Nat → AttrDict := fun _ _ => Table.empty

/-- `excel_data`. -/
structure Config where
  /-- The types of `ItemData`. -/
  items : Bag.ItemData
  /-- The other columns of `ItemData`. -/
  itemRow : Nat → ItemRow
  /-- `HeroData` has a row. -/
  hasHero : Int → Bool
  heroData : Int → HeroRow
  talentData : Nat → TalentRow
  fateData : Nat → FateRow
  suitData : Nat → List (Nat × AttrDict)
  /-- `part_type` of each row of `EquipPartData`. -/
  equipPartData : List PartType
  /-- `ESmasterData` and `TSmasterData`. -/
  strengthenMaster : PartType → List MasterRow
  /-- `ERmasterData` and `TRmasterData`. -/
  refineMaster : PartType → List MasterRow
  /-- The attributes that a row of `RefineSpellData` of the type `Attr` gives. -/
  refineSpellData : Nat → List (Attribute × ℚ)
  /-- `StrengthenLvData`: `exp_q`, by quality, of each level. -/
  strengthenLvData : List (Nat → Option Int)
  /-- `RefineLvData`; the first row is of level 0. -/
  refineLvData : List RefineRow
  equipSmeltData : List SmeltRow
  /-- `can_smelt` of `QualityData`. -/
  canSmelt : Nat → Bool
  /-- `equip_star_lv_limit` of `QualityData`. -/
  equipStarLvLimit : Nat → Int
  /-- `level_limit` of each level of `HeroBreakLvData`. -/
  heroBreakLvData : List Nat
  heroDestinyData : List DestinyRow
  /-- `unlock_level` of `LineupUnlockData`. -/
  lineupUnlockData : List Nat
  /-- `unlock_level` of `DeinforcementsData`. -/
  reinforcementsUnlockData : List Nat
  /-- `hero_dict` of `LoverData`. -/
  loverHeroes : Nat → Int → Bool
  loverSpellData : Nat → LoverSpellRow
  /-- `base_role_define` of `GrowConstData`. -/
  heroInitAttr : AttrDict
  grow : GrowData
  /-- `ParamData` of attributes. -/
  param : ParamData
  /-- `ParamData` of items. -/
  itemParam : ItemParam
  money : Nat
  diamond : Nat

section
variable (config : Config)

def partType (partIndex : Int) : Option PartType :=
  if partIndex ≤ 0 then none else config.equipPartData[(partIndex - 1).toNat]?

def getHeroLevelCost (heroId : Int) (oldLevel newLevel : Nat) : Option (List (Nat × Int)) :=
  if oldLevel ≥ newLevel then none
  else
    let levels := (List.range (newLevel - oldLevel)).map (oldLevel + 1 + ·)
    some [(config.itemParam.heroLevelupCostCoin,
      (levels.map (config.grow.levelCost heroId)).sum)]

def getHeroBreakCost (heroId : Int) (breakLv : Nat) : List (Nat × Int) :=
  let (coinNum, itemNum, fragmentNum) := config.grow.breakCost heroId breakLv
  [(config.itemParam.heroBreakCostCoin, coinNum), (config.itemParam.heroBreakCostItem, itemNum),
    ((config.heroData heroId).fragmentId, fragmentNum)]

def getHeroStarCost (heroId : Int) (starLv : Nat) : List (Nat × Int) :=
  let (coinNum, fragmentNum) := config.grow.starCost heroId starLv
  [(config.itemParam.heroStarCostCoin, coinNum),
    ((config.heroData heroId).fragmentId, fragmentNum)]

def getHeroLevelLimit (roleLevel : Nat) : Nat :=
  roleLevel / config.itemParam.heroLevelLimitChangeInterval *
      config.itemParam.heroLevelLimitChangeValue + config.itemParam.heroInitLevelLimit

def getHeroFateAttr (fateDict : Table Nat Bool) : AttrDict :=
  fateDict.keys.foldl (fun dict fateId => dict.addList (config.fateData fateId).attrs) Table.empty

def getEquipBaseAttrDict (itemId : Nat) : AttrDict :=
  Table.empty.addList (config.itemRow itemId).baseAttr

def getEquipStrengthenAttr (itemId : Nat) (strengthenLv : Int) : AttrDict :=
  if strengthenLv = 1 then Table.empty
  else
    (config.itemRow itemId).strengthenAttr.foldl (fun dict (attr, each) =>
      let value := each * (strengthenLv - 1)
      dict.set attr (some (if attr.isPct then value else ⌊value⌋))) Table.empty

def getEquipRefineAttr (itemId : Nat) (refineLv : Int) : AttrDict :=
  if refineLv = 0 then Table.empty
  else
    let row := config.itemRow itemId
    let base : AttrDict :=
      row.refineAttr.foldl (fun dict (attr, each) => dict.increase attr (each * refineLv))
        Table.empty
    (row.refineSpell.takeWhile fun spell => spell.1 ≤ refineLv).foldl
      (fun dict spell => dict.addList (config.refineSpellData spell.2)) base

def getEquipStarAttr (itemId : Nat) (starLv : Int) : AttrDict :=
  if (config.itemRow itemId).isTreasure then Table.empty
  else config.grow.equipStarGrow itemId starLv

def getEquipSmeltAttr (itemId : Nat) (smeltLv smeltExp : Int) : AttrDict :=
  let row := config.itemRow itemId
  if smeltLv = 0 ∧ smeltExp = 0 then Table.empty
  else if row.isTreasure then Table.empty
  else
    let full := ((List.range smeltLv.toNat).map fun level =>
      row.smeltAttrValue (level + 1) + row.smeltExtraAttrValue (level + 1)).sum
    let value :=
      if smeltLv < row.smeltLevels then
        match config.equipSmeltData[smeltLv.toNat]? with
        | some smeltData => full + smeltExp / smeltData.exp * row.smeltAttrValue (smeltLv.toNat + 1)
        | none => full
      else full
    Table.empty.set row.smeltAttr (some (⌊value⌋ : ℚ))

def getEquipAllAttr (equip : Bag.Item) : AttrDict :=
  (((getEquipBaseAttrDict config equip.itemId).addAll
      (getEquipStrengthenAttr config equip.itemId equip.strengthenLv)).addAll
      (getEquipRefineAttr config equip.itemId equip.refineLv)).addAll
      (getEquipStarAttr config equip.itemId equip.starLv) |>.addAll
      (getEquipSmeltAttr config equip.itemId equip.smeltLv equip.smeltExp)

def getMasterAttr (rows : List MasterRow) (masterLv : Nat) : AttrDict :=
  if masterLv = 0 then Table.empty
  else
    match rows[masterLv - 1]? with
    | some row => Table.empty.addList row.attrs
    | none => Table.empty

def getStrengthenMasterAttr (partType : PartType) (masterLv : Nat) : AttrDict :=
  getMasterAttr (config.strengthenMaster partType) masterLv

def getRefineMasterAttr (partType : PartType) (masterLv : Nat) : AttrDict :=
  getMasterAttr (config.refineMaster partType) masterLv

def getEquipStarCost (itemId : Nat) (starLv : Int) : List (Nat × Int) :=
  let (coinNum, fragmentNum) := config.grow.equipStarCost itemId starLv
  [(config.itemParam.equipStarCostCoin, coinNum), ((config.itemRow itemId).fragment, fragmentNum)]

def getEquipSmeltCost (itemId : Nat) (smeltLv : Int) : List (Nat × Int) :=
  let (coinNum, diamondNum, fragmentNum) := config.grow.smeltCost itemId smeltLv
  [(config.money, coinNum), (config.diamond, diamondNum),
    ((config.itemRow itemId).fragment, fragmentNum)]

end

/-- A small configuration: a book for heroes, a weapon, and a hero that costs nothing. -/
def sampleConfig : Config where
  items := Bag.itemData
  itemRow id :=
    if id = 201001 then { randomAttr := some [(.fight, 100)], maxPlus := 99 }
    else if id = 401001 then { partIndex := some 1, baseAttr := [(.att, 10)] }
    else {}
  hasHero _ := true
  heroData _ := {}
  talentData _ := { talentType := .ownAttr, attrDict := Table.empty }
  fateData _ := {}
  suitData _ := []
  equipPartData := [.equip]
  strengthenMaster _ := []
  refineMaster _ := []
  refineSpellData _ := []
  strengthenLvData := []
  refineLvData := []
  equipSmeltData := []
  canSmelt _ := false
  equipStarLvLimit _ := 0
  heroBreakLvData := []
  heroDestinyData := []
  lineupUnlockData := [1, 1, 1, 1, 1, 1]
  reinforcementsUnlockData := [1]
  loverHeroes _ _ := false
  loverSpellData _ := { isAll := false, attrs := [] }
  heroInitAttr := Table.empty.set .hit (some 100)
  grow :=
    { levelGrow := fun _ level _ => (Table.empty.set .maxHp (some 100)).set .att (some level)
      named := fun _ _ _ => by
        constructor <;> rw [Table.mem_keys, Table.get_set] <;> simp }
  param :=
    { businessToHpRatio := 1
      managementToHpRatio := 1
      renownToHpRatio := 1
      fightToAttRatio := 1
      attackConstant := 1
      hpConstant := 1
      defenseConstant := 1 }
  itemParam := { heroRecoverCost := (101001, 50) }
  money := 101001
  diamond := 101001

end UEServer.Hero
