import UEServer.Hero.Equip
import UEServer.Hero.Shift

/-!
# Equipment in the bag and in the slots

The part of a role that equipment lives in: the items of the bag, the fields of equipment kept
beside them, and of each slot the pieces it wears and their copies.  Attributes, masters and fates
do not touch it, so each operation on equipment comes down to one of three changes: a piece is taken
off, put on, or trained.
-/

namespace UEServer.Hero

structure Gear where
  equipDict : Table Int String
  equipInfoDict : Table String EquipCopy

/-- The part of a role that equipment lives in. -/
structure Outfit where
  gear : Int → Option Gear
  bag : Bag.Role
  extra : String → Extra

def slotOf (item : Bag.Item) : Option Int :=
  item.lineupId.map Nat.cast

def LineupInfo.gear (lineupInfo : LineupInfo) : Gear :=
  ⟨lineupInfo.equipDict, lineupInfo.equipInfoDict⟩

def Role.outfit (role : Role) : Outfit where
  gear lineupId := (role.lineupDict.get lineupId).map LineupInfo.gear
  bag := role.bag
  extra := role.extra

namespace Outfit

def copyOf (outfit : Outfit) (guid : String) : Option EquipCopy :=
  (Bag.getBagItem outfit.bag guid).map fun item => ⟨item, outfit.extra guid⟩

def setGear (outfit : Outfit) (lineupId : Int) (gear : Gear) : Outfit :=
  { outfit with gear := Function.update outfit.gear lineupId (some gear) }

@[simp]
theorem setGear_gear_self (outfit : Outfit) (lineupId : Int) (gear : Gear) :
    (outfit.setGear lineupId gear).gear lineupId = some gear :=
  Function.update_self ..

theorem setGear_gear_of_ne (outfit : Outfit) {lineupId other : Int} (gear : Gear)
    (different : other ≠ lineupId) :
    (outfit.setGear lineupId gear).gear other = outfit.gear other :=
  Function.update_of_ne different _ _

def modifyItem (outfit : Outfit) (guid : String) (f : Bag.Item → Bag.Item) : Outfit :=
  { outfit with bag := Hero.modifyItem outfit.bag guid f }

def copyItem (outfit : Outfit) (lineupId : Int) (guid : String) : Outfit :=
  match outfit.gear lineupId with
  | none => outfit
  | some gear =>
      outfit.setGear lineupId
        { gear with equipInfoDict := gear.equipInfoDict.set guid (outfit.copyOf guid) }

/-- A slot and a piece no longer belong together. -/
def part (outfit : Outfit) (lineupId : Int) (gear : Gear) (partIndex : Int) (guid : String) :
    Outfit :=
  (outfit.setGear lineupId
    ⟨gear.equipDict.set partIndex none, gear.equipInfoDict.set guid none⟩).modifyItem guid
      fun item => { item with lineupId := none }

def takeOff (outfit : Outfit) (lineupId partIndex : Int) : Outfit :=
  match outfit.gear lineupId with
  | none => outfit
  | some gear =>
      match gear.equipDict.get partIndex with
      | none => outfit
      | some guid => outfit.part lineupId gear partIndex guid

/-- A piece is no longer worn, whatever its slot says. -/
def release (outfit : Outfit) : Option String → Outfit
  | none => outfit
  | some guid => outfit.modifyItem guid fun item => { item with lineupId := none }

/-- Put a piece on; what the part wears is released. -/
def putOn (outfit : Outfit) (lineupId partIndex : Int) (guid : String) : Outfit :=
  match outfit.gear lineupId with
  | none => outfit
  | some gear =>
      (((outfit.release (gear.equipDict.get partIndex)).modifyItem guid fun item =>
        { item with lineupId := some lineupId.toNat }).setGear lineupId
          { gear with equipDict := gear.equipDict.set partIndex (some guid) }).copyItem lineupId guid

/-- Train a piece that is worn in a slot, or in none. -/
def train (outfit : Outfit) (guid : String) (lineupId : Option Int) (f : Bag.Item → Bag.Item)
    (extra : Extra) : Outfit :=
  let outfit := { outfit.modifyItem guid f with extra := Function.update outfit.extra guid extra }
  match lineupId with
  | none => outfit
  | some lineupId => outfit.copyItem lineupId guid

end Outfit

section
variable {config : Config} (role : Role)

theorem outfit_setSlot (lineupId : Int) (lineupInfo : LineupInfo) :
    (setSlot role lineupId lineupInfo).outfit = role.outfit.setGear lineupId lineupInfo.gear := by
  have gear : (setSlot role lineupId lineupInfo).outfit.gear =
      (role.outfit.setGear lineupId lineupInfo.gear).gear := by
    funext other
    change ((role.lineupDict.set lineupId (some lineupInfo)).get other).map LineupInfo.gear =
      Function.update role.outfit.gear lineupId (some lineupInfo.gear) other
    rw [Table.get_set, Function.update_apply]
    split
    · rfl
    · rfl
  unfold Role.outfit Outfit.setGear at gear ⊢
  simp only [Outfit.mk.injEq]
  exact ⟨gear, rfl, rfl⟩

theorem outfit_setSlot_of_gear_eq {lineupId : Int} {lineupInfo other : LineupInfo}
    (found : role.lineupDict.get lineupId = some lineupInfo) (same : other.gear = lineupInfo.gear) :
    (setSlot role lineupId other).outfit = role.outfit := by
  have gear : role.outfit.gear lineupId = some lineupInfo.gear := by
    change (role.lineupDict.get lineupId).map LineupInfo.gear = _
    rw [found]
    rfl
  rw [outfit_setSlot, same, Outfit.setGear, ← gear, Function.update_eq_self]

@[simp]
theorem outfit_modifyHeroAttr (heroId : Option Int) (oldAttr newAttr : Option AttrDict) :
    (modifyHeroAttr config role heroId oldAttr newAttr).outfit = role.outfit := by
  rw [(modifyHeroAttr_shifts role heroId oldAttr newAttr).stored]
  rfl

@[simp]
theorem outfit_refreshFate (heroId : Option Int) :
    (refreshFate config role heroId).outfit = role.outfit := by
  rw [(refreshFate_refreshed role heroId).stored]
  rfl

@[simp]
theorem outfit_checkMasterLv (master : Master) (lineupId : Int) (type : PartType) :
    (checkMasterLv config master role lineupId type).outfit = role.outfit := by
  unfold checkMasterLv
  cases found : role.lineupDict.get lineupId with
  | none => rfl
  | some lineupInfo =>
      dsimp only
      split
      · rfl
      · have kept := @modifyHeroAttr_shifts config role lineupInfo.heroId
          (some (getMasterAttr (master.rows config type) (master.lv lineupInfo type)))
          (some (getMasterAttr (master.rows config type)
            (reachedMasterLv config role master lineupInfo.equipDict type)))
        rw [@outfit_setSlot_of_gear_eq _ _ lineupInfo, outfit_modifyHeroAttr]
        · rw [kept.stored]
          exact found
        · cases master with
          | strengthen => rfl
          | refine => rfl

variable (lineupId partIndex : Int)

@[simp]
theorem outfit_checkSlot (heroId : Option Int) :
    (checkSlot config role lineupId partIndex heroId).outfit = role.outfit := by
  unfold checkSlot
  cases partType config partIndex with
  | none => rfl
  | some type => simp [checkStrengthenMasterLv, checkRefineMasterLv]

@[simp]
theorem outfit_checkWorn (master : Master) (equip : Bag.Item) (type : PartType) :
    (checkWorn config master role equip type).outfit = role.outfit := by
  unfold checkWorn
  cases equip.lineupId with
  | none => rfl
  | some lineupId => exact outfit_checkMasterLv role master lineupId type

theorem outfit_copyItem (lineupId : Int) (guid : String) :
    (copyItem role lineupId guid).outfit = role.outfit.copyItem lineupId guid := by
  have gear : role.outfit.gear lineupId = (role.lineupDict.get lineupId).map LineupInfo.gear := rfl
  unfold copyItem Outfit.copyItem
  rw [gear]
  cases role.lineupDict.get lineupId with
  | none => rfl
  | some lineupInfo => exact outfit_setSlot role lineupId _

theorem outfit_lineupUnwearEquip :
    (lineupUnwearEquip config role lineupId partIndex).outfit =
      role.outfit.takeOff lineupId partIndex := by
  have gear : role.outfit.gear lineupId = (role.lineupDict.get lineupId).map LineupInfo.gear := rfl
  unfold lineupUnwearEquip Outfit.takeOff
  rw [gear]
  cases role.lineupDict.get lineupId with
  | none => rfl
  | some lineupInfo =>
      cases worn : lineupInfo.equipDict.get partIndex with
      | none => simp [LineupInfo.gear, worn]
      | some guid =>
          simp only [Option.map_some, LineupInfo.gear, worn, outfit_checkSlot,
            outfit_modifyHeroAttr]
          have parted := outfit_setSlot role lineupId
            { lineupInfo with
              equipDict := lineupInfo.equipDict.set partIndex none
              equipInfoDict := lineupInfo.equipInfoDict.set guid none }
          exact congrArg (fun outfit => outfit.modifyItem guid fun item =>
            { item with lineupId := none }) parted

theorem outfit_putOn (guid : String) :
    (putOn config role lineupId partIndex guid).outfit =
      role.outfit.putOn lineupId partIndex guid := by
  have gear : role.outfit.gear lineupId = (role.lineupDict.get lineupId).map LineupInfo.gear := rfl
  unfold putOn Outfit.putOn
  rw [gear]
  cases role.lineupDict.get lineupId with
  | none => rfl
  | some lineupInfo =>
      simp only [Option.map_some, outfit_checkSlot, outfit_modifyHeroAttr, outfit_copyItem,
        outfit_setSlot]
      cases worn : lineupInfo.equipDict.get partIndex with
      | none => simp only [LineupInfo.gear, worn]; rfl
      | some old => simp only [LineupInfo.gear, worn]; rfl

theorem outfit_trainEquip (equip : Bag.Item) (train : Bag.Item → Bag.Item) (extra : Extra)
    (oldAttr newAttr : AttrDict) :
    (trainEquip config role equip train extra oldAttr newAttr).outfit =
      role.outfit.train equip.guid (slotOf equip) train extra := by
  unfold trainEquip Outfit.train slotOf
  cases equip.lineupId with
  | none => rfl
  | some lineupId =>
      dsimp only [Option.map_some]
      cases found : role.lineupDict.get lineupId with
      | none =>
          have gear : role.outfit.gear lineupId = none := by
            change (role.lineupDict.get lineupId).map LineupInfo.gear = none
            rw [found]
            rfl
          unfold Outfit.copyItem
          dsimp only [Outfit.modifyItem]
          rw [gear]
          rfl
      | some lineupInfo =>
          rw [outfit_modifyHeroAttr, outfit_copyItem]
          rfl

end

end UEServer.Hero
