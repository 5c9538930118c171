import Mathlib

/-!
# Consuming items

`consume_item_list` and `consume_item_dict` of `meta_table/bag.lua`, with the three kinds of storage:
currencies, stacked items and equipment.  Where a function gives nothing, the source raises.
-/

namespace UEServer.Bag

inductive ItemType where
  | default
  | virtual
  | prop
  | stuff
  | equip
  | hero
  | pet
  | lover
  | title
  deriving DecidableEq

/-- `CSConst.ItemSubType`, as far as it matters here. -/
inductive SubType where
  | currency
  | equipment
  | other
  deriving DecidableEq

/-- A row of `excel_data.ItemData`. -/
structure ItemConfig where
  itemType : ItemType
  subType : SubType
  deriving DecidableEq

structure ItemData where
  config : Nat → Option ItemConfig
  currency : ∀ id row, config id = some row → row.subType = .currency → row.itemType = .virtual
  equipment : ∀ id row, config id = some row → (row.subType = .equipment ↔ row.itemType = .equip)

/-- An item of the bag. The fields from `lineup_id` on are of equipment only. -/
structure Item where
  guid : String
  itemId : Nat
  count : Int
  lineupId : Option Nat := none
  starLv : Int := 0
  refineLv : Int := 0
  refineExp : Int := 0
  strengthenLv : Int := 1
  strengthenExp : Int := 0
  smeltLv : Int := 0
  smeltExp : Int := 0
  deriving DecidableEq

/-- What a role has: `bag_item_list` and `currency`. -/
structure Role where
  /-- `bag_item_list`. -/
  items : List Item
  currency : Nat → Int

structure Required where
  itemId : Nat
  count : Int
  guid : Option String := none

/-- `get_item_id_from_guid`: the digits after the last underscore. -/
def itemIdFromGuid (guid : String) : Option Nat :=
  let digits := guid.toList.reverse.takeWhile Char.isDigit
  match digits, guid.toList.reverse.drop digits.length with
  | _ :: _, '_' :: _ => (String.ofList digits.reverse).toNat?
  | _, _ => none

def getBagItem (role : Role) (guid : String) : Option Item :=
  role.items.find? (·.guid = guid)

/-- `is_can_consume_equip`: the equipment has not been trained. -/
def isCanConsumeEquip (equip : Item) : Bool :=
  ¬ (equip.starLv > 0 ∨ equip.refineLv > 0 ∨ equip.refineExp > 0 ∨ equip.strengthenLv > 1 ∨
    equip.strengthenExp > 0 ∨ equip.smeltLv > 0 ∨ equip.smeltExp > 0)

/-- The equipment is not worn, and not trained unless that does not matter. -/
def isFree (force : Bool) (equip : Item) : Bool :=
  equip.lineupId.isNone && (force || isCanConsumeEquip equip)

/-- The sum of the counts of the items that qualify. -/
def countWhere (qualifies : Item → Bool) (items : List Item) : Int :=
  ((items.filter qualifies).map Item.count).sum

section
variable (data : ItemData) (force : Bool)

def checkConsumeEquipCount (role : Role) (itemId : Nat) (count : Int) (guid : Option String) :
    Option Bool :=
  match guid with
  | some guid =>
      (getBagItem role guid).map fun item => isFree force item && decide (item.count ≥ count)
  | none => some
      (countWhere (fun item => item.itemId = itemId && isFree force item) role.items ≥ count)

def getItemCount (role : Role) (itemId : Nat) (guid : Option String) : Option Int :=
  (data.config itemId).bind fun config =>
    if config.itemType = .virtual then
      if config.subType = .currency then some (role.currency itemId) else none
    else
      match guid with
      | some guid => (getBagItem role guid).map Item.count
      | none => some (countWhere (fun item => item.itemId = itemId) role.items)

def Required.id? (required : Required) : Option Nat :=
  match required.guid with
  | some guid => itemIdFromGuid guid
  | none => some required.itemId

def canConsumeItem (role : Role) (required : Required) : Option Bool :=
  if required.count < 0 then none
  else
    required.id?.bind fun itemId =>
      (data.config itemId).bind fun config =>
        match config.subType with
        | .currency => some (role.currency itemId ≥ required.count)
        | .equipment => checkConsumeEquipCount force role itemId required.count required.guid
        | .other =>
            (getItemCount data role itemId required.guid).map fun held =>
              decide (held ≥ required.count)

/-- The loop of `_consume_item_prop`, over the items from the last to the first. -/
def consumeStacks (itemId : Nat) : Int → List Item → List Item
  | _, [] => []
  | count, item :: items =>
      if count ≤ 0 then item :: items
      else if item.itemId = itemId then
        if item.count > count then { item with count := item.count - count } :: items
        else consumeStacks itemId (count - item.count) items
      else item :: consumeStacks itemId count items

/-- `_subcount_bag_item` for the first item with a guid. -/
def subcountBagItem (guid : String) (subCount : Int) : List Item → List Item
  | [] => []
  | item :: items =>
      if item.guid = guid then { item with count := item.count - subCount } :: items
      else item :: subcountBagItem guid subCount items

def consumeItemProp (role : Role) (itemId : Nat) (count : Int) (guid : Option String) :
    Option Role :=
  match guid with
  | some guid =>
      (getBagItem role guid).map fun item =>
        if item.count = count then { role with items := role.items.eraseP (·.guid = guid) }
        else if count ≤ 0 ∨ count > item.count then role
        else { role with items := subcountBagItem guid count role.items }
  | none => some
      { role with items := (consumeStacks itemId count role.items.reverse).reverse }

def subCurrency (role : Role) (itemId : Nat) (value : Int) : Role :=
  if value < 0 ∨ value > role.currency itemId then role
  else
    { role with
      currency := fun id => if id = itemId then role.currency itemId - value else role.currency id }

/-- The loop of `_consume_item_equip`, over the items from the last to the first. -/
def consumeEquips (itemId : Nat) : Int → List Item → List Item
  | _, [] => []
  | count, item :: items =>
      if count ≤ 0 then item :: items
      else if item.itemId = itemId ∧ isFree force item then
        consumeEquips itemId (count - item.count) items
      else item :: consumeEquips itemId count items

def consumeItemEquip (role : Role) (itemId : Nat) (count : Int) (guid : Option String) : Role :=
  match guid with
  | some guid => { role with items := role.items.eraseP (·.guid = guid) }
  | none => { role with items := (consumeEquips force itemId count role.items.reverse).reverse }

/-- The `consume` function of `Item_Mapper` for an item. -/
def itemMapperConsume (role : Role) (config : ItemConfig) (itemId : Nat) (count : Int)
    (guid : Option String) : Option Role :=
  match config.itemType with
  | .virtual =>
      if config.subType = .currency then some (subCurrency role itemId count) else none
  | .equip => some (consumeItemEquip force role itemId count guid)
  | .pet | .title => none
  | .default | .prop | .stuff | .hero | .lover => consumeItemProp role itemId count guid

/-- `consume_item`: it does nothing where `can_consume_item` refuses. -/
def consumeItem (role : Role) (required : Required) : Option Role :=
  (canConsumeItem data force role required).bind fun can =>
    if can then
      required.id?.bind fun itemId =>
        (data.config itemId).bind fun config =>
          itemMapperConsume force role config itemId required.count required.guid
    else some role

/-- The first loop: every item can be consumed. -/
def canConsumeAll (role : Role) : List Required → Option Bool
  | [] => some true
  | required :: rest =>
      (canConsumeItem data force role required).bind fun can =>
        if can then canConsumeAll role rest else some false

def consumeAll (role : Role) : List Required → Option Role
  | [] => some role
  | required :: rest =>
      (consumeItem data force role required).bind fun role => consumeAll role rest

/-- `consume_item_list`: whether it returned true, and the role after it. -/
def consumeItemList (role : Role) (itemList : List Required) : Option (Bool × Role) :=
  (canConsumeAll data force role itemList).bind fun can =>
    if can then (consumeAll data force role itemList).map fun role => (true, role)
    else some (false, role)

def consumeItemDict (role : Role) (itemDict : List (Nat × Int)) : Option (Bool × Role) :=
  consumeItemList data force role (itemDict.map fun (itemId, count) => { itemId, count })

end

end UEServer.Bag
