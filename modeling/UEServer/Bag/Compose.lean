import UEServer.Bag.Stacking

/-!
# Composing

`treasure_compose` of `meta_table/treasure.lua` and `item_compose` of `meta_table/bag.lua`.  The
fragments of a treasure are kept in a table of their own, and the table is written before the treasure is
added; the fragments of other items are consumed as items.
-/

namespace UEServer.Bag

/-- What a hero or a lover comes as: its id, its fragment, and how many of these it is worth. -/
structure UnitData where
  /-- `hero_id` or `lover_id`. -/
  unitId : Nat
  fragment : Nat
  fragmentCount : Int

/-- `excel_data.ItemData` with what composing needs. -/
structure ItemTable extends StackData where
  composeItem : Nat → Option Nat
  synthesizeCount : Nat → Int
  fragmentList : Nat → List Nat
  isTreasure : Nat → Bool
  /-- `equipment` of the items of the sub type `EquipmentFragment`. -/
  fragmentOf : Nat → Option Nat
  /-- The fields of the items of the sub types `Hero` and `Lover`. -/
  unit : Nat → Option UnitData
  /-- `change_sex` of `LoverData`. -/
  changeSex : Nat → Option Nat
  /-- `grab_init_blue_treasure_list`. -/
  initTreasure : Nat → Bool

/-- The item can be composed: it is equipment, or a hero or lover with fragments. -/
def ItemTable.IsProduct (table : ItemTable) (itemId : Nat) : Prop :=
  table.fragmentOf itemId = none ∧ ∃ config, table.config itemId = some config ∧
    (config.itemType = .equip ∧ table.unit itemId = none ∨
      (config.itemType = .hero ∨ config.itemType = .lover) ∧ ∃ unit, table.unit itemId = some unit ∧
        table.Stackable unit.fragment ∧ 0 < unit.fragmentCount)

structure ComposeData extends ItemTable where
  /-- What is composed can be added, and what it is composed of is kept in stacks. -/
  composed : ∀ itemId product, composeItem itemId = some product →
    toItemTable.IsProduct product ∧ toStackData.Stackable itemId ∧ 0 < synthesizeCount itemId
  /-- Treasures are equipment, and they have different fragments. -/
  treasure : ∀ itemId, isTreasure itemId = true → fragmentOf itemId = none ∧
    unit itemId = none ∧ fragmentList itemId ≠ [] ∧ (fragmentList itemId).Nodup ∧
      ∃ config, config.itemType = .equip ∧ toItemData.config itemId = some config

structure ComposeRole extends Role where
  treasureDict : Nat → Option (Nat → Option Int)
  /-- The heroes in `hero_dict`. -/
  heroes : Nat → Bool
  /-- The lovers in `lover_dict`. -/
  lovers : Nat → Bool

inductive Reply where
  | done
  | refused
  | raised
  deriving DecidableEq

section
variable (data : ComposeData)

/-- `add_treasure_fragment`; nothing if the item is no fragment of a treasure. -/
def addTreasureFragment (role : ComposeRole) (itemId : Nat) (count : Int) : Option ComposeRole :=
  (data.fragmentOf itemId).bind fun treasureId =>
    if data.isTreasure treasureId then
      let fragments := (role.treasureDict treasureId).getD fun _ => none
      let added := Function.update fragments itemId (some ((fragments itemId).getD 0 + count))
      some { role with treasureDict := Function.update role.treasureDict treasureId (some added) }
    else none

def addHero (role : ComposeRole) (heroId : Nat) : ComposeRole :=
  { role with heroes := Function.update role.heroes heroId true }

/-- `add_lover`: nothing happens if the lover is there in the other sex. -/
def addLover (role : ComposeRole) (loverId : Nat) : ComposeRole :=
  if role.lovers loverId then role
  else if (data.changeSex loverId).any role.lovers then role
  else { role with lovers := Function.update role.lovers loverId true }

/-- `_add_item_prop` for a role; nothing if it raises. -/
def addProp (role : ComposeRole) (itemId : Nat) (count : Int) (names : ℕ → String) :
    Option ComposeRole :=
  (addItemProp data.toStackData role.toRole itemId count names).map fun added =>
    { role with toRole := added }

/-- The common part of `_add_item_hero` and `_add_item_lover`: the first one that the role does not have
is added, and the others become fragments. -/
def addUnit (has : Bool) (add : ComposeRole → ComposeRole) (role : ComposeRole) (unit : UnitData)
    (count : Int) (names : ℕ → String) : Option ComposeRole :=
  if has then addProp data role unit.fragment (count * unit.fragmentCount) names
  else
    let role := add role
    if 0 < count - 1 then
      addProp data role unit.fragment ((count - 1) * unit.fragmentCount) names
    else some role

def addItemEquip (role : ComposeRole) (itemId : Nat) (count : Int) (names : ℕ → String) :
    ComposeRole :=
  { role with
    items := role.items ++ (List.range count.toNat).map fun i => buildNewItem itemId (names i) }

/-- The `add` function of `Item_Mapper` for an item; nothing if it raises. -/
def itemMapperAdd (role : ComposeRole) (config : ItemConfig) (itemId : Nat) (count : Int)
    (names : ℕ → String) : Option ComposeRole :=
  match config.itemType with
  | .virtual =>
      some { role with
        currency := fun id =>
          if id = itemId ∧ config.subType = .currency then role.currency id + count
          else role.currency id }
  | .equip => some (addItemEquip role itemId count names)
  | .hero =>
      match data.unit itemId with
      | some unit =>
          addUnit data (role.heroes unit.unitId) (fun role => addHero role unit.unitId) role unit count
            names
      | none => addProp data role itemId count names
  | .lover =>
      match data.unit itemId with
      | some unit =>
          addUnit data (role.lovers unit.unitId) (fun role => addLover data role unit.unitId) role unit
            count names
      | none => some role
  | .title => some role
  | .pet => none
  | .default | .prop | .stuff => addProp data role itemId count names

/-- `add_new_item`; nothing if it raises. -/
def addNewItem (role : ComposeRole) (itemId : Nat) (count : Int) (names : ℕ → String) :
    Option ComposeRole :=
  if count = 0 then some role
  else if count ≤ 0 then none
  else
    (data.config itemId).bind fun config =>
      match addTreasureFragment data role itemId count with
      | some added => some added
      | none => itemMapperAdd data role config itemId count names

/-- The loop of `treasure_compose` over the fragments: the table that is left; nothing if there are not
enough. -/
def composeLoop (fragments : Nat → Option Int) (count : Int) :
    List Nat → (Nat → Option Int) → Option (Nat → Option Int)
  | [], temp => some temp
  | fragmentId :: rest, temp =>
      match fragments fragmentId with
      | none => none
      | some held =>
          if held < count then none
          else
            composeLoop fragments count rest
              (Function.update temp fragmentId (if held - count = 0 then none else some (held - count)))

def treasureCompose (role : ComposeRole) (treasureId : Nat) (count : Int) (names : ℕ → String) :
    Reply × ComposeRole :=
  match role.treasureDict treasureId with
  | none => (.refused, role)
  | some fragments =>
      match composeLoop fragments count (data.fragmentList treasureId) fun _ => none with
      | none => (.refused, role)
      | some temp =>
          let isEmpty := (data.fragmentList treasureId).all fun fragmentId => (temp fragmentId).isNone
          let left := if isEmpty && !data.initTreasure treasureId then none else some temp
          let written := { role with
            treasureDict := Function.update role.treasureDict treasureId left }
          match addNewItem data written treasureId count names with
          | none => (.raised, written)
          | some added => (.done, added)

def itemCompose (role : ComposeRole) (itemId : Nat) (count : Int) (names : ℕ → String) :
    Reply × ComposeRole :=
  match data.composeItem itemId with
  | none => (.refused, role)
  | some product =>
      let required : Required := { itemId, count := data.synthesizeCount itemId * count }
      match canConsumeItem data.toItemData false role.toRole required with
      | none => (.raised, role)
      | some false => (.refused, role)
      | some true =>
          match consumeItem data.toItemData false role.toRole required with
          | none => (.raised, role)
          | some taken =>
              match addNewItem data { role with toRole := taken } product count names with
              | none => (.raised, { role with toRole := taken })
              | some added => (.done, added)

end

inductive ComposeRequest where
  | treasure (treasureId : Nat) (count : Int)
  | item (itemId : Nat) (count : Int)

def compose (data : ComposeData) (role : ComposeRole) (names : ℕ → String) :
    ComposeRequest → Reply × ComposeRole
  | .treasure treasureId count => treasureCompose data role treasureId count names
  | .item itemId count => itemCompose data role itemId count names

/-- How many of some pieces of a hero or lover are not worth fragments. -/
def firstOnes (has : Bool) (count : Int) : Int :=
  if has ∨ count ≤ 0 then 0 else 1

/-- The role has the hero or the lover already. -/
def ComposeRole.hasUnit (data : ComposeData) (role : ComposeRole) (itemId : Nat) (unit : UnitData) :
    Bool :=
  if (data.config itemId).map ItemConfig.itemType = some .hero then role.heroes unit.unitId
  else role.lovers unit.unitId

/-- How much of an item there is more when pieces of a product are added. -/
def gain (data : ComposeData) (role : ComposeRole) (product : Nat) (count : Int) (id : Nat) : Int :=
  match data.unit product with
  | none => if id = product then count else 0
  | some unit =>
      if id = unit.fragment then
        (count - firstOnes (role.hasUnit data product unit) count) * unit.fragmentCount
      else 0

/-- The product is a hero, or a lover, with this id. -/
def ComposeData.brings (data : ComposeData) (kind : ItemType) (product id : Nat) : Bool :=
  (data.config product).map ItemConfig.itemType = some kind ∧
    (data.unit product).map UnitData.unitId = some id

/-- How many fragments of a treasure there are. -/
def ComposeRole.held (role : ComposeRole) (treasureId fragmentId : Nat) : Int :=
  ((role.treasureDict treasureId).bind fun fragments => fragments fragmentId).getD 0

/-- Pieces of a product have been added, and fragments have been removed, some in the bag and some in
the table, and nothing else has changed. -/
structure Composed (data : ComposeData) (role after : ComposeRole) (product : Nat) (count : Int)
    (fromBag : Nat → Int) (fromTable : Nat → Nat → Int) : Prop where
  stacked : ∀ id, stacked after.items id =
    stacked role.items id - fromBag id + gain data role product count id
  held : ∀ treasureId fragmentId, after.held treasureId fragmentId =
    role.held treasureId fragmentId - fromTable treasureId fragmentId
  heroes : ∀ id, after.heroes id = (role.heroes id || decide (0 < count) && data.brings .hero product id)
  lovers : ∀ id, after.lovers id =
    (role.lovers id || decide (0 < count) && data.brings .lover product id)
  currency : after.currency = role.currency

/-- What a request is to add and to remove. -/
def ComposeRequest.Succeeds (data : ComposeData) (role after : ComposeRole) : ComposeRequest → Prop
  | .treasure treasureId count => Composed data role after treasureId count (fun _ => 0)
      fun otherId fragmentId =>
        if otherId = treasureId ∧ fragmentId ∈ data.fragmentList treasureId then count else 0
  | .item itemId count => ∃ product, data.composeItem itemId = some product ∧
      Composed data role after product count
        (fun id => if id = itemId then count * data.synthesizeCount itemId else 0) fun _ _ => 0

/-- The request succeeds, or it leaves everything as it was. -/
def Atomic (data : ComposeData) (role : ComposeRole) (names : ℕ → String)
    (request : ComposeRequest) : Prop :=
  match compose data role names request with
  | (.done, after) => request.Succeeds data role after
  | (_, after) => after = role

/-- A role as the game builds it: its stacks are in bounds, and its table has fragments of
treasures. -/
structure ComposeRole.Sound (data : ComposeData) (role : ComposeRole) : Prop where
  inBounds : InBounds data.toStackData role.items
  treasures : ∀ treasureId fragments, role.treasureDict treasureId = some fragments →
    data.isTreasure treasureId = true ∧
      ∀ fragmentId, fragments fragmentId ≠ none → fragmentId ∈ data.fragmentList treasureId

/-- The condition on a request. -/
def ComposeRequest.Permitted (data : ComposeData) (role : ComposeRole) : ComposeRequest → Prop
  | .treasure treasureId count => ¬ (count < 0 ∧ ∃ fragments,
      role.treasureDict treasureId = some fragments ∧
        ∀ fragmentId ∈ data.fragmentList treasureId, ∃ held,
          fragments fragmentId = some held ∧ count ≤ held)
  | .item itemId count => ¬ (0 < count ∧ ∃ product unit,
      data.composeItem itemId = some product ∧ data.unit product = some unit ∧
        (data.config product).map ItemConfig.itemType = some .lover ∧
          role.lovers unit.unitId = false ∧ (data.changeSex unit.unitId).any role.lovers = true ∧
            data.synthesizeCount itemId * count ≤ stacked role.items itemId)

section
variable {data : ComposeData} {role after : ComposeRole} {product : Nat} {count : Int}
  {names : ℕ → String}

/-- Pieces of a product have been added, and nothing else has changed. -/
structure Gains (data : ComposeData) (role after : ComposeRole) (product : Nat) (count : Int) :
    Prop where
  stacked : ∀ id, stacked after.items id = stacked role.items id + gain data role product count id
  treasureDict : after.treasureDict = role.treasureDict
  heroes : ∀ id, after.heroes id = (role.heroes id || decide (0 < count) && data.brings .hero product id)
  lovers : ∀ id, after.lovers id =
    (role.lovers id || decide (0 < count) && data.brings .lover product id)
  currency : after.currency = role.currency

/-- The items that `_add_item_prop` has added. -/
structure Props (role after : ComposeRole) (itemId : Nat) (count : Int) : Prop where
  changed : Changed role.toRole after.toRole itemId count
  rest : after = { role with items := after.items }

section
variable (inBounds : InBounds data.toStackData role.items)
include inBounds

theorem addProp_props {itemId : Nat} (stackable : data.Stackable itemId) (positive : 0 < count)
    (names : ℕ → String) :
    ∃ after, addProp data role itemId count names = some after ∧ Props role after itemId count := by
  obtain ⟨added, called⟩ := @addItemProp_isSome _ _ _ role.toRole stackable positive names
  refine ⟨{ role with toRole := added }, ?_, (addItemProp_spec inBounds called).1, ?_⟩
  · rw [addProp, called, Option.map_some]
  · have currency := addItemProp_currency called
    obtain ⟨items, money⟩ := added
    obtain rfl : money = role.currency := currency
    rfl

theorem addUnit_props {unit : UnitData} (stackable : data.Stackable unit.fragment)
    (worth : 0 < unit.fragmentCount) (positive : 0 < count) (has : Bool)
    (add : ComposeRole → ComposeRole) (same_bag : (add role).toRole = role.toRole)
    (names : ℕ → String) :
    ∃ after, addUnit data has add role unit count names = some after ∧
      Props (if has then role else add role) after unit.fragment
        ((count - firstOnes has count) * unit.fragmentCount) := by
  rw [addUnit]
  cases has with
  | true =>
      have ones : firstOnes true count = 0 := rfl
      rw [ones, Int.sub_zero]
      exact addProp_props inBounds stackable (Int.mul_pos positive worth) names
  | false =>
      have ones : firstOnes false count = 1 := by
        rw [firstOnes, if_neg]
        simp only [Bool.false_eq_true, false_or]
        omega
      rw [ones]
      simp only [Bool.false_eq_true, if_false]
      split
      · rename_i more
        have bounds : InBounds data.toStackData (add role).items := by rwa [same_bag]
        exact addProp_props bounds stackable (Int.mul_pos more worth) names
      · obtain rfl : count = 1 := by omega
        exact ⟨_, rfl, fun id => by simp, rfl⟩

/-- The lover is there in the other sex only. -/
def Blocked (data : ComposeData) (role : ComposeRole) (product : Nat) : Prop :=
  ∃ unit, data.unit product = some unit ∧
    (data.config product).map ItemConfig.itemType = some .lover ∧
      role.lovers unit.unitId = false ∧ (data.changeSex unit.unitId).any role.lovers = true

omit inBounds in
theorem addNewItem_eq (noFragment : data.fragmentOf product = none) (positive : 0 < count)
    {config : ItemConfig} (found : data.config product = some config) :
    addNewItem data role product count names = itemMapperAdd data role config product count names := by
  rw [addNewItem, if_neg positive.ne', if_neg (not_le.mpr positive), found, Option.bind_some,
    addTreasureFragment, noFragment, Option.bind_none]

omit inBounds in
theorem addItemEquip_gains (known : (data.config product).isSome) (single : data.unit product = none) (nonneg : 0 ≤ count) :
    Gains data role (addItemEquip role product count names) product count := by
  refine ⟨fun id => ?_, rfl, fun id => ?_, fun id => ?_, rfl⟩
  · obtain ⟨total, -⟩ := @singles_spec data.toStackData _ known names count.toNat
    rw [addItemEquip, stacked_append, total, gain, single, Int.toNat_of_nonneg nonneg]
  · simp [addItemEquip, ComposeData.brings, single]
  · simp [addItemEquip, ComposeData.brings, single]

omit inBounds in
theorem gain_unit {unit : UnitData} (isUnit : data.unit product = some unit) (id : Nat) :
    gain data role product count id = if id = unit.fragment then
      (count - firstOnes (role.hasUnit data product unit) count) * unit.fragmentCount else 0 := by
  rw [gain, isUnit]

section
variable {config : ItemConfig} (found : data.config product = some config)
include found

omit inBounds in
theorem brings_unit {unit : UnitData} (isUnit : data.unit product = some unit) (kind : ItemType)
    (id : Nat) :
    data.brings kind product id = (decide (config.itemType = kind) && decide (unit.unitId = id)) := by
  rw [ComposeData.brings, found, isUnit]
  simp

theorem hero_gains {unit : UnitData} (kind : config.itemType = .hero)
    (isUnit : data.unit product = some unit) (stackable : data.Stackable unit.fragment)
    (worth : 0 < unit.fragmentCount) (positive : 0 < count) (names : ℕ → String) :
    ∃ after, itemMapperAdd data role config product count names = some after ∧
      Gains data role after product count := by
  have has : role.hasUnit data product unit = role.heroes unit.unitId := by
    rw [ComposeRole.hasUnit, found, Option.map_some, kind, if_pos rfl]
  obtain ⟨after, added, props⟩ := addUnit_props inBounds stackable worth positive
    (role.heroes unit.unitId) (fun role => addHero role unit.unitId) rfl names
  rw [itemMapperAdd, kind, isUnit]
  refine ⟨after, added, ?_⟩
  have rest := props.rest
  have changed := props.changed
  cases held : role.heroes unit.unitId with
  | true =>
      rw [held, if_pos rfl] at rest changed
      rw [rest]
      refine ⟨fun id => ?_, rfl, fun id => ?_, fun id => ?_, rfl⟩
      · rw [gain_unit isUnit, has, held]
        exact changed id
      · rw [brings_unit found isUnit]
        by_cases same : unit.unitId = id
        · rw [← same, held]
          rfl
        · simp [same]
      · rw [brings_unit found isUnit, kind]
        simp
  | false =>
      rw [held, if_neg nofun] at rest changed
      rw [rest]
      refine ⟨fun id => ?_, rfl, fun id => ?_, fun id => ?_, rfl⟩
      · rw [gain_unit isUnit, has, held]
        exact changed id
      · rw [brings_unit found isUnit, kind]
        by_cases same : unit.unitId = id
        · subst same
          simp [addHero, positive]
        · simp [addHero, same, Ne.symm same]
      · rw [brings_unit found isUnit, kind]
        simp [addHero]

/-- The pieces of a lover, who comes unless it is there in the other sex. -/
theorem lover_gains {unit : UnitData} (kind : config.itemType = .lover)
    (isUnit : data.unit product = some unit) (stackable : data.Stackable unit.fragment)
    (worth : 0 < unit.fragmentCount) (positive : 0 < count) (names : ℕ → String) :
    ∃ after, itemMapperAdd data role config product count names = some after ∧
      after.treasureDict = role.treasureDict ∧ (Gains data role after product count ↔
        ¬ (role.lovers unit.unitId = false ∧
          (data.changeSex unit.unitId).any role.lovers = true)) := by
  have has : role.hasUnit data product unit = role.lovers unit.unitId := by
    rw [ComposeRole.hasUnit, found, Option.map_some, kind, if_neg nofun]
  have same_bag : (addLover data role unit.unitId).toRole = role.toRole ∧
      (addLover data role unit.unitId).treasureDict = role.treasureDict := by
    rw [addLover]
    split
    · exact ⟨rfl, rfl⟩
    · split <;> exact ⟨rfl, rfl⟩
  obtain ⟨after, added, props⟩ := addUnit_props inBounds stackable worth positive
    (role.lovers unit.unitId) (fun role => addLover data role unit.unitId) same_bag.1 names
  rw [itemMapperAdd, kind, isUnit]
  have rest := props.rest
  have table : after.treasureDict = role.treasureDict := by
    rw [rest]
    split
    · rfl
    · exact same_bag.2
  refine ⟨after, added, table, ?_⟩
  have changed := props.changed
  cases held : role.lovers unit.unitId with
  | true =>
      rw [held, if_pos rfl] at rest changed
      rw [rest]
      refine iff_of_true ⟨fun id => ?_, rfl, fun id => ?_, fun id => ?_, rfl⟩ fun blocked =>
        absurd blocked.1 nofun
      · rw [gain_unit isUnit, has, held]
        exact changed id
      · rw [brings_unit found isUnit, kind]
        simp
      · rw [brings_unit found isUnit]
        by_cases same : unit.unitId = id
        · rw [← same, held]
          rfl
        · simp [same]
  | false =>
      rw [held, if_neg nofun] at rest changed
      by_cases other : (data.changeSex unit.unitId).any role.lovers = true
      · have nothing : addLover data role unit.unitId = role := by
          rw [addLover, held, if_neg nofun, if_pos other]
        rw [nothing] at rest
        refine iff_of_false (fun gains => ?_) (not_not.mpr ⟨rfl, other⟩)
        have lover := gains.lovers unit.unitId
        rw [rest, brings_unit found isUnit, kind, held] at lover
        simp [positive] at lover
      · have comes : addLover data role unit.unitId =
            { role with lovers := Function.update role.lovers unit.unitId true } := by
          rw [addLover, held, if_neg nofun, if_neg other]
        rw [comes] at rest changed
        rw [rest]
        refine iff_of_true ⟨fun id => ?_, rfl, fun id => ?_, fun id => ?_, rfl⟩ fun blocked =>
          other blocked.2
        · rw [gain_unit isUnit, has, held]
          exact changed id
        · rw [brings_unit found isUnit, kind]
          simp
        · rw [brings_unit found isUnit, kind]
          by_cases same : unit.unitId = id
          · subst same
            simp [positive]
          · simp [same, Ne.symm same]

end

/-- What the pieces of a product come to, unless it is a lover that is there in the other sex. -/
theorem addNewItem_gains (isProduct : data.IsProduct product) (positive : 0 < count)
    (names : ℕ → String) :
    ∃ after, addNewItem data role product count names = some after ∧
      after.treasureDict = role.treasureDict ∧
        (Gains data role after product count ↔ ¬ Blocked data role product) := by
  obtain ⟨noFragment, config, found, kinds⟩ := isProduct
  rw [addNewItem_eq noFragment positive found]
  rcases kinds with ⟨kind, single⟩ | ⟨kind | kind, unit, isUnit, stackable, worth⟩
  · have known : (data.config product).isSome := by rw [found]; rfl
    rw [itemMapperAdd, kind]
    refine ⟨_, rfl, rfl, iff_of_true (addItemEquip_gains known single positive.le) ?_⟩
    rintro ⟨unit, isUnit, -⟩
    cases single.symm.trans isUnit
  · obtain ⟨after, added, gains⟩ :=
      hero_gains inBounds found kind isUnit stackable worth positive names
    refine ⟨after, added, gains.treasureDict, iff_of_true gains ?_⟩
    rintro ⟨_, -, lover, -⟩
    rw [found, Option.map_some, kind] at lover
    cases lover
  · obtain ⟨after, added, table, gains⟩ :=
      lover_gains inBounds found kind isUnit stackable worth positive names
    refine ⟨after, added, table, gains.trans (not_congr ⟨fun blocked => ?_, ?_⟩)⟩
    · exact ⟨unit, isUnit, by rw [found, Option.map_some, kind], blocked⟩
    · rintro ⟨other, isOther, -, blocked⟩
      obtain rfl : unit = other := Option.some.inj (isUnit.symm.trans isOther)
      exact blocked

end

theorem gain_zero (id : Nat) : gain data role product 0 id = 0 := by
  rw [gain]
  split
  · split <;> rfl
  · split
    · simp [firstOnes]
    · rfl

theorem gains_zero : Gains data role role product 0 where
  stacked id := by rw [gain_zero, Int.add_zero]
  treasureDict := rfl
  heroes id := by simp
  lovers id := by simp
  currency := rfl

theorem item_succeeds_iff {itemId : Nat} (items : List Item)
    (table : after.treasureDict = role.treasureDict) (composes : data.composeItem itemId = some product)
    (changed : Changed role.toRole { role.toRole with items := items } itemId
      (-(data.synthesizeCount itemId * count))) :
    Gains data { role with items := items } after product count ↔
      (ComposeRequest.item itemId count).Succeeds data role after := by
  have taken : ∀ id, stacked items id =
      stacked role.items id - if id = itemId then count * data.synthesizeCount itemId else 0 := by
    intro id
    rw [changed id, Int.mul_comm count]
    split
    · rfl
    · rfl
  constructor
  · intro gains
    refine ⟨product, composes, fun id => ?_, fun treasureId fragmentId => ?_, gains.heroes,
      gains.lovers, gains.currency⟩
    · rw [gains.stacked, taken]
      rfl
    · rw [ComposeRole.held, table, Int.sub_zero]
      rfl
  · rintro ⟨other, other_composes, composed⟩
    obtain rfl : product = other := Option.some.inj (composes.symm.trans other_composes)
    refine ⟨fun id => ?_, table, composed.heroes, composed.lovers, composed.currency⟩
    rw [composed.stacked, ← taken]
    rfl

/-- `item_compose` succeeds or changes nothing, unless the lover that is composed is there in the other
sex. -/
theorem item_atomic_iff (sound : role.Sound data) (names : ℕ → String) (itemId : Nat) (count : Int) :
    Atomic data role names (.item itemId count) ↔
      (ComposeRequest.item itemId count).Permitted data role := by
  rw [Atomic, compose, itemCompose]
  cases composes : data.composeItem itemId with
  | none =>
      refine iff_of_true rfl ?_
      rintro ⟨-, product, -, found, -⟩
      cases composes.symm.trans found
  | some product =>
      dsimp only
      obtain ⟨isProduct, stackable, worth⟩ := data.composed itemId product composes
      by_cases negative : count < 0
      · have raises : canConsumeItem data.toItemData false role.toRole
            { itemId, count := data.synthesizeCount itemId * count } = none :=
          if_pos (Int.mul_neg_of_pos_of_neg worth negative)
        rw [raises]
        exact iff_of_true rfl fun bad => absurd bad.1 (by omega)
      · have nonneg : 0 ≤ data.synthesizeCount itemId * count :=
          Int.mul_nonneg worth.le (by omega)
        rw [canConsumeItem_stack stackable false nonneg]
        by_cases enough : data.synthesizeCount itemId * count ≤ stacked role.items itemId
        · obtain ⟨items, consumed, changed⟩ := consumeItem_stack
            (fun item mem => (sound.inBounds item mem).2.1) stackable false nonneg enough
          rw [decide_eq_true enough]
          rw [consumed]
          dsimp only
          have bounds : InBounds data.toStackData items :=
            consumeItem_inBounds sound.inBounds consumed
          rcases (not_lt.mp negative).lt_or_eq with positive | rfl
          · obtain ⟨after, added, table, gains⟩ :=
              @addNewItem_gains _ { role with items := items } _ _ bounds isProduct positive names
            rw [added]
            dsimp only
            have succeeds : Gains data { role with items := items } after product count ↔
                (ComposeRequest.item itemId count).Succeeds data role after :=
              item_succeeds_iff items table composes changed
            rw [← succeeds, gains]
            refine not_congr ⟨?_, ?_⟩
            · rintro ⟨unit, isUnit, kind, absent, other⟩
              exact ⟨positive, product, unit, composes, isUnit, kind, absent, other, enough⟩
            · rintro ⟨-, other, unit, other_composes, isUnit, kind, absent, blocked, -⟩
              obtain rfl : product = other := Option.some.inj (composes.symm.trans other_composes)
              exact ⟨unit, isUnit, kind, absent, blocked⟩
          · refine iff_of_true ?_ fun bad => absurd bad.1 (lt_irrefl 0)
            have table : ({ role with items := items } : ComposeRole).treasureDict =
                role.treasureDict := rfl
            exact (item_succeeds_iff items table composes changed).mp gains_zero
        · rw [decide_eq_false enough]
          refine iff_of_true rfl ?_
          rintro ⟨-, -, -, -, -, -, -, -, here⟩
          exact enough here

def Covered (fragments : Nat → Option Int) (count : Int) (list : List Nat) : Prop :=
  ∀ fragmentId ∈ list, ∃ held, fragments fragmentId = some held ∧ count ≤ held

theorem composeLoop_covered {fragments : Nat → Option Int} {list : List Nat}
    (covered : Covered fragments count list) (temp : Nat → Option Int) :
    ∃ after, composeLoop fragments count list temp = some after ∧ ∀ fragmentId,
      (after fragmentId).getD 0 = if fragmentId ∈ list then (fragments fragmentId).getD 0 - count
        else (temp fragmentId).getD 0 := by
  induction list generalizing temp with
  | nil => exact ⟨temp, rfl, fun _ => rfl⟩
  | cons first list ih =>
      obtain ⟨⟨held, found, enough⟩, rest⟩ := List.forall_mem_cons.mp covered
      obtain ⟨after, looped, left⟩ := ih rest
        (Function.update temp first (if held - count = 0 then none else some (held - count)))
      refine ⟨after, ?_, fun fragmentId => ?_⟩
      · rw [composeLoop, found]
        dsimp only
        rw [if_neg (not_lt.mpr enough)]
        exact looped
      · rw [left]
        by_cases later : fragmentId ∈ list
        · rw [if_pos later, if_pos (List.mem_cons_of_mem _ later)]
        · rw [if_neg later]
          by_cases here : fragmentId = first
          · subst here
            rw [if_pos List.mem_cons_self, Function.update_self, found]
            split
            · rename_i all
              exact all.symm
            · rfl
          · have out : fragmentId ∉ first :: list :=
              fun mem => (List.mem_cons.mp mem).elim here later
            rw [if_neg out, Function.update_of_ne here]

theorem composeLoop_refused {fragments : Nat → Option Int} {list : List Nat}
    (short : ¬ Covered fragments count list) (temp : Nat → Option Int) :
    composeLoop fragments count list temp = none := by
  induction list generalizing temp with
  | nil => exact absurd (fun _ mem => absurd mem List.not_mem_nil) short
  | cons first list ih =>
      rw [composeLoop]
      cases found : fragments first with
      | none => rfl
      | some held =>
          dsimp only
          split
          · rfl
          · rename_i enough
            refine ih (fun rest => short ?_) _
            exact List.forall_mem_cons.mpr ⟨⟨held, found, not_lt.mp enough⟩, rest⟩

theorem held_written {fragments temp : Nat → Option Int} {treasureId : Nat} {left : Option (Nat → Option Int)}
    (sound : role.Sound data) (found : role.treasureDict treasureId = some fragments)
    (taken : ∀ fragmentId, (temp fragmentId).getD 0 =
      if fragmentId ∈ data.fragmentList treasureId then (fragments fragmentId).getD 0 - count else 0)
    (same : left = some temp ∨ left = none ∧ ∀ fragmentId, (temp fragmentId).getD 0 = 0)
    (otherId fragmentId : Nat) :
    ComposeRole.held { role with treasureDict := Function.update role.treasureDict treasureId left }
        otherId fragmentId =
      role.held otherId fragmentId -
        if otherId = treasureId ∧ fragmentId ∈ data.fragmentList treasureId then count else 0 := by
  rw [ComposeRole.held, ComposeRole.held]
  dsimp only
  by_cases here : otherId = treasureId
  · subst here
    have amount : (left.bind fun fragments => fragments fragmentId).getD 0 =
        (temp fragmentId).getD 0 := by
      rcases same with rfl | ⟨rfl, nothing⟩
      · rfl
      · exact (nothing fragmentId).symm
    rw [Function.update_self, amount, taken, found, Option.bind_some]
    by_cases listed : fragmentId ∈ data.fragmentList otherId
    · rw [if_pos listed, if_pos ⟨rfl, listed⟩]
    · rw [if_neg listed, if_neg fun both => listed both.2]
      have absent : fragments fragmentId = none := by
        by_contra present
        exact listed ((sound.treasures otherId fragments found).2 fragmentId present)
      rw [absent]
      rfl
  · rw [Function.update_of_ne here, if_neg fun both => here both.1, Int.sub_zero]

theorem composed_of_gains {written : ComposeRole} {fromTable : Nat → Nat → Int}
    (gains : Gains data written after product count) (bag : written.toRole = role.toRole)
    (heroes : written.heroes = role.heroes) (lovers : written.lovers = role.lovers)
    (held : ∀ treasureId fragmentId, written.held treasureId fragmentId =
      role.held treasureId fragmentId - fromTable treasureId fragmentId) :
    Composed data role after product count (fun _ => 0) fromTable := by
  refine ⟨fun id => ?_, fun treasureId fragmentId => ?_, fun id => ?_, fun id => ?_, ?_⟩
  · have same : gain data written product count id = gain data role product count id := by
      rw [gain, gain]
      unfold ComposeRole.hasUnit
      rw [heroes, lovers]
    rw [gains.stacked, same, bag, Int.sub_zero]
  · rw [ComposeRole.held, gains.treasureDict]
    exact held treasureId fragmentId
  · rw [gains.heroes, heroes]
  · rw [gains.lovers, lovers]
  · rw [gains.currency, bag]

/-- `treasure_compose` succeeds or changes nothing, unless the count is negative. -/
theorem treasure_atomic_iff (sound : role.Sound data) (names : ℕ → String) (treasureId : Nat)
    (count : Int) : Atomic data role names (.treasure treasureId count) ↔
      (ComposeRequest.treasure treasureId count).Permitted data role := by
  rw [Atomic, compose, treasureCompose]
  cases found : role.treasureDict treasureId with
  | none =>
      refine iff_of_true rfl ?_
      rintro ⟨-, fragments, present, -⟩
      cases found.symm.trans present
  | some fragments =>
      dsimp only
      obtain ⟨isTreasure, -⟩ := sound.treasures treasureId fragments found
      obtain ⟨noFragment, single, nonempty, -, config, kind, row⟩ := data.treasure treasureId isTreasure
      by_cases covered : Covered fragments count (data.fragmentList treasureId)
      · obtain ⟨temp, looped, taken⟩ := composeLoop_covered covered fun _ => none
        rw [looped]
        dsimp only
        have same : (if ((data.fragmentList treasureId).all fun fragmentId =>
                (temp fragmentId).isNone) && !data.initTreasure treasureId
              then none else some temp) = some temp ∨
            (if ((data.fragmentList treasureId).all fun fragmentId =>
                (temp fragmentId).isNone) && !data.initTreasure treasureId
              then none else some temp) = none ∧ ∀ fragmentId, (temp fragmentId).getD 0 = 0 := by
          split
          · rename_i nothing
            refine .inr ⟨rfl, fun fragmentId => ?_⟩
            by_cases listed : fragmentId ∈ data.fragmentList treasureId
            · have isNone := List.all_eq_true.mp (Bool.and_eq_true_iff.mp nothing).1 fragmentId listed
              rw [Option.isNone_iff_eq_none.mp isNone]
              rfl
            · rw [taken, if_neg listed]
              rfl
          · exact .inl rfl
        have held := held_written sound found taken same
        rcases lt_trichotomy count 0 with negative | rfl | positive
        · rw [addNewItem, if_neg negative.ne, if_pos negative.le]
          refine iff_of_false (fun unchanged => ?_) (not_not.mpr ⟨negative, fragments, found, covered⟩)
          obtain ⟨first, mem⟩ := List.exists_mem_of_ne_nil _ nonempty
          have more := held treasureId first
          rw [unchanged, if_pos ⟨rfl, mem⟩] at more
          omega
        · refine iff_of_true ?_ fun bad => absurd bad.1 (lt_irrefl 0)
          exact composed_of_gains gains_zero rfl rfl rfl held
        · rw [addNewItem_eq noFragment positive row, itemMapperAdd, kind]
          refine iff_of_true ?_ fun bad => absurd bad.1 (by omega)
          have known : (data.config treasureId).isSome := by rw [row]; rfl
          exact composed_of_gains (addItemEquip_gains known single positive.le) rfl rfl rfl held
      · rw [composeLoop_refused covered]
        refine iff_of_true rfl ?_
        rintro ⟨-, other, present, enough⟩
        obtain rfl : fragments = other := Option.some.inj (found.symm.trans present)
        exact covered enough

end

/-- A treasure of two fragments, a hero and a lover, who has another sex. -/
def composeTable : ItemTable where
  toStackData := {
    config := fun id =>
      if id = 602000 then some { itemType := .equip, subType := .equipment }
      else if id = 401010 then some { itemType := .hero, subType := .other }
      else if id = 705 then some { itemType := .lover, subType := .other }
      else if id = 501010 ∨ id = 702010 ∨ id = 702011 ∨ id = 7050 then
        some { itemType := .stuff, subType := .other }
      else none
    currency := fun id row found kind => by
      repeat' split at found
      all_goals cases found
      all_goals cases kind
    equipment := fun id row found => by
      repeat' split at found
      all_goals cases found
      all_goals decide
    maxPlus := fun id => if id = 602000 then 1 else 99999999
    positive := fun id => by split <;> decide }
  composeItem id := if id = 501010 then some 401010 else if id = 7050 then some 705 else none
  synthesizeCount _ := 80
  fragmentList id := if id = 602000 then [702010, 702011] else []
  isTreasure id := id = 602000
  fragmentOf id := if id = 702010 ∨ id = 702011 then some 602000 else none
  unit id :=
    if id = 401010 then some ⟨11062, 501010, 80⟩
    else if id = 705 then some ⟨21041, 7050, 20⟩
    else none
  changeSex id := if id = 21041 then some 105 else none
  initTreasure id := id = 602000

/-- The table keeps what is asked of it. -/
def composeData : ComposeData where
  toItemTable := composeTable
  composed itemId product composes := by
    dsimp only [composeTable] at composes
    split at composes
    · rename_i fragment
      cases composes
      subst fragment
      refine ⟨⟨rfl, _, rfl, .inr ⟨.inl rfl, _, rfl, ⟨by decide, _, rfl, ?_⟩, by decide⟩⟩,
        ⟨by decide, _, rfl, ?_⟩, by decide⟩ <;> decide
    · split at composes
      · rename_i fragment
        cases composes
        subst fragment
        refine ⟨⟨rfl, _, rfl, .inr ⟨.inr rfl, _, rfl, ⟨by decide, _, rfl, ?_⟩, by decide⟩⟩,
          ⟨by decide, _, rfl, ?_⟩, by decide⟩ <;> decide
      · exact absurd composes nofun
  treasure itemId isTreasure := by
    obtain rfl : itemId = 602000 := of_decide_eq_true isTreasure
    exact ⟨rfl, rfl, by decide, by decide, _, rfl, rfl⟩

/-- A role with one fragment of each kind of the treasure. -/
def ringRole : ComposeRole where
  items := []
  currency _ := 0
  treasureDict id :=
    if id = 602000 then some fun fragmentId => if fragmentId ∈ [702010, 702011] then some 1 else none
    else none
  heroes _ := false
  lovers _ := false

theorem ringRole_sound : ringRole.Sound composeData := by
  refine ⟨fun item mem => absurd mem List.not_mem_nil, fun treasureId fragments found => ?_⟩
  dsimp only [ringRole] at found
  split at found
  · rename_i here
    cases found
    subst here
    refine ⟨rfl, fun fragmentId present => ?_⟩
    by_contra absent
    exact present (if_neg absent)
  · cases found

end UEServer.Bag
