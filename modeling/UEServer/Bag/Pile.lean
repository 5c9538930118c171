import UEServer.Bag.Basic

/-!
# Stacks

What `meta_table/bag.lua` does to stacks: `_add_item_prop` fills the stacks of an item and appends new
ones, and `sort_item_list` sorts the bag when it is loaded and moves items between neighbouring stacks.
The list is walked by an index, and an item that has been moved away is removed under it.
-/

namespace UEServer.Bag

/-- `excel_data.ItemData` with the sizes of stacks. -/
structure StackData extends ItemData where
  maxPlus : Nat → Int
  positive : ∀ id, 1 ≤ maxPlus id

/-- `new_item_guid`, where the first part is what `new_guid` and `rand_string` give. -/
def newItemGuid (name : String) (itemId : Nat) : String :=
  name ++ "_" ++ toString itemId

/-- `build_new_item` with the count 1. -/
def buildNewItem (itemId : Nat) (name : String) : Item where
  guid := newItemGuid name itemId
  itemId := itemId
  count := 1

def addcountBagItem (addCount : Int) (item : Item) : Item :=
  if addCount ≤ 0 then item else { item with count := item.count + addCount }

/-- `_subcount_bag_item` for the item that it is given. -/
def subcountItem (subCount : Int) (item : Item) : Item :=
  if subCount ≤ 0 ∨ subCount > item.count then item
  else { item with count := item.count - subCount }

/-- `_build_item_prop` and `_build_item_equip` exist for the type of the item. -/
def ItemConfig.builds (config : ItemConfig) : Bool :=
  config.itemType ≠ .pet ∧ config.itemType ≠ .title

section
variable (data : StackData)

/-- The first loop of `_pile_bag_item`: what is left to add, and the stacks. -/
def pileInto (itemId : Nat) : Int → List Item → Int × List Item
  | addCount, [] => (addCount, [])
  | addCount, item :: items =>
      if item.itemId = itemId ∧ item.count < data.maxPlus itemId then
        if item.count + addCount ≤ data.maxPlus itemId then
          (0, { item with count := item.count + addCount } :: items)
        else
          let rest := pileInto itemId (addCount - (data.maxPlus itemId - item.count)) items
          (rest.1, { item with count := data.maxPlus itemId } :: rest.2)
      else
        let rest := pileInto itemId addCount items
        (rest.1, item :: rest.2)

/-- The second loop of `_pile_bag_item`: the new stacks, named from a number on. -/
def newStacks (itemId : Nat) (names : ℕ → String) (i : ℕ) (addCount : Int) : List Item :=
  if 0 < addCount then
    if addCount ≤ data.maxPlus itemId then
      [{ buildNewItem itemId (names i) with count := addCount }]
    else
      { buildNewItem itemId (names i) with count := data.maxPlus itemId } ::
        newStacks itemId names (i + 1) (addCount - data.maxPlus itemId)
  else []
termination_by addCount.toNat
decreasing_by
  have positive := data.positive itemId
  omega

/-- `_pile_bag_item`; nothing if it raises. -/
def pileBagItem (items : List Item) (config : ItemConfig) (itemId : Nat) (addCount : Int)
    (names : ℕ → String) : Option (List Item) :=
  let piled := pileInto data itemId addCount items
  if piled.1 = 0 then some piled.2
  else if config.builds then some (piled.2 ++ newStacks data itemId names 0 piled.1)
  else none

/-- `_add_item_prop`; nothing if it raises. -/
def addItemProp (role : Role) (itemId : Nat) (count : Int) (names : ℕ → String) : Option Role :=
  if count ≤ 0 then none
  else
    (data.config itemId).bind fun config =>
      if 1 < data.maxPlus itemId then
        (pileBagItem data role.items config itemId count names).map fun items =>
          { role with items := items }
      else if config.builds then
        some { role with
          items := role.items ++
            (List.range count.toNat).map fun i => buildNewItem itemId (names i) }
      else none

/-- `_pile_func` for the item at an index: whether the item is removed, and the list; nothing if it
raises. -/
def pileFunc (items : List Item) (index : ℕ) (item : Item) : Option (Bool × List Item) :=
  (data.config item.itemId).bind fun _ =>
    if data.maxPlus item.itemId ≤ 1 then some (false, items)
    else
      items[index - 2]?.map fun prevItem =>
        if prevItem.itemId ≠ item.itemId then (false, items)
        else if data.maxPlus item.itemId ≤ prevItem.count then (false, items)
        else if prevItem.count + item.count ≤ data.maxPlus item.itemId then
          (true, (items.eraseIdx (index - 1)).modify (index - 2) (addcountBagItem item.count))
        else
          let subCount := data.maxPlus item.itemId - prevItem.count
          (false, (items.modify (index - 1) (subcountItem subCount)).modify (index - 2)
            (addcountBagItem subCount))

variable {data} in
theorem pileFunc_length {items after : List Item} {index : ℕ} {item : Item} {piled : Bool}
    (inside : index - 1 < items.length)
    (called : pileFunc data items index item = some (piled, after)) :
    after.length = if piled then items.length - 1 else items.length := by
  obtain ⟨config, -, called⟩ := Option.bind_eq_some_iff.mp called
  split at called
  · cases called
    rfl
  · obtain ⟨prevItem, -, called⟩ := Option.map_eq_some_iff.mp called
    split at called
    · cases called
      rfl
    · split at called
      · cases called
        rfl
      · split at called
        · cases called
          rw [if_pos rfl, List.length_modify, List.length_eraseIdx_of_lt inside]
        · cases called
          rw [if_neg nofun, List.length_modify, List.length_modify]

/-- The loop of `sort_item_list`; nothing if it raises.  Either the list gets shorter or the index
gets greater. -/
def pileLoop (index : ℕ) (items : List Item) : Option (List Item) :=
  if inside : index - 1 < items.length then
    match _called : pileFunc data items index items[index - 1] with
    | none => none
    | some (true, after) => pileLoop index after
    | some (false, after) => pileLoop (index + 1) after
  else some items
termination_by items.length + 1 - index
decreasing_by
  · have length := pileFunc_length inside _called
    rw [if_pos rfl] at length
    omega
  · have length := pileFunc_length inside _called
    rw [if_neg nofun] at length
    omega

/-- `sort_item_list`, after `DB_LIST_SORT` has brought the list into this order. -/
def sortItemList (sorted : List Item) : Option (List Item) :=
  pileLoop data 2 sorted

inductive BagEvent where
  | add (itemId : Nat) (count : Int) (names : ℕ → String)
  | consume (force : Bool) (required : Required)
  | load (sorted : List Item)

def ById (items : List Item) : Prop :=
  items.Pairwise fun first second => first.itemId ≤ second.itemId

instance (items : List Item) : Decidable (ById items) :=
  inferInstanceAs (Decidable (items.Pairwise _))

/-- One step; nothing if it raises. -/
def bagStep (role : Role) : BagEvent → Option Role
  | .add itemId count names => addItemProp data role itemId count names
  | .consume force required => consumeItem data.toItemData force role required
  | .load sorted =>
      if sorted.Perm role.items ∧ ById sorted then
        (sortItemList data sorted).map fun items => { role with items := items }
      else none

end

def stacked (items : List Item) (itemId : Nat) : Int :=
  countWhere (fun item => item.itemId = itemId) items

def StackData.Stackable (data : StackData) (itemId : Nat) : Prop :=
  1 < data.maxPlus itemId ∧ ∃ config, data.config itemId = some config ∧ config.subType = .other ∧
    config.itemType ≠ .virtual ∧ config.itemType ≠ .equip ∧ config.itemType ≠ .pet ∧
      config.itemType ≠ .title

/-- Every stack is of a known item, and it is not empty and not overfull. -/
def InBounds (data : StackData) (items : List Item) : Prop :=
  ∀ item ∈ items, (data.config item.itemId).isSome ∧ 1 ≤ item.count ∧
    item.count ≤ data.maxPlus item.itemId

/-- A count of an item has been added, and nothing else. -/
def Changed (role after : Role) (itemId : Nat) (count : Int) : Prop :=
  ∀ id, stacked after.items id = stacked role.items id + if id = itemId then count else 0

/-- What holds of a bag at every moment. -/
structure Stacking (data : StackData) (role : Role) : Prop where
  inBounds : InBounds data role.items
  add : ∀ itemId count names, data.Stackable itemId → 0 < count →
    ∃ after, bagStep data role (.add itemId count names) = some after ∧
      Changed role after itemId count
  /-- Consuming by the id of the item takes exactly, if there is enough, and otherwise nothing. -/
  consume : ∀ itemId count force, data.Stackable itemId → 0 ≤ count →
    ∃ after, bagStep data role (.consume force { itemId, count }) = some after ∧
      if count ≤ stacked role.items itemId then Changed role after itemId (-count)
      else after = role
  consumeGuid : ∀ guid item itemId count force, getBagItem role guid = some item →
    itemIdFromGuid guid = some itemId → data.Stackable itemId → 0 ≤ count →
      ∃ after, bagStep data role (.consume force { itemId, count, guid := some guid }) = some after ∧
        if count ≤ item.count then Changed role after item.itemId (-count) else after = role
  /-- Sorting keeps what there is, sorts it, and leaves at most one stack of an item that is not
  full. -/
  load : ∀ sorted, sorted.Perm role.items → ById sorted →
    ∃ after, bagStep data role (.load sorted) = some after ∧
      stacked after.items = stacked role.items ∧ ById after.items ∧
        ∀ id, data.Stackable id → (after.items.filter fun item =>
          item.itemId = id && decide (item.count < data.maxPlus id)).length ≤ 1

end UEServer.Bag
