import UEServer.Hero.Worn

/-!
# Runs of the operations on equipment

Every operation on equipment keeps the records of what is worn in step, except for wearing a piece
on a part that holds another one.
-/

namespace UEServer.Hero

section
variable {config : Config} {force : Bool} {role : Role} {bag after : Bag.Role}

theorem consumeAll_spares (proper : Bag.Proper config.items bag.items)
    (itemList : List Bag.Required) :
    Bag.Spares bag.items (consumeAll config force bag itemList).2.items := by
  induction itemList generalizing bag with
  | nil => exact .refl _
  | cons required rest ih =>
      rw [consumeAll]
      cases consumed : Bag.consumeItem config.items force bag required with
      | none => exact .refl _
      | some taken =>
          have spares := Bag.consumeItem_spares proper consumed
          exact spares.trans (ih (spares.proper proper))

theorem consumeItemList_spares (proper : Bag.Proper config.items bag.items)
    (itemList : List Bag.Required) :
    Bag.Spares bag.items (consumeItemList config force bag itemList).2.items := by
  unfold consumeItemList
  split
  · exact consumeAll_spares proper itemList
  · exact .refl _

theorem Keeps.of_spares (spares : Bag.Spares role.bag.items bag.items) :
    Keeps config role.outfit { role.outfit with bag } :=
  .of_worn spares.proper spares.worn

theorem consuming_keeps {itemList : List Bag.Required} {next : Role → Role}
    (keeps : ∀ bag, Bag.Proper config.items role.bag.items →
      Bag.Spares role.bag.items bag.items →
        Keeps config { role.outfit with bag } (next { role with bag }).outfit) :
    Keeps config role.outfit (consuming config force role itemList next).outfit := by
  intro sound
  have spares := @consumeItemList_spares _ force _ sound.proper itemList
  rw [consuming_eq]
  split
  · exact (Keeps.of_spares spares).trans (keeps _ sound.proper spares) sound
  · exact Keeps.of_spares spares sound

theorem slotOf_of_spares (proper : Bag.Proper config.items role.bag.items)
    (spares : Bag.Spares role.bag.items bag.items) {guid : String} {equip : Bag.Item}
    (found : Bag.getBagItem role.bag guid = some equip) (item : Bag.Item)
    (item_found : Bag.getBagItem bag guid = some item) : slotOf item = slotOf equip := by
  obtain ⟨item_mem, item_named⟩ := Bag.mem_of_getBagItem item_found
  obtain ⟨mem, named⟩ := Bag.mem_of_getBagItem found
  obtain ⟨old, old_mem, same⟩ := spares.left item item_mem
  have old_named : old.guid = guid := by
    rw [← item_named, same]
  obtain rfl := Bag.eq_of_guid_eq proper.nodup old_mem mem (old_named.trans named.symm)
  rw [slotOf, slotOf, same]

/-- Guids for new items of a kind: they name the kind, and none occurs twice or in the bag. -/
structure Fresh (bag : Bag.Role) (itemId : Nat) (guids : List String) : Prop where
  nodup : guids.Nodup
  named : ∀ guid ∈ guids, Bag.itemIdFromGuid guid = some itemId
  absent : ∀ guid ∈ guids, guid ∉ bag.items.map Bag.Item.guid

/-- What adding items of a kind does to the bag. -/
structure Adds (config : Config) (bag after : Bag.Role) (itemId : Nat) : Prop where
  proper : Bag.Proper config.items after.items
  worn : after.items.filter Bag.Item.isWorn = bag.items.filter Bag.Item.isWorn
  guids : ∀ guid ∈ after.items.map Bag.Item.guid,
    guid ∈ bag.items.map Bag.Item.guid ∨ Bag.itemIdFromGuid guid = some itemId

theorem Adds.refl (proper : Bag.Proper config.items bag.items) (itemId : Nat) :
    Adds config bag bag itemId :=
  ⟨proper, rfl, fun _ mem => .inl mem⟩

theorem newItems_guids (itemId : Nat) (maxPlus count : Int) (guids : List String) :
    ((newItems itemId maxPlus count guids).map Bag.Item.guid).Sublist guids := by
  induction guids generalizing count with
  | nil => exact .refl []
  | cons guid guids ih =>
      rw [newItems]
      split
      · exact List.nil_sublist _
      · exact (ih _).cons_cons guid

variable {guids : List String}

theorem mem_newItems {itemId : Nat} {maxPlus count : Int} {item : Bag.Item}
    (mem : item ∈ newItems itemId maxPlus count guids) :
    item.itemId = itemId ∧ item.lineupId = none := by
  induction guids generalizing count with
  | nil => cases mem
  | cons guid guids ih =>
      rw [newItems] at mem
      split at mem
      · cases mem
      · rcases List.mem_cons.mp mem with rfl | later
        · exact ⟨rfl, rfl⟩
        · exact ih later

theorem append_adds (proper : Bag.Proper config.items bag.items) {itemId : Nat} (fresh : Fresh bag itemId guids) (maxPlus count : Int) :
    Adds config bag { bag with items := bag.items ++ newItems itemId maxPlus count guids }
      itemId := by
  have new_guid : ∀ item ∈ newItems itemId maxPlus count guids, item.guid ∈ guids :=
    fun item mem => (newItems_guids itemId maxPlus count guids).subset (List.mem_map_of_mem mem)
  have unworn : ∀ item ∈ newItems itemId maxPlus count guids, ¬ item.isWorn = true := by
    intro item mem
    simp [Bag.Item.isWorn, (mem_newItems mem).2]
  refine ⟨⟨?_, fun item mem => ?_, fun item mem worn => ?_⟩, ?_, fun guid mem => ?_⟩
  · rw [List.map_append]
    refine List.nodup_append'.mpr ⟨proper.nodup,
      fresh.nodup.sublist (newItems_guids itemId maxPlus count guids), fun guid old new => ?_⟩
    exact fresh.absent guid ((newItems_guids itemId maxPlus count guids).subset new) old
  · rcases List.mem_append.mp mem with old | new
    · exact proper.named item old
    · rw [(mem_newItems new).1]
      exact fresh.named item.guid (new_guid item new)
  · rcases List.mem_append.mp mem with old | new
    · exact proper.equips item old worn
    · exact absurd worn (unworn item new)
  · rw [List.filter_append, List.filter_eq_nil_iff.mpr unworn, List.append_nil]
  · rw [List.map_append] at mem
    rcases List.mem_append.mp mem with old | new
    · exact .inl old
    · exact .inr (fresh.named guid ((newItems_guids itemId maxPlus count guids).subset new))

theorem pileItems_guids (itemId : Nat) (maxPlus count : Int) (items : List Bag.Item) :
    (pileItems itemId maxPlus count items).2.map Bag.Item.guid = items.map Bag.Item.guid := by
  induction items generalizing count with
  | nil => rfl
  | cons item items ih =>
      rw [pileItems]
      split
      · rfl
      split
      · exact congrArg (item.guid :: ·) (ih _)
      · exact congrArg (item.guid :: ·) (ih _)

theorem pileItems_left (itemId : Nat) (maxPlus count : Int) (items : List Bag.Item) :
    ∀ item ∈ (pileItems itemId maxPlus count items).2,
      ∃ old ∈ items, item = { old with count := item.count } := by
  induction items generalizing count with
  | nil => nofun
  | cons first items ih =>
      have later : ∀ count, ∀ item ∈ (pileItems itemId maxPlus count items).2,
          ∃ old ∈ first :: items, item = { old with count := item.count } := by
        intro count item mem
        obtain ⟨old, old_mem, same⟩ := ih count item mem
        exact ⟨old, List.mem_cons_of_mem _ old_mem, same⟩
      rw [pileItems]
      intro item mem
      split at mem
      · exact ⟨item, mem, rfl⟩
      split at mem
      · rcases List.mem_cons.mp mem with rfl | rest
        · exact ⟨first, List.mem_cons_self, rfl⟩
        · exact later _ item rest
      · rcases List.mem_cons.mp mem with rfl | rest
        · exact ⟨item, List.mem_cons_self, rfl⟩
        · exact later _ item rest

theorem pileItems_worn {itemId : Nat} (maxPlus count : Int) {items : List Bag.Item}
    (free : ∀ item ∈ items, item.itemId = itemId → item.isWorn = false) :
    (pileItems itemId maxPlus count items).2.filter Bag.Item.isWorn =
      items.filter Bag.Item.isWorn := by
  induction items generalizing count with
  | nil => rfl
  | cons item items ih =>
      have rest := fun count => ih count fun other mem => free other (List.mem_cons_of_mem _ mem)
      rw [pileItems]
      split
      · rfl
      split
      · rename_i piled
        have unworn := free item List.mem_cons_self piled.1
        have still (count : Int) : ¬ Bag.Item.isWorn { item with count } = true := by
          rw [show Bag.Item.isWorn { item with count } = item.isWorn from rfl, unworn]
          exact Bool.false_ne_true
        rw [List.filter_cons_of_neg (still _), List.filter_cons_of_neg (by simp [unworn]), rest]
      · rw [List.filter_cons, List.filter_cons, rest]

theorem addNewItem_adds (proper : Bag.Proper config.items bag.items) {itemId : Nat} (fresh : Fresh bag itemId guids) (count : Int) :
    Adds config bag (addNewItem config bag itemId count guids) itemId := by
  unfold addNewItem
  split
  · exact .refl proper itemId
  cases found : config.items.config itemId with
  | none => exact .refl proper itemId
  | some row =>
      have piled : row.itemType ≠ .equip → Adds config bag
          (let maxPlus := (config.itemRow itemId).maxPlus
          if maxPlus > 1 then
            let piled := pileItems itemId maxPlus count bag.items
            { bag with items := piled.2 ++ newItems itemId maxPlus piled.1 guids }
          else { bag with items := bag.items ++ newItems itemId 1 count guids }) itemId := by
        intro other
        have free : ∀ item ∈ bag.items, item.itemId = itemId → item.isWorn = false := by
          intro item mem same
          by_contra worn
          obtain ⟨row', found', equip⟩ := proper.equips item mem (by simpa using worn)
          rw [same, found] at found'
          cases found'
          exact other equip
        dsimp only
        split
        · let maxPlus := (config.itemRow itemId).maxPlus
          let heap : Bag.Role := { bag with items := (pileItems itemId maxPlus count bag.items).2 }
          have guids_eq := pileItems_guids itemId maxPlus count bag.items
          have heap_proper : Bag.Proper config.items heap.items := by
            refine ⟨by rw [guids_eq]; exact proper.nodup, fun item mem => ?_,
              fun item mem worn => ?_⟩
            · obtain ⟨old, old_mem, same⟩ := pileItems_left itemId maxPlus count bag.items item mem
              rw [same]
              exact proper.named old old_mem
            · obtain ⟨old, old_mem, same⟩ := pileItems_left itemId maxPlus count bag.items item mem
              rw [same] at worn ⊢
              exact proper.equips old old_mem worn
          have heap_fresh : Fresh heap itemId guids :=
            ⟨fresh.nodup, fresh.named, by rw [guids_eq]; exact fresh.absent⟩
          have added := append_adds heap_proper heap_fresh maxPlus
            (pileItems itemId maxPlus count bag.items).1
          refine ⟨added.proper, added.worn.trans (pileItems_worn maxPlus count free),
            fun guid mem => ?_⟩
          rw [← guids_eq]
          exact added.guids guid mem
        · exact append_adds proper fresh 1 count
      dsimp only
      cases kind : row.itemType with
      | virtual =>
          dsimp only
          split
          · exact ⟨proper, rfl, fun _ mem => .inl mem⟩
          · exact .refl proper itemId
      | equip => exact append_adds proper fresh 1 count
      | title => exact .refl proper itemId
      | pet => exact .refl proper itemId
      | default => exact piled (by rw [kind]; rintro ⟨⟩)
      | prop => exact piled (by rw [kind]; rintro ⟨⟩)
      | stuff => exact piled (by rw [kind]; rintro ⟨⟩)
      | hero => exact piled (by rw [kind]; rintro ⟨⟩)
      | lover => exact piled (by rw [kind]; rintro ⟨⟩)

theorem Adds.fresh {itemId other : Nat} (adds : Adds config bag after itemId)
    (different : other ≠ itemId) (fresh : Fresh bag other guids) : Fresh after other guids := by
  refine ⟨fresh.nodup, fresh.named, fun guid mem present => ?_⟩
  rcases adds.guids guid present with old | new
  · exact fresh.absent guid mem old
  · rw [fresh.named guid mem] at new
    exact different (Option.some.inj new)

theorem addItemDict_spec {guids : Nat → List String}
    (proper : Bag.Proper config.items bag.items) (fresh : ∀ itemId, Fresh bag itemId (guids itemId))
    (itemDict : Table Nat Int) :
    Bag.Proper config.items (addItemDict config bag itemDict guids).items ∧
      (addItemDict config bag itemDict guids).items.filter Bag.Item.isWorn =
        bag.items.filter Bag.Item.isWorn := by
  have loop : ∀ (keys : List Nat) (start : Bag.Role), keys.Nodup →
      Bag.Proper config.items start.items → (∀ id ∈ keys, Fresh start id (guids id)) →
        Bag.Proper config.items (keys.foldl (fun bag itemId =>
          addNewItem config bag itemId (itemDict.read itemId) (guids itemId)) start).items ∧
        (keys.foldl (fun bag itemId =>
          addNewItem config bag itemId (itemDict.read itemId) (guids itemId)) start).items.filter
            Bag.Item.isWorn = start.items.filter Bag.Item.isWorn := by
    intro keys
    induction keys with
    | nil => exact fun start _ proper _ => ⟨proper, rfl⟩
    | cons id keys ih =>
        intro start nodup proper fresh
        obtain ⟨absent, nodup⟩ := List.nodup_cons.mp nodup
        have adds := addNewItem_adds proper (fresh id List.mem_cons_self) (itemDict.read id)
        obtain ⟨proper_after, worn⟩ := ih _ nodup adds.proper fun other mem =>
          adds.fresh (by rintro rfl; exact absent mem) (fresh other (List.mem_cons_of_mem _ mem))
        exact ⟨proper_after, worn.trans adds.worn⟩
  exact loop itemDict.keys bag itemDict.keys_nodup proper fun id _ => fresh id

end

section
variable {config : Config} {role : Role} {bag : Bag.Role}

theorem findEquip_found {guid : String} {equip : Bag.Item} {type : PartType}
    (found : findEquip config role guid = some (equip, type)) :
    Bag.getBagItem role.bag guid = some equip := by
  obtain ⟨item, item_found, rest⟩ := Option.bind_eq_some_iff.mp found
  split at rest
  · obtain ⟨_, -, same⟩ := Option.map_eq_some_iff.mp rest
    cases same
    exact item_found
  · cases rest

theorem trainEquip_keeps {guid : String} {equip : Bag.Item} {f : Bag.Item → Bag.Item}
    (found : Bag.getBagItem role.bag guid = some equip) (trains : Trains f) (extra : Extra)
    (oldAttr newAttr : AttrDict) (proper : Bag.Proper config.items role.bag.items)
    (spares : Bag.Spares role.bag.items bag.items) :
    Keeps config { role.outfit with bag }
      (trainEquip config { role with bag } equip f extra oldAttr newAttr).outfit := by
  rw [outfit_trainEquip]
  refine train_keeps trains extra fun item item_found => ?_
  rw [(Bag.mem_of_getBagItem found).2] at item_found
  exact slotOf_of_spares proper spares found item item_found

theorem strengthenEquip_keeps (role : Role) (guid : String)
    (costItemList : Option (List String)) :
    Keeps config role.outfit (strengthenEquip config role guid costItemList).2.outfit := by
  unfold strengthenEquip
  cases found : findEquip config role guid with
  | none => exact .refl _
  | some target =>
      obtain ⟨equip, type⟩ := target
      dsimp only
      cases strengthenTarget config role equip type costItemList with
      | none => exact .refl _
      | some goal =>
          refine consuming_keeps fun bag proper spares => ?_
          rw [outfit_checkWorn]
          refine trainEquip_keeps (findEquip_found found) ?_ _ _ _ proper spares
          exact ⟨⟨fun _ => rfl, fun _ => rfl⟩, fun _ => rfl⟩

theorem strengthenTimes_keeps (guid : String) (times : Nat) (role : Role) :
    Keeps config role.outfit (strengthenTimes config guid times role).outfit := by
  induction times generalizing role with
  | zero => exact .refl _
  | succ times ih =>
      have first := @strengthenEquip_keeps config role guid none
      rw [strengthenTimes]
      dsimp only
      split
      · exact first.trans (ih _)
      · exact first

theorem quickStrengthenParts_keeps (equipDict : Table Int String) (parts : List (PartType × Nat))
    (role : Role) :
    Keeps config role.outfit (quickStrengthenParts config equipDict parts role).outfit := by
  induction parts generalizing role with
  | nil => exact .refl _
  | cons part parts ih =>
      obtain ⟨type, index⟩ := part
      cases type with
      | treasure => exact ih role
      | equip =>
          rw [quickStrengthenParts]
          split
          · exact ih role
          · rename_i guid equip _
            have times := @strengthenTimes_keeps config guid
              ((role.level * 2 - equip.strengthenLv).toNat + 1) role
            dsimp only
            split
            · exact times
            split
            · exact times
            · exact times.trans (ih _)

theorem quickStrengthenEquip_keeps (role : Role) (lineupId : Int) (border : Nat) :
    Keeps config role.outfit (quickStrengthenEquip config role lineupId border).outfit := by
  unfold quickStrengthenEquip
  split
  · exact .refl _
  split
  · exact .refl _
  · exact quickStrengthenParts_keeps _ _ _

theorem refineTo_keeps {guid : String} {equip : Bag.Item}
    (found : Bag.getBagItem role.bag guid = some equip) (type : PartType) (newLv newExp : Int)
    (costDict : List (Nat × Int)) (proper : Bag.Proper config.items role.bag.items)
    (spares : Bag.Spares role.bag.items bag.items) :
    Keeps config { role.outfit with bag }
      (refineTo config { role with bag } equip type newLv newExp costDict).outfit := by
  rw [refineTo, outfit_checkWorn]
  refine trainEquip_keeps found ?_ _ _ _ proper spares
  exact ⟨⟨fun _ => rfl, fun _ => rfl⟩, fun _ => rfl⟩

section
variable (role : Role) (guid : String)

theorem refineEquip_keeps (costItemId : Option Nat) :
    Keeps config role.outfit (refineEquip config role guid costItemId).outfit := by
  unfold refineEquip
  cases found : findEquip config role guid with
  | none => exact .refl _
  | some target =>
      obtain ⟨equip, type⟩ := target
      dsimp only
      split
      · exact .refl _
      cases refineTarget config equip type costItemId with
      | none => exact .refl _
      | some goal =>
          exact consuming_keeps fun bag proper spares =>
            refineTo_keeps (findEquip_found found) type _ _ _ proper spares

theorem quickRefineEquip_keeps (costItemDict : List (Nat × Int)) :
    Keeps config role.outfit (quickRefineEquip config role guid costItemDict).outfit := by
  unfold quickRefineEquip
  split
  · rename_i equip found
    split
    · exact .refl _
    split
    · exact .refl _
    · refine consuming_keeps fun bag proper spares => ?_
      split
      · exact .refl _
      · exact refineTo_keeps (findEquip_found found) .equip _ _ _ proper spares
  · exact .refl _

theorem upgradeEquipStarLv_keeps :
    Keeps config role.outfit (upgradeEquipStarLv config role guid).outfit := by
  unfold upgradeEquipStarLv
  cases found : findEquip config role guid with
  | none => exact .refl _
  | some target =>
      dsimp only
      split
      · exact .refl _
      · refine consuming_keeps fun bag proper spares => ?_
        refine trainEquip_keeps (findEquip_found found) ?_ _ _ _ proper spares
        exact ⟨⟨fun _ => rfl, fun _ => rfl⟩, fun _ => rfl⟩

theorem equipSmelt_keeps (costItemId : Nat) (random critRandom : ℚ) :
    Keeps config role.outfit
      (equipSmelt config role guid costItemId random critRandom).outfit := by
  unfold equipSmelt
  cases found : findEquip config role guid with
  | none => exact .refl _
  | some target =>
      dsimp only
      split
      · exact .refl _
      split
      · refine consuming_keeps fun bag proper spares => ?_
        refine trainEquip_keeps (findEquip_found found) ?_ _ _ _ proper spares
        exact ⟨⟨fun _ => rfl, fun _ => rfl⟩, fun _ => rfl⟩
      · exact .refl _

end

theorem Fresh.sublist {after : Bag.Role} {itemId : Nat} {guids : List String}
    (fresh : Fresh bag itemId guids)
    (fewer : (after.items.map Bag.Item.guid).Sublist (bag.items.map Bag.Item.guid)) :
    Fresh after itemId guids :=
  ⟨fresh.nodup, fresh.named, fun guid mem present =>
    fresh.absent guid mem (fewer.subset present)⟩

theorem addItemDict_keeps {guids : Nat → List String} (outfit : Outfit)
    (fresh : ∀ itemId, Fresh outfit.bag itemId (guids itemId)) (itemDict : Table Nat Int) :
    Keeps config outfit { outfit with bag := addItemDict config outfit.bag itemDict guids } := by
  intro sound
  have added := addItemDict_spec sound.proper fresh itemDict
  exact Keeps.of_worn (fun _ => added.1) added.2 sound

theorem equipRecover_keeps (role : Role) (guid : String) {guids : Nat → List String}
    (fresh : ∀ itemId, Fresh role.bag itemId (guids itemId)) :
    Keeps config role.outfit (equipRecover config role guid guids).outfit := by
  unfold equipRecover
  cases found : findEquip config role guid with
  | none => exact .refl _
  | some target =>
      obtain ⟨equip, type⟩ := target
      dsimp only
      split
      · exact .refl _
      rename_i free
      refine consuming_keeps fun bag proper spares => ?_
      have off : Outfit.wornAt { role.outfit with bag } guid = none := by
        refine Option.bind_eq_none_iff.mpr fun item item_found => ?_
        rw [slotOf_of_spares proper spares (findEquip_found found) item item_found, slotOf]
        have unworn : equip.lineupId = none := by simpa [Bag.Item.isWorn] using free
        rw [unworn]
        rfl
      generalize getEquipRecoverItem config equip (role.extra guid) = recovered
      obtain ⟨itemDict, strengthenExp, refineExp⟩ := recovered
      -- The experience that is left is assigned first.
      have trains : Trains fun item => { item with strengthenExp, refineExp } :=
        ⟨⟨fun _ => rfl, fun _ => rfl⟩, fun _ => rfl⟩
      let start : Outfit := { role.outfit with bag }
      let middle : Outfit := start.modifyItem guid fun item =>
        { item with strengthenExp, refineExp }
      have assigned : Keeps config start middle := modifyItem_keeps trains off
      have middle_off : middle.wornAt guid = none := (trains.wornAt guid guid).trans off
      have middle_guids : middle.bag.items.map Bag.Item.guid = bag.items.map Bag.Item.guid :=
        trains.map_guid bag guid
      split
      · let reset : Bag.Item → Bag.Item := fun item =>
          { item with
            starLv := 0
            refineLv := 0
            refineExp := 0
            strengthenLv := 1
            strengthenExp := 0
            smeltLv := 0
            smeltExp := 0 }
        have resets : Trains reset := ⟨⟨fun _ => rfl, fun _ => rfl⟩, fun _ => rfl⟩
        let final : Outfit := middle.train guid none reset {}
        have untrained : Keeps config middle final := train_keeps resets {} fun item item_found =>
          Option.bind_eq_none_iff.mp middle_off item item_found
        have final_guids : final.bag.items.map Bag.Item.guid =
            middle.bag.items.map Bag.Item.guid := resets.map_guid middle.bag guid
        refine assigned.trans (untrained.trans (addItemDict_keeps final (fun itemId => ?_) itemDict))
        refine (fresh itemId).sublist ?_
        rw [final_guids, middle_guids]
        exact spares.guids
      · refine assigned.trans (@consuming_keeps config true { role with bag := middle.bag } _ _
          fun after _ after_spares => ?_)
        refine addItemDict_keeps { role.outfit with bag := after } (fun itemId => ?_) _
        refine (fresh itemId).sublist (after_spares.guids.trans ?_)
        rw [middle_guids]
        exact spares.guids

theorem consumeItemList_keeps (role : Role) (force : Bool) (itemList : List Bag.Required) :
    Keeps config role.outfit
      { role.outfit with bag := (consumeItemList config force role.bag itemList).2 } := by
  intro sound
  exact Keeps.of_spares (consumeItemList_spares sound.proper itemList) sound

end

/-- The piece to wear on a part, if it passes the checks of `lineup_wear_equip`. -/
def wearable (config : Config) (role : Role) (partIndex : Int) (guid : String) :
    Option Bag.Item :=
  if (partType config partIndex).isSome then
    (Bag.getBagItem role.bag guid).filter fun item =>
      isEquip config item.itemId && (config.itemRow item.itemId).partIndex = some partIndex
  else none

def Outfit.vacate (outfit : Outfit) (slot : Option Int) (partIndex : Int) : Outfit :=
  match slot with
  | none => outfit
  | some lineupId => outfit.takeOff lineupId partIndex

section
variable {config : Config} {role : Role} {lineupId partIndex : Int} {guid : String}
  {item : Bag.Item}

theorem wearable_eq_some (can : wearable config role partIndex guid = some item) :
    Bag.getBagItem role.bag guid = some item ∧ isEquip config item.itemId = true ∧
      (config.itemRow item.itemId).partIndex = some partIndex := by
  unfold wearable at can
  split at can
  · obtain ⟨found, checks⟩ := Option.filter_eq_some_iff.mp can
    rw [Bool.and_eq_true, decide_eq_true_eq] at checks
    exact ⟨found, checks⟩
  · cases can

theorem lineupWearEquip_refused (refused : wearable config role partIndex guid = none ∨
      role.lineupDict.get lineupId = none) :
    lineupWearEquip config role lineupId partIndex guid = role := by
  unfold lineupWearEquip
  cases type : partType config partIndex with
  | none => rfl
  | some type_found =>
      cases found : Bag.getBagItem role.bag guid with
      | none => rfl
      | some item =>
          cases slot : role.lineupDict.get lineupId with
          | none => rfl
          | some lineupInfo =>
              rw [slot] at refused
              have can := refused.resolve_right nofun
              rw [wearable, type, found] at can
              dsimp only
              split
              · rfl
              rename_i equip
              split
              · rfl
              rename_i part
              rw [not_not] at equip part
              rw [Option.filter_some, equip, part] at can
              simp at can

theorem outfit_lineupWearEquip {lineupInfo : LineupInfo}
    (can : wearable config role partIndex guid = some item)
    (found : role.lineupDict.get lineupId = some lineupInfo) :
    (lineupWearEquip config role lineupId partIndex guid).outfit =
      (role.outfit.vacate (slotOf item) partIndex).putOn lineupId partIndex guid := by
  obtain ⟨item_found, equip, part⟩ := wearable_eq_some can
  unfold lineupWearEquip
  cases type : partType config partIndex with
  | none =>
      rw [wearable, type] at can
      cases can
  | some type_found =>
      rw [item_found, found]
      dsimp only
      rw [if_neg (not_not.mpr equip), if_neg (not_not.mpr part), outfit_putOn]
      unfold Outfit.vacate slotOf
      cases item.lineupId with
      | none => rfl
      | some old =>
          have taken := @outfit_lineupUnwearEquip config role old partIndex
          exact congrArg (fun outfit => Outfit.putOn outfit lineupId partIndex guid) taken

theorem vacate_sound {outfit : Outfit} (sound : Sound config outfit) (slot : Option Int)
    (partIndex : Int) : Sound config (outfit.vacate slot partIndex) := by
  cases slot with
  | none => exact sound
  | some lineupId => exact takeOff_sound sound lineupId partIndex

theorem takeOff_items (outfit : Outfit) (lineupId partIndex : Int) (item : Bag.Item)
    (mem : item ∈ (outfit.takeOff lineupId partIndex).bag.items) :
    ∃ old ∈ outfit.bag.items, old.guid = item.guid ∧ old.itemId = item.itemId := by
  unfold Outfit.takeOff at mem
  split at mem
  · exact ⟨item, mem, rfl, rfl⟩
  split at mem
  · exact ⟨item, mem, rfl, rfl⟩
  · obtain ⟨old, old_mem, rfl⟩ := List.mem_map.mp mem
    refine ⟨old, old_mem, ?_⟩
    split
    · exact ⟨rfl, rfl⟩
    · exact ⟨rfl, rfl⟩

theorem vacate_items (outfit : Outfit) (slot : Option Int) (partIndex : Int) (item : Bag.Item)
    (mem : item ∈ (outfit.vacate slot partIndex).bag.items) :
    ∃ old ∈ outfit.bag.items, old.guid = item.guid ∧ old.itemId = item.itemId := by
  cases slot with
  | none => exact ⟨item, mem, rfl, rfl⟩
  | some lineupId => exact takeOff_items outfit lineupId partIndex item mem

theorem lineupWearEquip_sound (sound : Sound config role.outfit) (lineupId partIndex : Int)
    (guid : String) :
    Sound config (lineupWearEquip config role lineupId partIndex guid).outfit := by
  cases can : wearable config role partIndex guid with
  | none => rwa [lineupWearEquip_refused (.inl can)]
  | some item =>
      cases found : role.lineupDict.get lineupId with
      | none => rwa [lineupWearEquip_refused (.inr found)]
      | some lineupInfo =>
          obtain ⟨item_found, equip, -⟩ := wearable_eq_some can
          obtain ⟨item_mem, item_named⟩ := Bag.mem_of_getBagItem item_found
          rw [outfit_lineupWearEquip can found]
          refine putOn_sound (vacate_sound sound _ _) lineupId partIndex fun other mem named => ?_
          obtain ⟨old, old_mem, old_named, kind⟩ := vacate_items _ _ _ other mem
          obtain rfl := Bag.eq_of_guid_eq sound.proper.nodup old_mem item_mem
            (old_named.trans (named.trans item_named.symm))
          rw [← kind]
          obtain ⟨row, row_found, is_equip⟩ := (Option.any_eq_true _ _).mp equip
          exact ⟨row, row_found, by simpa using is_equip⟩

/-- Where the piece to wear was worn, nothing is worn on its part afterwards; the other parts and
slots are as they were. -/
structure Vacated (config : Config) (outfit after : Outfit) (slot : Option Int) (partIndex : Int)
    (guid : String) : Prop where
  matched : Matched config after
  off : after.wornAt guid = none
  of_part : after.partOf config guid = some partIndex
  held : ∀ lineupId gear, outfit.gear lineupId = some gear → ∃ left,
    after.gear lineupId = some left ∧ left.equipDict.get partIndex =
      if slot = some lineupId then none else gear.equipDict.get partIndex

theorem vacate_vacated {outfit : Outfit} (matched : Matched config outfit)
    (found : Bag.getBagItem outfit.bag guid = some item)
    (part : (config.itemRow item.itemId).partIndex = some partIndex) :
    Vacated config outfit (outfit.vacate (slotOf item) partIndex) (slotOf item) partIndex guid := by
  have of_part : outfit.partOf config guid = some partIndex :=
    Outfit.partOf_eq_some.mpr ⟨item, found, part⟩
  have at_slot : outfit.wornAt guid = slotOf item := by
    rw [Outfit.wornAt, found, Option.bind_some]
  cases slot : slotOf item with
  | none =>
      refine ⟨matched, at_slot.trans slot, of_part, fun lineupId gear gear_found => ?_⟩
      exact ⟨gear, gear_found, (if_neg (by rintro ⟨⟩)).symm⟩
  | some lineupId =>
      obtain ⟨gear, index, gear_found, index_held⟩ :=
        matched.listed guid lineupId (at_slot.trans slot)
      obtain ⟨-, index_part⟩ := matched.held lineupId gear gear_found index guid index_held
      obtain rfl := Option.some.inj (index_part.symm.trans of_part)
      have taken : outfit.vacate (some lineupId) index = outfit.part lineupId gear index guid := by
        rw [Outfit.vacate, Outfit.takeOff, gear_found]
        dsimp only
        rw [index_held]
      rw [taken]
      refine ⟨part_matched matched gear_found index_held, part_wornAt .., ?_,
        fun other other_gear other_found => ?_⟩
      · exact ((assigns_lineupId none).partOf guid guid).trans of_part
      · by_cases same : other = lineupId
        · subst same
          exact ⟨_, Outfit.setGear_gear_self .., by rw [if_pos rfl]; exact Table.get_set_self _ _ _⟩
        · refine ⟨other_gear, (Outfit.setGear_gear_of_ne _ _ same).trans other_found, ?_⟩
          rw [if_neg]
          rintro ⟨⟩
          exact same rfl

/-- Wearing keeps the records in step exactly if the part is empty, or already holds the piece. -/
theorem lineupWearEquip_matched (sound : Sound config role.outfit)
    (matched : Matched config role.outfit) (lineupId partIndex : Int) (guid : String) :
    Matched config (lineupWearEquip config role lineupId partIndex guid).outfit ↔
      ((wearable config role partIndex guid).isSome → ∀ lineupInfo,
        role.lineupDict.get lineupId = some lineupInfo → ∀ other,
          lineupInfo.equipDict.get partIndex = some other → other = guid) := by
  cases can : wearable config role partIndex guid with
  | none =>
      rw [lineupWearEquip_refused (.inl can)]
      exact iff_of_true matched nofun
  | some item =>
      cases found : role.lineupDict.get lineupId with
      | none =>
          rw [lineupWearEquip_refused (.inr found)]
          exact iff_of_true matched fun _ => nofun
      | some lineupInfo =>
          obtain ⟨item_found, -, part⟩ := wearable_eq_some can
          have gear_found : role.outfit.gear lineupId = some lineupInfo.gear := by
            change (role.lineupDict.get lineupId).map LineupInfo.gear = _
            rw [found]
            rfl
          have at_slot : role.outfit.wornAt guid = slotOf item := by
            change (Bag.getBagItem role.bag guid).bind slotOf = _
            rw [item_found, Option.bind_some]
          have vacated := vacate_vacated matched item_found part
          obtain ⟨left, left_found, left_held⟩ := vacated.held lineupId _ gear_found
          have present : (Bag.getBagItem (role.outfit.vacate (slotOf item) partIndex).bag
              guid).isSome := by
            obtain ⟨kept, kept_found, -⟩ := Outfit.partOf_eq_some.mp vacated.of_part
            rw [kept_found]
            rfl
          have slot := sound.slots lineupId _ gear_found
          have put : PutOn _ _ lineupId partIndex guid left :=
            putOn_spec slot left_found present
          rw [outfit_lineupWearEquip can found]
          cases held : left.equipDict.get partIndex with
          | none =>
              refine iff_of_true (putOn_matched put vacated.matched left_found vacated.of_part
                vacated.off held) fun _ info info_found other other_held => ?_
              cases info_found
              rw [held] at left_held
              split at left_held
              · rename_i here
                obtain ⟨gear, index, piece_found, piece_held⟩ :=
                  matched.listed guid lineupId (at_slot.trans here)
                cases gear_found.symm.trans piece_found
                obtain ⟨-, index_part⟩ := matched.held lineupId _ gear_found index guid piece_held
                rw [Outfit.partOf_eq_some.mpr ⟨item, item_found, part⟩] at index_part
                cases index_part
                exact Option.some.inj (other_held.symm.trans piece_held)
              · cases left_held.trans other_held
          | some old =>
              have different : old ≠ guid := by
                rintro rfl
                obtain ⟨old_at, -⟩ :=
                  vacated.matched.held lineupId left left_found partIndex old held
                rw [vacated.off] at old_at
                cases old_at
              refine iff_of_false
                (putOn_not_matched put vacated.matched left_found held different) fun only => ?_
              rw [held] at left_held
              split at left_held
              · cases left_held
              · exact different (only rfl lineupInfo rfl old left_held.symm)

end

inductive EquipOp where
  | wear (lineupId partIndex : Int) (itemGuid : String)
  | unwear (lineupId partIndex : Int)
  | strengthen (itemGuid : String) (costItemList : Option (List String))
  | strengthenFiveTimes (itemGuid : String)
  | quickStrengthen (lineupId : Int) (border : Nat)
  | refine (itemGuid : String) (costItemId : Option Nat)
  | quickRefine (itemGuid : String) (costItemDict : List (Nat × Int))
  | upgradeStarLv (itemGuid : String)
  | smelt (itemGuid : String) (costItemId : Nat) (random critRandom : ℚ)
  | consume (force : Bool) (itemList : List Bag.Required)
  /-- `equip_recover`, with the guids of the items that are given. -/
  | recover (equipGuid : String) (guids : List (Nat × List String))

def guidsOf (guids : List (Nat × List String)) (itemId : Nat) : List String :=
  (guids.lookup itemId).getD []

/-- What an operation makes of a role. -/
def equipApply (config : Config) (role : Role) : EquipOp → Role
  | .wear lineupId partIndex itemGuid => lineupWearEquip config role lineupId partIndex itemGuid
  | .unwear lineupId partIndex => lineupUnwearEquip config role lineupId partIndex
  | .strengthen itemGuid costItemList => (strengthenEquip config role itemGuid costItemList).2
  | .strengthenFiveTimes itemGuid => strengthenEquipFiveTimes config role itemGuid
  | .quickStrengthen lineupId border => quickStrengthenEquip config role lineupId border
  | .refine itemGuid costItemId => refineEquip config role itemGuid costItemId
  | .quickRefine itemGuid costItemDict => quickRefineEquip config role itemGuid costItemDict
  | .upgradeStarLv itemGuid => upgradeEquipStarLv config role itemGuid
  | .smelt itemGuid costItemId random critRandom =>
      equipSmelt config role itemGuid costItemId random critRandom
  | .consume force itemList =>
      { role with bag := (consumeItemList config force role.bag itemList).2 }
  | .recover equipGuid guids => equipRecover config role equipGuid (guidsOf guids)

instance (bag : Bag.Role) (itemId : Nat) (guids : List String) :
    Decidable (Fresh bag itemId guids) :=
  decidable_of_iff
    (guids.Nodup ∧ (∀ guid ∈ guids, Bag.itemIdFromGuid guid = some itemId) ∧
      ∀ guid ∈ guids, guid ∉ bag.items.map Bag.Item.guid)
    ⟨fun ⟨nodup, named, absent⟩ => ⟨nodup, named, absent⟩,
      fun fresh => ⟨fresh.nodup, fresh.named, fresh.absent⟩⟩

/-- `new_item_guid` gives guids that are not in use and end in the item id. -/
def EquipOp.Named (bag : Bag.Role) : EquipOp → Prop
  | .recover _ guids => ∀ entry ∈ guids, Fresh bag entry.1 entry.2
  | _ => True

instance (bag : Bag.Role) (op : EquipOp) : Decidable (op.Named bag) := by
  cases op <;> (unfold EquipOp.Named; infer_instance)

def equipStep (config : Config) (role : Role) (op : EquipOp) : Option Role :=
  if op.Named role.bag then some (equipApply config role op) else none

/-- The operation does not put a piece on over another one. -/
def EquipOp.Permitted (config : Config) (role : Role) : EquipOp → Prop
  | .wear lineupId partIndex itemGuid =>
      (wearable config role partIndex itemGuid).isSome → ∀ lineupInfo,
        role.lineupDict.get lineupId = some lineupInfo → ∀ other,
          lineupInfo.equipDict.get partIndex = some other → other = itemGuid
  | _ => True

instance (config : Config) (role : Role) (op : EquipOp) : Decidable (op.Permitted config role) :=
  match op with
  | .wear lineupId partIndex itemGuid =>
      decidable_of_iff ((wearable config role partIndex itemGuid).isSome →
          ∀ other ∈ (role.lineupDict.get lineupId).bind fun lineupInfo =>
            lineupInfo.equipDict.get partIndex, other = itemGuid) <| by
        refine imp_congr_right fun _ => ⟨fun only lineupInfo found other held => ?_,
          fun only other held => ?_⟩
        · exact only other (Option.bind_eq_some_iff.mpr ⟨lineupInfo, found, held⟩)
        · obtain ⟨lineupInfo, found, held⟩ := Option.bind_eq_some_iff.mp held
          exact only lineupInfo found other held
  | .unwear .. | .strengthen .. | .strengthenFiveTimes .. | .quickStrengthen .. | .refine ..
  | .quickRefine .. | .upgradeStarLv .. | .smelt .. | .consume .. | .recover .. => isTrue trivial

section
variable {config : Config} {role after : Role} {op : EquipOp}

theorem fresh_guidsOf {bag : Bag.Role} {guids : List (Nat × List String)}
    (named : ∀ entry ∈ guids, Fresh bag entry.1 entry.2) (itemId : Nat) :
    Fresh bag itemId (guidsOf guids itemId) := by
  unfold guidsOf
  cases found : guids.lookup itemId with
  | none => exact ⟨List.nodup_nil, nofun, nofun⟩
  | some list =>
      obtain ⟨front, back, rfl, -⟩ := List.lookup_eq_some_iff.mp found
      exact named (itemId, list) (by simp)

theorem equipApply_keeps (named : op.Named role.bag)
    (other : ∀ lineupId partIndex itemGuid, op ≠ .wear lineupId partIndex itemGuid) :
    Keeps config role.outfit (equipApply config role op).outfit := by
  cases op with
  | wear lineupId partIndex itemGuid => exact absurd rfl (other lineupId partIndex itemGuid)
  | unwear lineupId partIndex =>
      rw [equipApply, outfit_lineupUnwearEquip]
      exact fun sound => ⟨takeOff_sound sound lineupId partIndex, fun matched =>
        takeOff_matched matched lineupId partIndex⟩
  | strengthen itemGuid costItemList => exact strengthenEquip_keeps role itemGuid costItemList
  | strengthenFiveTimes itemGuid => exact strengthenTimes_keeps itemGuid 5 role
  | quickStrengthen lineupId border => exact quickStrengthenEquip_keeps role lineupId border
  | refine itemGuid costItemId => exact refineEquip_keeps role itemGuid costItemId
  | quickRefine itemGuid costItemDict => exact quickRefineEquip_keeps role itemGuid costItemDict
  | upgradeStarLv itemGuid => exact upgradeEquipStarLv_keeps role itemGuid
  | smelt itemGuid costItemId random critRandom =>
      exact equipSmelt_keeps role itemGuid costItemId random critRandom
  | consume force itemList => exact consumeItemList_keeps role force itemList
  | recover equipGuid guids => exact equipRecover_keeps role equipGuid (fresh_guidsOf named)

theorem equipStep_spec (sound : Sound config role.outfit)
    (taken : equipStep config role op = some after) :
    Sound config after.outfit ∧
      (Worn config role.outfit → (Worn config after.outfit ↔ op.Permitted config role)) := by
  unfold equipStep at taken
  split at taken
  · rename_i named
    cases taken
    cases op with
    | wear lineupId partIndex itemGuid =>
        have sound_after := lineupWearEquip_sound sound lineupId partIndex itemGuid
        refine ⟨sound_after, fun worn => (worn_iff_matched sound_after).trans ?_⟩
        exact lineupWearEquip_matched sound worn.matched lineupId partIndex itemGuid
    | _ =>
        obtain ⟨sound_after, kept⟩ := @equipApply_keeps config _ _ named nofun sound
        refine ⟨sound_after, fun worn => iff_of_true ?_ trivial⟩
        exact (kept worn.matched).worn sound_after.proper.nodup
  · cases taken

/-- The records of what is worn agree throughout a run exactly if no piece is put on over another
one. -/
theorem worn_iff_permitted {ops : List EquipOp} {final : Role}
    (sound : Sound config role.outfit) (worn : Worn config role.outfit)
    (execution : Execution.run (equipStep config) role ops = some final) :
    Execution.Always (equipStep config) (fun role => Worn config role.outfit) role ops ↔
      Execution.Guarded (equipStep config) (fun role op => op.Permitted config role) role ops :=
  have preserved : ∀ {before op after}, Sound config before.outfit →
      op.Permitted config before → equipStep config before op = some after →
        Sound config after.outfit := fun sound _ taken => (equipStep_spec sound taken).1
  Execution.always_iff_guarded preserved
    (fun sound worn taken => (equipStep_spec sound taken).2 worn) execution sound worn

end

/-- A role with a hero in a slot, and two weapons in the bag. -/
def dressingRole : Role :=
  { emptyRole
      { items :=
          [{ guid := "b_401001", itemId := 401001, count := 1 },
            { guid := "d_401001", itemId := 401001, count := 1 }]
        currency := fun _ => 100 } with
    level := 1
    heroDict := Table.empty.set 1 (some {})
    lineupDict := Table.empty.set 1 (some { posId := some 1, heroId := some 1 }) }

theorem dressingRole_gear {lineupId : Int} {gear : Gear}
    (found : dressingRole.outfit.gear lineupId = some gear) :
    lineupId = 1 ∧ gear = ⟨Table.empty, Table.empty⟩ := by
  obtain ⟨lineupInfo, slot, rfl⟩ := Option.map_eq_some_iff.mp found
  rw [dressingRole, Table.get_set] at slot
  split at slot
  · rename_i same
    cases slot
    exact ⟨same, rfl⟩
  · cases slot

theorem dressingRole_sound : Sound sampleConfig dressingRole.outfit := by
  have digits : "401001".toNat? = some 401001 := by
    simp [String.toNat?, String.Slice.toNat?, String.Slice.isNat]
  refine ⟨⟨by decide, fun item mem => ?_, fun item mem worn => ?_⟩, fun lineupId gear found => ?_⟩
  · rcases List.mem_cons.mp mem with rfl | mem
    · exact digits
    · cases List.mem_singleton.mp mem
      exact digits
  · revert item
    decide
  · rw [(dressingRole_gear found).1]
    decide

theorem dressingRole_worn : Worn sampleConfig dressingRole.outfit := by
  refine ⟨fun lineupId gear found partIndex guid held => ?_, fun item mem lineupId => ?_,
    fun lineupId gear found guid => ?_, fun lineupId gear found guid copy copied => ?_⟩
  · rw [(dressingRole_gear found).2, Table.get_empty] at held
    cases held
  · have off : slotOf item = none := by
      revert item
      decide
    rw [off]
    refine iff_of_false nofun ?_
    rintro ⟨gear, partIndex, found, held⟩
    rw [(dressingRole_gear found).2, Table.get_empty] at held
    cases held
  · rw [(dressingRole_gear found).2]
    simp
  · rw [(dressingRole_gear found).2, Table.get_empty] at copied
    cases copied

/-- A weapon is worn, strengthened and taken off, and the other one worn. -/
def changingRun : List EquipOp :=
  [.wear 1 1 "b_401001", .strengthen "b_401001" none, .unwear 1 1, .wear 1 1 "d_401001"]

theorem worn_iff_permitted_changingRun :
    Execution.Always (equipStep sampleConfig) (fun role => Worn sampleConfig role.outfit)
      dressingRole changingRun := by
  have final : (Execution.run (equipStep sampleConfig) dressingRole changingRun).isSome := by
    decide +kernel
  obtain ⟨final, execution⟩ := Option.isSome_iff_exists.mp final
  exact (worn_iff_permitted dressingRole_sound dressingRole_worn execution).mpr (by decide +kernel)

/-- A weapon is worn, and then the other one instead of it. -/
def replacingRun : List EquipOp :=
  [.wear 1 1 "b_401001", .wear 1 1 "d_401001"]

/-- The slot keeps a copy of the weapon that it no longer wears. -/
theorem replacingRun_not_worn :
    Sound sampleConfig dressingRole.outfit ∧ Worn sampleConfig dressingRole.outfit ∧
      ∃ role, Execution.run (equipStep sampleConfig) dressingRole replacingRun = some role ∧
        ¬ Worn sampleConfig role.outfit := by
  have final : ((Execution.run (equipStep sampleConfig) dressingRole replacingRun).map fun role =>
      (role.outfit.gear 1).map fun gear =>
        (gear.equipDict.keys.map gear.equipDict.get, (gear.equipInfoDict.get "b_401001").isSome)) =
      some (some ([some "d_401001"], true)) := by decide +kernel
  obtain ⟨role, execution, slot⟩ := Option.map_eq_some_iff.mp final
  obtain ⟨gear, found, fields⟩ := Option.map_eq_some_iff.mp slot
  obtain ⟨held, copied⟩ := Prod.mk.inj fields
  refine ⟨dressingRole_sound, dressingRole_worn, role, execution, fun worn => ?_⟩
  obtain ⟨partIndex, stale⟩ := (worn.keys 1 gear found "b_401001").mp copied
  have key : partIndex ∈ gear.equipDict.keys := by
    rw [Table.mem_keys, stale]
    nofun
  have only := @List.mem_map_of_mem _ _ _ _ gear.equipDict.get key
  rw [held, stale] at only
  revert only
  decide

end UEServer.Hero
