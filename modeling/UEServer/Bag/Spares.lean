import UEServer.Bag.Basic

/-!
# Consuming spares what is worn

Whatever is consumed, the pieces of equipment that are worn stay in the bag as they are, and what is
left of the other items differs in the count only.
-/

namespace UEServer.Bag

def Item.isWorn (item : Item) : Bool :=
  item.lineupId.isSome

/-- Items are left of others; those that are worn are untouched. -/
structure Spares (before after : List Item) : Prop where
  worn : after.filter Item.isWorn = before.filter Item.isWorn
  left : ∀ item ∈ after, ∃ old ∈ before, item = { old with count := item.count }
  guids : (after.map Item.guid).Sublist (before.map Item.guid)

/-- A bag as the game builds it: its guids are different and name their items, and only equipment is
worn. -/
structure Proper (data : ItemData) (items : List Item) : Prop where
  nodup : (items.map Item.guid).Nodup
  named : ∀ item ∈ items, itemIdFromGuid item.guid = some item.itemId
  equips : ∀ item ∈ items, item.isWorn = true →
    ∃ row, data.config item.itemId = some row ∧ row.itemType = .equip

section
variable {data : ItemData} {force : Bool} {items after last : List Item} {item : Item}

theorem Spares.refl (items : List Item) : Spares items items :=
  ⟨rfl, fun item mem => ⟨item, mem, rfl⟩, .refl _⟩

theorem Spares.trans (first : Spares items after) (second : Spares after last) :
    Spares items last := by
  refine ⟨second.worn.trans first.worn, fun item mem => ?_, second.guids.trans first.guids⟩
  obtain ⟨middle, middle_mem, same⟩ := second.left item mem
  obtain ⟨old, old_mem, old_same⟩ := first.left middle middle_mem
  exact ⟨old, old_mem, by rw [same, old_same]⟩

theorem Spares.cons (spares : Spares items after) (item : Item) :
    Spares (item :: items) (item :: after) := by
  refine ⟨?_, fun kept mem => ?_, spares.guids.cons_cons item.guid⟩
  · rw [List.filter_cons, List.filter_cons, spares.worn]
  · rcases List.mem_cons.mp mem with rfl | later
    · exact ⟨kept, List.mem_cons_self, rfl⟩
    · obtain ⟨old, old_mem, same⟩ := spares.left kept later
      exact ⟨old, List.mem_cons_of_mem _ old_mem, same⟩

theorem Spares.drop (spares : Spares items after) (free : item.isWorn = false) :
    Spares (item :: items) after := by
  refine ⟨?_, fun kept mem => ?_, spares.guids.cons item.guid⟩
  · rw [List.filter_cons_of_neg (by simp [free]), spares.worn]
  · obtain ⟨old, old_mem, same⟩ := spares.left kept mem
    exact ⟨old, List.mem_cons_of_mem _ old_mem, same⟩

theorem Spares.recount (items : List Item) (free : item.isWorn = false) (count : Int) :
    Spares (item :: items) ({ item with count } :: items) := by
  refine ⟨?_, fun kept mem => ?_, .refl _⟩
  · have still : Item.isWorn { item with count } = false := free
    rw [List.filter_cons_of_neg (Bool.eq_false_iff.mp still),
      List.filter_cons_of_neg (Bool.eq_false_iff.mp free)]
  · rcases List.mem_cons.mp mem with rfl | later
    · exact ⟨item, List.mem_cons_self, rfl⟩
    · exact ⟨kept, List.mem_cons_of_mem _ later, rfl⟩

theorem Spares.reverse (spares : Spares items.reverse after) : Spares items after.reverse := by
  refine ⟨?_, fun item mem => ?_, ?_⟩
  · rw [List.filter_reverse, spares.worn, List.filter_reverse, List.reverse_reverse]
  · obtain ⟨old, old_mem, same⟩ := spares.left item (List.mem_reverse.mp mem)
    exact ⟨old, List.mem_reverse.mp old_mem, same⟩
  · have guids := spares.guids.reverse
    rwa [← List.map_reverse, ← List.map_reverse, List.reverse_reverse] at guids

theorem consumeStacks_spares {itemId : Nat} (count : Int)
    (free : ∀ item ∈ items, item.itemId = itemId → item.isWorn = false) :
    Spares items (consumeStacks itemId count items) := by
  induction items generalizing count with
  | nil => exact .refl []
  | cons item items ih =>
      have rest := fun count => ih count fun other mem => free other (List.mem_cons_of_mem _ mem)
      rw [consumeStacks]
      split
      · exact .refl _
      split
      · rename_i same
        have unworn := free item List.mem_cons_self same
        split
        · exact .recount items unworn _
        · exact (rest _).drop unworn
      · exact (rest _).cons item

theorem consumeEquips_spares (itemId : Nat) (count : Int) :
    Spares items (consumeEquips force itemId count items) := by
  induction items generalizing count with
  | nil => exact .refl []
  | cons item items ih =>
      rw [consumeEquips]
      split
      · exact .refl _
      split
      · rename_i free
        refine (ih _).drop ?_
        have unworn := free.2
        simp only [isFree, Bool.and_eq_true, Option.isNone_iff_eq_none] at unworn
        simp [Item.isWorn, unworn.1]
      · exact (ih _).cons item

theorem eraseP_spares {guid : String}
    (free : ∀ item ∈ items, item.guid = guid → item.isWorn = false) :
    Spares items (items.eraseP (·.guid = guid)) := by
  induction items with
  | nil => exact .refl []
  | cons item items ih =>
      by_cases same : item.guid = guid
      · rw [List.eraseP_cons_of_pos (by simpa using same)]
        exact (Spares.refl items).drop (free item List.mem_cons_self same)
      · rw [List.eraseP_cons_of_neg (by simpa using same)]
        exact (ih fun other mem => free other (List.mem_cons_of_mem _ mem)).cons item

theorem subcountBagItem_spares {guid : String}
    (free : ∀ item ∈ items, item.guid = guid → item.isWorn = false) (subCount : Int) :
    Spares items (subcountBagItem guid subCount items) := by
  induction items with
  | nil => exact .refl []
  | cons item items ih =>
      rw [subcountBagItem]
      split
      · rename_i same
        exact .recount items (free item List.mem_cons_self same) _
      · exact (ih fun other mem => free other (List.mem_cons_of_mem _ mem)).cons item

theorem mem_of_getBagItem {role : Role} {guid : String} (found : getBagItem role guid = some item) :
    item ∈ role.items ∧ item.guid = guid :=
  ⟨List.mem_of_find?_eq_some found, by simpa using List.find?_some found⟩

theorem eq_of_guid_eq {other : Item} (nodup : (items.map Item.guid).Nodup) (mem : item ∈ items)
    (other_mem : other ∈ items) (same : item.guid = other.guid) : item = other :=
  List.inj_on_of_nodup_map nodup mem other_mem same

theorem getBagItem_eq_some {role : Role} (nodup : (role.items.map Item.guid).Nodup)
    {guid : String} : getBagItem role guid = some item ↔ item ∈ role.items ∧ item.guid = guid := by
  refine ⟨mem_of_getBagItem, fun ⟨mem, named⟩ => ?_⟩
  cases found : getBagItem role guid with
  | none =>
      have absent := List.find?_eq_none.mp found item mem
      simp [named] at absent
  | some other =>
      obtain ⟨other_mem, other_named⟩ := mem_of_getBagItem found
      rw [eq_of_guid_eq nodup mem other_mem (named.trans other_named.symm)]

theorem consumeItemProp_spares {role taken : Role} {itemId : Nat} {count : Int}
    {guid : Option String}
    (free : ∀ item ∈ role.items, item.itemId = itemId → item.isWorn = false)
    (free_guid : ∀ name, guid = some name → ∀ item ∈ role.items, item.guid = name →
      item.isWorn = false)
    (consumed : consumeItemProp role itemId count guid = some taken) :
    Spares role.items taken.items := by
  cases guid with
  | none =>
      cases consumed
      exact Spares.reverse (consumeStacks_spares count fun item mem =>
        free item (List.mem_reverse.mp mem))
  | some name =>
      obtain ⟨item, found, rfl⟩ := Option.map_eq_some_iff.mp consumed
      split
      · exact eraseP_spares fun other other_mem => free_guid name rfl other other_mem
      split
      · exact .refl _
      · exact subcountBagItem_spares (fun other other_mem => free_guid name rfl other other_mem) _

theorem consumeItem_spares {role taken : Role} {required : Required}
    (proper : Proper data role.items)
    (consumed : consumeItem data force role required = some taken) :
    Spares role.items taken.items := by
  obtain ⟨can, checked, consumed⟩ := Option.bind_eq_some_iff.mp consumed
  cases can with
  | false =>
      cases consumed
      exact .refl _
  | true =>
      obtain ⟨itemId, id, consumed⟩ := Option.bind_eq_some_iff.mp consumed
      obtain ⟨row, found, consumed⟩ := Option.bind_eq_some_iff.mp consumed
      -- An item of a type that is not equipment is not worn.
      have unworn : row.itemType ≠ .equip → ∀ item ∈ role.items, item.itemId = itemId →
          item.isWorn = false := by
        intro other item mem same
        by_contra worn
        obtain ⟨row', found', equip⟩ := proper.equips item mem (by simpa using worn)
        rw [same, found] at found'
        cases found'
        exact other equip
      have unworn_guid : row.itemType ≠ .equip → ∀ name, required.guid = some name →
          ∀ item ∈ role.items, item.guid = name → item.isWorn = false := by
        intro other name guid item mem named
        refine unworn other item mem ?_
        have suffix := proper.named item mem
        rw [Required.id?, guid] at id
        rw [named] at suffix
        exact Option.some.inj (suffix.symm.trans id)
      have piled : row.itemType ≠ .equip →
          consumeItemProp role itemId required.count required.guid = some taken →
          Spares role.items taken.items :=
        fun other => consumeItemProp_spares (unworn other) (unworn_guid other)
      unfold itemMapperConsume at consumed
      cases kind : row.itemType with
      | equip =>
          rw [kind] at consumed
          cases consumed
          cases guid : required.guid with
          | none => exact Spares.reverse (consumeEquips_spares itemId required.count)
          | some name =>
              refine eraseP_spares fun item mem named => ?_
              have equipment := (data.equipment itemId row found).mpr kind
              have positive : ¬ required.count < 0 := by
                intro negative
                rw [canConsumeItem, if_pos negative] at checked
                cases checked
              rw [canConsumeItem, if_neg positive, id, Option.bind_some, found, Option.bind_some,
                equipment] at checked
              rw [guid] at checked
              obtain ⟨other, other_found, free⟩ := Option.map_eq_some_iff.mp checked
              obtain rfl := Option.some.inj
                (((getBagItem_eq_some proper.nodup).mpr ⟨mem, named⟩).symm.trans other_found)
              simp only [isFree, Bool.and_eq_true, Option.isNone_iff_eq_none] at free
              simp [Item.isWorn, free.1.1]
      | virtual =>
          rw [kind] at consumed
          dsimp only at consumed
          split at consumed
          · cases consumed
            unfold subCurrency
            split
            · exact .refl _
            · exact .refl _
          · cases consumed
      | pet => rw [kind] at consumed; cases consumed
      | title => rw [kind] at consumed; cases consumed
      | default => rw [kind] at consumed piled; exact piled nofun consumed
      | prop => rw [kind] at consumed piled; exact piled nofun consumed
      | stuff => rw [kind] at consumed piled; exact piled nofun consumed
      | hero => rw [kind] at consumed piled; exact piled nofun consumed
      | lover => rw [kind] at consumed piled; exact piled nofun consumed

theorem Spares.proper (spares : Spares items after) (proper : Proper data items) :
    Proper data after := by
  refine ⟨proper.nodup.sublist spares.guids, fun item mem => ?_, fun item mem worn => ?_⟩
  · obtain ⟨old, old_mem, same⟩ := spares.left item mem
    rw [same]
    exact proper.named old old_mem
  · obtain ⟨old, old_mem, same⟩ := spares.left item mem
    rw [same] at worn ⊢
    exact proper.equips old old_mem worn

end

end UEServer.Bag
