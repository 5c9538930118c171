import UEServer.Hero.Outfit
import UEServer.Library.Execution

/-!
# Worn equipment

Three records say who wears what: the slot's pieces by part, the slot's copies by guid, and the slot
named by the piece in the bag.  They agree as long as no piece is put on over another one: the piece
that is replaced leaves its copy behind.
-/

namespace UEServer.Hero

/-- The three records of what is worn agree. -/
structure Worn (config : Config) (outfit : Outfit) : Prop where
  /-- A part of a slot holds a piece of the bag that is of this part and worn in this slot. -/
  held : ∀ lineupId gear, outfit.gear lineupId = some gear → ∀ partIndex guid,
    gear.equipDict.get partIndex = some guid → ∃ item, Bag.getBagItem outfit.bag guid = some item ∧
      (config.itemRow item.itemId).partIndex = some partIndex ∧ slotOf item = some lineupId
  /-- A piece of the bag is held by the slot it is worn in, and by no other. -/
  listed : ∀ item ∈ outfit.bag.items, ∀ lineupId, slotOf item = some lineupId ↔
    ∃ gear partIndex, outfit.gear lineupId = some gear ∧
      gear.equipDict.get partIndex = some item.guid
  keys : ∀ lineupId gear, outfit.gear lineupId = some gear → ∀ guid,
    (gear.equipInfoDict.get guid).isSome ↔ ∃ partIndex, gear.equipDict.get partIndex = some guid
  equal : ∀ lineupId gear, outfit.gear lineupId = some gear → ∀ guid copy,
    gear.equipInfoDict.get guid = some copy → outfit.copyOf guid = some copy

/-- What holds whatever is worn: the bag is as the game builds it, and slots have no negative
numbers. -/
structure Sound (config : Config) (outfit : Outfit) : Prop where
  proper : Bag.Proper config.items outfit.bag.items
  slots : ∀ lineupId gear, outfit.gear lineupId = some gear → 0 ≤ lineupId

namespace Outfit

/-- The slot that a piece of the bag is worn in. -/
def wornAt (outfit : Outfit) (guid : String) : Option Int :=
  (Bag.getBagItem outfit.bag guid).bind slotOf

def partOf (config : Config) (outfit : Outfit) (guid : String) : Option Int :=
  (Bag.getBagItem outfit.bag guid).bind fun item => (config.itemRow item.itemId).partIndex

end Outfit

/-- The three records agree, guid by guid. -/
structure Matched (config : Config) (outfit : Outfit) : Prop where
  held : ∀ lineupId gear, outfit.gear lineupId = some gear → ∀ partIndex guid,
    gear.equipDict.get partIndex = some guid →
      outfit.wornAt guid = some lineupId ∧ outfit.partOf config guid = some partIndex
  listed : ∀ guid lineupId, outfit.wornAt guid = some lineupId →
    ∃ gear partIndex, outfit.gear lineupId = some gear ∧ gear.equipDict.get partIndex = some guid
  copies : ∀ lineupId gear, outfit.gear lineupId = some gear → ∀ guid,
    gear.equipInfoDict.get guid =
      if outfit.wornAt guid = some lineupId then outfit.copyOf guid else none

section
variable {config : Config} {outfit : Outfit}

theorem Outfit.wornAt_eq_some {guid : String} {lineupId : Int} :
    outfit.wornAt guid = some lineupId ↔
      ∃ item, Bag.getBagItem outfit.bag guid = some item ∧ slotOf item = some lineupId :=
  Option.bind_eq_some_iff

theorem Outfit.partOf_eq_some {guid : String} {partIndex : Int} :
    outfit.partOf config guid = some partIndex ↔ ∃ item,
      Bag.getBagItem outfit.bag guid = some item ∧
        (config.itemRow item.itemId).partIndex = some partIndex :=
  Option.bind_eq_some_iff

theorem Outfit.copyOf_isSome {guid : String} {lineupId : Int}
    (worn : outfit.wornAt guid = some lineupId) : (outfit.copyOf guid).isSome := by
  obtain ⟨item, found, -⟩ := wornAt_eq_some.mp worn
  rw [copyOf, found]
  rfl

theorem Worn.matched (worn : Worn config outfit) : Matched config outfit := by
  refine ⟨fun lineupId gear found partIndex guid held => ?_, fun guid lineupId at_slot => ?_,
    fun lineupId gear found guid => ?_⟩
  · obtain ⟨item, item_found, part, slot⟩ := worn.held lineupId gear found partIndex guid held
    exact ⟨Outfit.wornAt_eq_some.mpr ⟨item, item_found, slot⟩,
      Outfit.partOf_eq_some.mpr ⟨item, item_found, part⟩⟩
  · obtain ⟨item, item_found, slot⟩ := Outfit.wornAt_eq_some.mp at_slot
    obtain ⟨mem, rfl⟩ := Bag.mem_of_getBagItem item_found
    exact (worn.listed item mem lineupId).mp slot
  · cases copied : gear.equipInfoDict.get guid with
    | some copy =>
        obtain ⟨partIndex, held⟩ := (worn.keys lineupId gear found guid).mp (by rw [copied]; rfl)
        obtain ⟨item, item_found, -, slot⟩ := worn.held lineupId gear found partIndex guid held
        rw [if_pos (Outfit.wornAt_eq_some.mpr ⟨item, item_found, slot⟩)]
        exact (worn.equal lineupId gear found guid copy copied).symm
    | none =>
        rw [if_neg]
        intro at_slot
        obtain ⟨item, item_found, slot⟩ := Outfit.wornAt_eq_some.mp at_slot
        obtain ⟨mem, rfl⟩ := Bag.mem_of_getBagItem item_found
        obtain ⟨other, partIndex, other_found, held⟩ := (worn.listed item mem lineupId).mp slot
        cases found.symm.trans other_found
        have present := (worn.keys lineupId gear found item.guid).mpr ⟨partIndex, held⟩
        rw [copied] at present
        cases present

theorem Matched.worn (matched : Matched config outfit)
    (nodup : (outfit.bag.items.map Bag.Item.guid).Nodup) : Worn config outfit := by
  refine ⟨fun lineupId gear found partIndex guid held => ?_, fun item mem lineupId => ?_,
    fun lineupId gear found guid => ?_, fun lineupId gear found guid copy copied => ?_⟩
  · obtain ⟨at_slot, of_part⟩ := matched.held lineupId gear found partIndex guid held
    obtain ⟨item, item_found, slot⟩ := Outfit.wornAt_eq_some.mp at_slot
    obtain ⟨same, same_found, part⟩ := Outfit.partOf_eq_some.mp of_part
    cases item_found.symm.trans same_found
    exact ⟨item, item_found, part, slot⟩
  · have item_found := (Bag.getBagItem_eq_some nodup).mpr ⟨mem, rfl⟩
    constructor
    · intro slot
      exact matched.listed item.guid lineupId (Outfit.wornAt_eq_some.mpr ⟨item, item_found, slot⟩)
    · rintro ⟨gear, partIndex, found, held⟩
      obtain ⟨at_slot, -⟩ := matched.held lineupId gear found partIndex item.guid held
      obtain ⟨same, same_found, slot⟩ := Outfit.wornAt_eq_some.mp at_slot
      cases item_found.symm.trans same_found
      exact slot
  · rw [matched.copies lineupId gear found guid]
    constructor
    · intro present
      split at present
      · rename_i at_slot
        obtain ⟨other, partIndex, other_found, held⟩ := matched.listed guid lineupId at_slot
        cases found.symm.trans other_found
        exact ⟨partIndex, held⟩
      · cases present
    · rintro ⟨partIndex, held⟩
      obtain ⟨at_slot, -⟩ := matched.held lineupId gear found partIndex guid held
      rw [if_pos at_slot]
      exact Outfit.copyOf_isSome at_slot
  · rw [matched.copies lineupId gear found guid] at copied
    split at copied
    · exact copied
    · cases copied

theorem worn_iff_matched (sound : Sound config outfit) :
    Worn config outfit ↔ Matched config outfit :=
  ⟨Worn.matched, fun matched => matched.worn sound.proper.nodup⟩

end

section
variable {config : Config} {outfit : Outfit} {f : Bag.Item → Bag.Item}

theorem getBagItem_modifyItem (bag : Bag.Role) (guid other : String)
    (names : ∀ item, (f item).guid = item.guid) :
    Bag.getBagItem (modifyItem bag guid f) other =
      if other = guid then (Bag.getBagItem bag guid).map f else Bag.getBagItem bag other := by
  unfold Bag.getBagItem modifyItem
  rw [List.find?_map]
  have same_guid : (fun item => decide (Bag.Item.guid item = other)) ∘
      (fun item => if item.guid = guid then f item else item) =
        fun item : Bag.Item => decide (item.guid = other) := by
    funext item
    by_cases hit : item.guid = guid
    · simp [hit, names]
    · simp [hit]
  rw [same_guid]
  cases found : bag.items.find? fun item => item.guid = other with
  | none =>
      by_cases same : other = guid
      · subst same
        rw [if_pos rfl, found]
        rfl
      · rw [if_neg same]
        rfl
  | some item =>
      have named : item.guid = other := by simpa using List.find?_some found
      by_cases same : other = guid
      · subst same
        rw [if_pos rfl, found, Option.map_some, Option.map_some, if_pos named]
      · rw [if_neg same, Option.map_some, if_neg (fun hit => same (named.symm.trans hit))]

/-- What is assigned to a piece leaves its guid and its kind alone. -/
structure Assigns (f : Bag.Item → Bag.Item) : Prop where
  guid : ∀ item, (f item).guid = item.guid
  itemId : ∀ item, (f item).itemId = item.itemId

section
variable (assigns : Assigns f)
include assigns

theorem Assigns.partOf (guid other : String) :
    (outfit.modifyItem guid f).partOf config other = outfit.partOf config other := by
  unfold Outfit.partOf
  rw [Outfit.modifyItem, getBagItem_modifyItem _ _ _ assigns.guid]
  split
  · rename_i same
    subst same
    cases Bag.getBagItem outfit.bag other with
    | none => rfl
    | some item => exact congrArg (fun id => (config.itemRow id).partIndex) (assigns.itemId item)
  · rfl

theorem Assigns.wornAt_self (guid : String) :
    (outfit.modifyItem guid f).wornAt guid =
      (Bag.getBagItem outfit.bag guid).bind fun item => slotOf (f item) := by
  unfold Outfit.wornAt
  rw [Outfit.modifyItem, getBagItem_modifyItem _ _ _ assigns.guid, if_pos rfl, Option.bind_map]
  rfl

theorem Assigns.wornAt_of_ne {guid other : String} (different : other ≠ guid) :
    (outfit.modifyItem guid f).wornAt other = outfit.wornAt other := by
  unfold Outfit.wornAt
  rw [Outfit.modifyItem, getBagItem_modifyItem _ _ _ assigns.guid, if_neg different]

theorem Assigns.copyOf_of_ne {guid other : String} (different : other ≠ guid) :
    (outfit.modifyItem guid f).copyOf other = outfit.copyOf other := by
  unfold Outfit.copyOf
  rw [Outfit.modifyItem, getBagItem_modifyItem _ _ _ assigns.guid, if_neg different]

theorem Assigns.map_guid (bag : Bag.Role) (guid : String) :
    (modifyItem bag guid f).items.map Bag.Item.guid = bag.items.map Bag.Item.guid := by
  rw [modifyItem, List.map_map]
  refine List.map_congr_left fun item _ => ?_
  by_cases hit : item.guid = guid
  · simp only [Function.comp, if_pos hit, assigns.guid]
  · simp only [Function.comp, if_neg hit]

theorem Assigns.sound (sound : Sound config outfit) {guid : String}
    (equips : ∀ item ∈ outfit.bag.items, item.guid = guid → (f item).isWorn = true → ∃ row, config.items.config item.itemId = some row ∧ row.itemType = .equip)
    :
    Sound config (outfit.modifyItem guid f) := by
  refine ⟨⟨?_, fun item mem => ?_, fun item mem worn => ?_⟩, sound.slots⟩
  · rw [Outfit.modifyItem, assigns.map_guid]
    exact sound.proper.nodup
  · obtain ⟨old, old_mem, rfl⟩ := List.mem_map.mp mem
    by_cases hit : old.guid = guid
    · rw [if_pos hit, assigns.guid, assigns.itemId]
      exact sound.proper.named old old_mem
    · rw [if_neg hit]
      exact sound.proper.named old old_mem
  · obtain ⟨old, old_mem, rfl⟩ := List.mem_map.mp mem
    by_cases hit : old.guid = guid
    · rw [if_pos hit] at worn ⊢
      rw [assigns.itemId]
      exact equips old old_mem hit worn
    · rw [if_neg hit] at worn ⊢
      exact sound.proper.equips old old_mem worn

end

end

section
variable {config : Config} {outfit : Outfit} {lineupId partIndex : Int} {guid : String}
  {gear : Gear}

theorem assigns_lineupId (id : Option Nat) :
    Assigns fun item => { item with lineupId := id } :=
  ⟨fun _ => rfl, fun _ => rfl⟩

theorem setGear_sound (sound : Sound config outfit) (slot : 0 ≤ lineupId) (gear : Gear) :
    Sound config (outfit.setGear lineupId gear) := by
  refine ⟨sound.proper, fun other other_gear found => ?_⟩
  by_cases same : other = lineupId
  · rw [same]
    exact slot
  · rw [Outfit.setGear_gear_of_ne _ _ same] at found
    exact sound.slots other other_gear found

theorem release_sound (sound : Sound config outfit) (old : Option String) :
    Sound config (outfit.release old) := by
  cases old with
  | none => exact sound
  | some guid => exact (assigns_lineupId none).sound sound fun _ _ _ => nofun

theorem takeOff_sound (sound : Sound config outfit) (lineupId partIndex : Int) :
    Sound config (outfit.takeOff lineupId partIndex) := by
  unfold Outfit.takeOff
  cases found : outfit.gear lineupId with
  | none => exact sound
  | some gear =>
      cases held : gear.equipDict.get partIndex with
      | none => simpa only [held] using sound
      | some guid =>
          simp only [held]
          exact release_sound (setGear_sound sound (sound.slots lineupId gear found) _) (some guid)

theorem part_wornAt (outfit : Outfit) (lineupId partIndex : Int) (guid : String) (gear : Gear) :
    (outfit.part lineupId gear partIndex guid).wornAt guid = none := by
  rw [Outfit.part, (assigns_lineupId none).wornAt_self]
  exact Option.bind_eq_none_iff.mpr fun _ _ => rfl

theorem part_matched (matched : Matched config outfit) (found : outfit.gear lineupId = some gear)
    (held : gear.equipDict.get partIndex = some guid) :
    Matched config (outfit.part lineupId gear partIndex guid) := by
  obtain ⟨at_slot, of_part⟩ := matched.held lineupId gear found partIndex guid held
  have assigns := assigns_lineupId none
  have off := part_wornAt outfit lineupId partIndex guid gear
  have others : ∀ other, other ≠ guid →
      (outfit.part lineupId gear partIndex guid).wornAt other = outfit.wornAt other := by
    intro other different
    exact assigns.wornAt_of_ne different
  have gears : ∀ other, other ≠ lineupId →
      (outfit.part lineupId gear partIndex guid).gear other = outfit.gear other :=
    fun other different => Outfit.setGear_gear_of_ne _ _ different
  have gear_self : (outfit.part lineupId gear partIndex guid).gear lineupId =
      some ⟨gear.equipDict.set partIndex none, gear.equipInfoDict.set guid none⟩ :=
    Outfit.setGear_gear_self ..
  refine ⟨fun id after after_found index name name_held => ?_, fun name id name_at => ?_,
    fun id after after_found name => ?_⟩
  · rw [Outfit.part, assigns.partOf]
    by_cases same : id = lineupId
    · subst same
      cases gear_self.symm.trans after_found
      have index_ne : index ≠ partIndex := by
        rintro rfl
        rw [Table.get_set_self] at name_held
        cases name_held
      rw [Table.get_set_of_ne _ _ index_ne] at name_held
      obtain ⟨name_at, name_part⟩ := matched.held id gear found index name name_held
      have different : name ≠ guid := by
        rintro rfl
        exact index_ne (Option.some.inj (name_part.symm.trans of_part))
      exact ⟨(others name different).trans name_at, name_part⟩
    · rw [gears id same] at after_found
      obtain ⟨name_at, name_part⟩ := matched.held id after after_found index name name_held
      have different : name ≠ guid := by
        rintro rfl
        exact same (Option.some.inj (name_at.symm.trans at_slot))
      exact ⟨(others name different).trans name_at, name_part⟩
  · have different : name ≠ guid := by
      rintro rfl
      rw [off] at name_at
      cases name_at
    rw [others name different] at name_at
    obtain ⟨old, index, old_found, name_held⟩ := matched.listed name id name_at
    by_cases same : id = lineupId
    · subst same
      cases found.symm.trans old_found
      refine ⟨_, index, gear_self, ?_⟩
      rw [Table.get_set_of_ne, name_held]
      rintro rfl
      exact different (Option.some.inj (name_held.symm.trans held))
    · exact ⟨old, index, (gears id same).trans old_found, name_held⟩
  · by_cases hit : name = guid
    · subst hit
      rw [off, if_neg nofun]
      by_cases same : id = lineupId
      · subst same
        cases gear_self.symm.trans after_found
        exact Table.get_set_self _ _ _
      · rw [gears id same] at after_found
        rw [matched.copies id after after_found, if_neg]
        intro elsewhere
        exact same (Option.some.inj (elsewhere.symm.trans at_slot))
    · rw [others name hit, Outfit.part, assigns.copyOf_of_ne hit]
      by_cases same : id = lineupId
      · subst same
        cases gear_self.symm.trans after_found
        rw [Table.get_set_of_ne _ _ hit]
        exact matched.copies id gear found name
      · rw [gears id same] at after_found
        exact matched.copies id after after_found name

theorem takeOff_matched (matched : Matched config outfit) (lineupId partIndex : Int) :
    Matched config (outfit.takeOff lineupId partIndex) := by
  unfold Outfit.takeOff
  cases found : outfit.gear lineupId with
  | none => exact matched
  | some gear =>
      cases held : gear.equipDict.get partIndex with
      | none => simpa only [held] using matched
      | some guid =>
          simp only [held]
          exact part_matched matched found held

end

section
variable {config : Config} {outfit : Outfit} {lineupId partIndex : Int} {guid : String}
  {gear : Gear}

theorem copyItem_eq (found : outfit.gear lineupId = some gear) (guid : String) :
    outfit.copyItem lineupId guid = outfit.setGear lineupId
      { gear with equipInfoDict := gear.equipInfoDict.set guid (outfit.copyOf guid) } := by
  rw [Outfit.copyItem, found]

theorem copyItem_sound (sound : Sound config outfit) (lineupId : Int) (guid : String) :
    Sound config (outfit.copyItem lineupId guid) := by
  cases found : outfit.gear lineupId with
  | none =>
      rw [Outfit.copyItem, found]
      exact sound
  | some gear =>
      rw [copyItem_eq found]
      exact setGear_sound sound (sound.slots lineupId gear found) _

theorem putOn_sound (sound : Sound config outfit) (lineupId partIndex : Int)
    (equip : ∀ item ∈ outfit.bag.items, item.guid = guid →
      ∃ row, config.items.config item.itemId = some row ∧ row.itemType = .equip) :
    Sound config (outfit.putOn lineupId partIndex guid) := by
  unfold Outfit.putOn
  cases found : outfit.gear lineupId with
  | none => exact sound
  | some gear =>
      refine copyItem_sound (setGear_sound ?_ (sound.slots lineupId gear found) _) lineupId guid
      refine (assigns_lineupId (some lineupId.toNat)).sound (release_sound sound _)
        fun item mem named _ => ?_
      cases held : gear.equipDict.get partIndex with
      | none =>
          rw [held] at mem
          exact equip item mem named
      | some old =>
          rw [held] at mem
          obtain ⟨before, before_mem, rfl⟩ := List.mem_map.mp mem
          by_cases hit : before.guid = old
          · rw [if_pos hit] at named ⊢
            exact equip before before_mem named
          · rw [if_neg hit] at named ⊢
            exact equip before before_mem named

/-- What putting on does to the slots, to the pieces and to the copies. -/
structure PutOn (outfit after : Outfit) (lineupId partIndex : Int) (guid : String) (gear : Gear) :
    Prop where
  gear_self : after.gear lineupId =
    some ⟨gear.equipDict.set partIndex (some guid),
      gear.equipInfoDict.set guid (after.copyOf guid)⟩
  gears : ∀ other, other ≠ lineupId → after.gear other = outfit.gear other
  at_slot : after.wornAt guid = some lineupId
  off : ∀ old, gear.equipDict.get partIndex = some old → old ≠ guid → after.wornAt old = none
  others : ∀ other, other ≠ guid → gear.equipDict.get partIndex ≠ some other →
    after.wornAt other = outfit.wornAt other ∧ after.copyOf other = outfit.copyOf other
  partOf : ∀ config other, after.partOf config other = outfit.partOf config other

theorem release_partOf (config : Config) (old : Option String) (other : String) :
    (outfit.release old).partOf config other = outfit.partOf config other := by
  cases old with
  | none => rfl
  | some old => exact (assigns_lineupId none).partOf old other

theorem release_of_ne {old : Option String} {other : String} (different : old ≠ some other) :
    (outfit.release old).wornAt other = outfit.wornAt other ∧
      (outfit.release old).copyOf other = outfit.copyOf other := by
  cases old with
  | none => exact ⟨rfl, rfl⟩
  | some old =>
      have different : other ≠ old := by
        rintro rfl
        exact different rfl
      exact ⟨(assigns_lineupId none).wornAt_of_ne different,
        (assigns_lineupId none).copyOf_of_ne different⟩

theorem release_self (old : String) : (outfit.release (some old)).wornAt old = none := by
  rw [Outfit.release, (assigns_lineupId none).wornAt_self]
  exact Option.bind_eq_none_iff.mpr fun _ _ => rfl

theorem release_present (old : Option String)
    (present : (Bag.getBagItem outfit.bag guid).isSome) :
    (Bag.getBagItem (outfit.release old).bag guid).isSome := by
  cases old with
  | none => exact present
  | some old =>
      rw [Outfit.release, Outfit.modifyItem,
        getBagItem_modifyItem _ _ _ (assigns_lineupId none).guid]
      split
      · rename_i same
        rw [Option.isSome_map, ← same]
        exact present
      · exact present

theorem putOn_spec (slot : 0 ≤ lineupId) (found : outfit.gear lineupId = some gear)
    (present : (Bag.getBagItem outfit.bag guid).isSome) :
    PutOn outfit (outfit.putOn lineupId partIndex guid) lineupId partIndex guid gear := by
  let freed := outfit.release (gear.equipDict.get partIndex)
  let wearing := freed.modifyItem guid fun item => { item with lineupId := some lineupId.toNat }
  have wears := assigns_lineupId (some lineupId.toNat)
  have unfolded : outfit.putOn lineupId partIndex guid = wearing.setGear lineupId
      ⟨gear.equipDict.set partIndex (some guid),
        gear.equipInfoDict.set guid (wearing.copyOf guid)⟩ := by
    rw [Outfit.putOn, found]
    dsimp only
    rw [copyItem_eq (Outfit.setGear_gear_self ..)]
    simp only [Outfit.setGear, Function.update_idem]
    rfl
  rw [unfolded]
  have gears : freed.gear = outfit.gear := by
    change (outfit.release _).gear = _
    cases gear.equipDict.get partIndex with
    | none => rfl
    | some old => rfl
  refine ⟨Outfit.setGear_gear_self .., fun other different => ?_, ?_, fun old held different => ?_,
    fun other different not_held => ?_, fun config other => ?_⟩
  · rw [Outfit.setGear_gear_of_ne _ _ different]
    exact congrFun gears other
  · obtain ⟨item, item_found⟩ := Option.isSome_iff_exists.mp (release_present _ present)
    refine (wears.wornAt_self guid).trans ?_
    rw [item_found, Option.bind_some, slotOf, Option.map_some]
    exact congrArg some (Int.toNat_of_nonneg slot)
  · refine (wears.wornAt_of_ne different).trans ?_
    change (outfit.release (gear.equipDict.get partIndex)).wornAt old = none
    rw [held, release_self]
  · have kept := @release_of_ne outfit _ _ not_held
    exact ⟨(wears.wornAt_of_ne different).trans kept.1, (wears.copyOf_of_ne different).trans kept.2⟩
  · exact (wears.partOf guid other).trans (release_partOf config _ other)

theorem putOn_matched {after : Outfit} (put : PutOn outfit after lineupId partIndex guid gear)
    (matched : Matched config outfit) (found : outfit.gear lineupId = some gear)
    (of_part : outfit.partOf config guid = some partIndex) (off : outfit.wornAt guid = none)
    (empty : gear.equipDict.get partIndex = none) : Matched config after := by
  have others : ∀ other, other ≠ guid →
      after.wornAt other = outfit.wornAt other ∧ after.copyOf other = outfit.copyOf other := by
    intro other different
    exact put.others other different (by rw [empty]; nofun)
  have different_of_at : ∀ {name id}, outfit.wornAt name = some id → name ≠ guid := by
    rintro name id name_at rfl
    rw [off] at name_at
    cases name_at
  refine ⟨fun id other other_found index name name_held => ?_, fun name id name_at => ?_,
    fun id other other_found name => ?_⟩
  · rw [put.partOf]
    by_cases same : id = lineupId
    · subst same
      cases put.gear_self.symm.trans other_found
      by_cases same_part : index = partIndex
      · subst same_part
        rw [Table.get_set_self] at name_held
        cases name_held
        exact ⟨put.at_slot, of_part⟩
      · rw [Table.get_set_of_ne _ _ same_part] at name_held
        obtain ⟨name_at, name_part⟩ := matched.held id gear found index name name_held
        exact ⟨(others name (different_of_at name_at)).1.trans name_at, name_part⟩
    · rw [put.gears id same] at other_found
      obtain ⟨name_at, name_part⟩ := matched.held id other other_found index name name_held
      exact ⟨(others name (different_of_at name_at)).1.trans name_at, name_part⟩
  · by_cases hit : name = guid
    · subst hit
      cases put.at_slot.symm.trans name_at
      exact ⟨_, partIndex, put.gear_self, Table.get_set_self _ _ _⟩
    · rw [(others name hit).1] at name_at
      obtain ⟨old, index, old_found, name_held⟩ := matched.listed name id name_at
      by_cases same : id = lineupId
      · subst same
        cases found.symm.trans old_found
        refine ⟨_, index, put.gear_self, ?_⟩
        rw [Table.get_set_of_ne, name_held]
        rintro rfl
        rw [empty] at name_held
        cases name_held
      · exact ⟨old, index, (put.gears id same).trans old_found, name_held⟩
  · by_cases hit : name = guid
    · subst hit
      rw [put.at_slot]
      by_cases same : id = lineupId
      · subst same
        cases put.gear_self.symm.trans other_found
        rw [if_pos rfl]
        exact Table.get_set_self _ _ _
      · rw [put.gears id same] at other_found
        rw [if_neg (fun eq => same (Option.some.inj eq).symm),
          matched.copies id other other_found, off, if_neg nofun]
    · rw [(others name hit).1, (others name hit).2]
      by_cases same : id = lineupId
      · subst same
        cases put.gear_self.symm.trans other_found
        rw [Table.get_set_of_ne _ _ hit]
        exact matched.copies id gear found name
      · rw [put.gears id same] at other_found
        exact matched.copies id other other_found name

/-- A piece that is put on over another one leaves the copy of the other one behind. -/
theorem putOn_not_matched {after : Outfit} (put : PutOn outfit after lineupId partIndex guid gear)
    (matched : Matched config outfit) (found : outfit.gear lineupId = some gear) {old : String}
    (held : gear.equipDict.get partIndex = some old) (different : old ≠ guid) :
    ¬ Matched config after := by
  intro still
  obtain ⟨at_slot, -⟩ := matched.held lineupId gear found partIndex old held
  have stale := still.copies lineupId _ put.gear_self old
  rw [Table.get_set_of_ne _ _ different, matched.copies lineupId gear found, if_pos at_slot,
    put.off old held different, if_neg nofun] at stale
  have copied := Outfit.copyOf_isSome at_slot
  rw [stale] at copied
  cases copied

end

/-- A change of the equipment that keeps what is sound, and what agrees if it is sound. -/
def Keeps (config : Config) (before after : Outfit) : Prop :=
  Sound config before → Sound config after ∧ (Matched config before → Matched config after)

section
variable {config : Config} {outfit after last : Outfit} {guid : String}
  {f : Bag.Item → Bag.Item}

theorem Keeps.refl (outfit : Outfit) : Keeps config outfit outfit :=
  fun sound => ⟨sound, fun matched => matched⟩

theorem Keeps.trans (first : Keeps config outfit after) (second : Keeps config after last) :
    Keeps config outfit last := by
  intro sound
  obtain ⟨sound_after, matched_after⟩ := first sound
  obtain ⟨sound_last, matched_last⟩ := second sound_after
  exact ⟨sound_last, fun matched => matched_last (matched_after matched)⟩

/-- What is done to the bag is kept if the pieces that are worn stay as they are. -/
theorem Keeps.of_worn {bag : Bag.Role}
    (proper : Bag.Proper config.items outfit.bag.items → Bag.Proper config.items bag.items)
    (worn : bag.items.filter Bag.Item.isWorn = outfit.bag.items.filter Bag.Item.isWorn) :
    Keeps config outfit { outfit with bag } := by
  intro sound
  have proper_after := proper sound.proper
  have same : ∀ {item guid}, item.isWorn = true →
      (Bag.getBagItem bag guid = some item ↔ Bag.getBagItem outfit.bag guid = some item) := by
    intro item guid is_worn
    rw [Bag.getBagItem_eq_some proper_after.nodup, Bag.getBagItem_eq_some sound.proper.nodup]
    have mem : item ∈ bag.items.filter Bag.Item.isWorn ↔
        item ∈ outfit.bag.items.filter Bag.Item.isWorn := by rw [worn]
    simpa only [List.mem_filter, is_worn, and_true] using and_congr_left' mem
  have worn_of_slot : ∀ {item lineupId}, slotOf item = some lineupId → item.isWorn = true := by
    intro item lineupId slot
    obtain ⟨id, found, -⟩ := Option.map_eq_some_iff.mp slot
    simp [Bag.Item.isWorn, found]
  have wornAt : ∀ guid lineupId, Outfit.wornAt { outfit with bag } guid = some lineupId ↔
      outfit.wornAt guid = some lineupId := by
    intro guid lineupId
    rw [Outfit.wornAt_eq_some, Outfit.wornAt_eq_some]
    exact exists_congr fun item => and_congr_left fun slot => same (worn_of_slot slot)
  refine ⟨⟨proper_after, sound.slots⟩, fun matched => ⟨?_, ?_, ?_⟩⟩
  · intro lineupId gear found partIndex guid held
    obtain ⟨at_slot, of_part⟩ := matched.held lineupId gear found partIndex guid held
    refine ⟨(wornAt guid lineupId).mpr at_slot, ?_⟩
    obtain ⟨item, item_found, slot⟩ := Outfit.wornAt_eq_some.mp at_slot
    obtain ⟨other, other_found, part⟩ := Outfit.partOf_eq_some.mp of_part
    cases item_found.symm.trans other_found
    exact Outfit.partOf_eq_some.mpr ⟨item, (same (worn_of_slot slot)).mpr item_found, part⟩
  · intro guid lineupId at_slot
    exact matched.listed guid lineupId ((wornAt guid lineupId).mp at_slot)
  · intro lineupId gear found guid
    rw [matched.copies lineupId gear found guid]
    by_cases at_slot : outfit.wornAt guid = some lineupId
    · rw [if_pos at_slot, if_pos ((wornAt guid lineupId).mpr at_slot)]
      obtain ⟨item, item_found, slot⟩ := Outfit.wornAt_eq_some.mp at_slot
      rw [Outfit.copyOf, Outfit.copyOf, item_found, (same (worn_of_slot slot)).mpr item_found]
    · rw [if_neg at_slot, if_neg (fun at_after => at_slot ((wornAt guid lineupId).mp at_after))]

/-- What is assigned to a piece leaves its slot alone as well. -/
structure Trains (f : Bag.Item → Bag.Item) : Prop extends Assigns f where
  lineupId : ∀ item, (f item).lineupId = item.lineupId

theorem Trains.wornAt (trains : Trains f) (guid other : String) :
    (outfit.modifyItem guid f).wornAt other = outfit.wornAt other := by
  by_cases same : other = guid
  · subst same
    rw [trains.toAssigns.wornAt_self, Outfit.wornAt]
    refine congrArg _ (funext fun item => ?_)
    rw [slotOf, slotOf, trains.lineupId]
  · exact trains.toAssigns.wornAt_of_ne same

theorem Matched.renew (matched : Matched config outfit)
    (wornAt : ∀ name, after.wornAt name = outfit.wornAt name)
    (partOf : ∀ name, after.partOf config name = outfit.partOf config name)
    (gears : ∀ id, (after.gear id).map Gear.equipDict = (outfit.gear id).map Gear.equipDict)
    (copies : ∀ id gear, after.gear id = some gear → ∀ name,
      gear.equipInfoDict.get name =
        if outfit.wornAt name = some id then after.copyOf name else none) :
    Matched config after := by
  refine ⟨fun id gear found index name held => ?_, fun name id name_at => ?_,
    fun id gear found name => ?_⟩
  · have same := gears id
    rw [found, Option.map_some] at same
    obtain ⟨old, old_found, equal⟩ := Option.map_eq_some_iff.mp same.symm
    rw [wornAt, partOf]
    exact matched.held id old old_found index name (by rw [equal]; exact held)
  · rw [wornAt] at name_at
    obtain ⟨old, index, old_found, held⟩ := matched.listed name id name_at
    have same := gears id
    rw [old_found, Option.map_some] at same
    obtain ⟨gear, found, equal⟩ := Option.map_eq_some_iff.mp same
    exact ⟨gear, index, found, by rw [equal]; exact held⟩
  · rw [wornAt]
    exact copies id gear found name

/-- Training keeps the records in step if it looks for the copy where the piece is worn. -/
theorem train_keeps (trains : Trains f) (extra : Extra) {lineupId : Option Int}
    (tracked : ∀ item, Bag.getBagItem outfit.bag guid = some item → slotOf item = lineupId) :
    Keeps config outfit (outfit.train guid lineupId f extra) := by
  intro sound
  let trained : Outfit :=
    { outfit.modifyItem guid f with extra := Function.update outfit.extra guid extra }
  have trained_sound : Sound config trained := by
    have kept := @Assigns.sound config outfit _ trains.toAssigns sound guid fun item mem _ is_worn => by
      rw [Bag.Item.isWorn, trains.lineupId] at is_worn
      exact sound.proper.equips item mem is_worn
    exact ⟨kept.proper, kept.slots⟩
  have wornAt : ∀ name, trained.wornAt name = outfit.wornAt name := trains.wornAt guid
  have partOf : ∀ name, trained.partOf config name = outfit.partOf config name :=
    trains.toAssigns.partOf guid
  have copyOf : ∀ name, name ≠ guid → trained.copyOf name = outfit.copyOf name := by
    intro name different
    rw [← @Assigns.copyOf_of_ne outfit _ trains.toAssigns _ _ different]
    refine congrFun (congrArg _ (funext fun item => ?_)) _
    exact congrArg _ (Function.update_of_ne different _ _)
  have tracked_slot : ∀ id, outfit.wornAt guid = some id → lineupId = some id := by
    intro id at_slot
    obtain ⟨item, found, slot⟩ := Outfit.wornAt_eq_some.mp at_slot
    exact (tracked item found).symm.trans slot
  -- The copies of the other pieces, and of a slot that the piece is not worn in, are still right.
  have copied : Matched config outfit → ∀ id gear, outfit.gear id = some gear → ∀ name,
      (name ≠ guid ∨ lineupId ≠ some id) → gear.equipInfoDict.get name =
        if outfit.wornAt name = some id then trained.copyOf name else none := by
    intro matched id gear found name apart
    rw [matched.copies id gear found name]
    by_cases hit : name = guid
    · subst hit
      have elsewhere : outfit.wornAt name ≠ some id := by
        intro at_slot
        exact apart.resolve_left (not_not.mpr rfl) (tracked_slot id at_slot)
      rw [if_neg elsewhere, if_neg elsewhere]
    · rw [copyOf name hit]
  cases lineupId with
  | none =>
      refine ⟨trained_sound, fun matched => ?_⟩
      exact matched.renew wornAt partOf (fun _ => rfl) fun id gear found name =>
        copied matched id gear found name (.inr (by rintro ⟨⟩))
  | some lineupId =>
      change Sound config (trained.copyItem lineupId guid) ∧
        (_ → Matched config (trained.copyItem lineupId guid))
      refine ⟨copyItem_sound trained_sound lineupId guid, fun matched => ?_⟩
      cases found : outfit.gear lineupId with
      | none =>
          have unchanged : trained.copyItem lineupId guid = trained := by
            rw [Outfit.copyItem, show trained.gear lineupId = none from found]
          rw [unchanged]
          refine matched.renew wornAt partOf (fun _ => rfl) fun id gear gear_found name =>
            copied matched id gear gear_found name (.inr ?_)
          rintro ⟨⟩
          cases found.symm.trans gear_found
      | some gear =>
          have renewed : trained.copyItem lineupId guid = trained.setGear lineupId
              { gear with equipInfoDict := gear.equipInfoDict.set guid (trained.copyOf guid) } :=
            copyItem_eq (show trained.gear lineupId = some gear from found) guid
          rw [renewed]
          refine matched.renew wornAt partOf (fun id => ?_) fun id after after_found name => ?_
          · by_cases same : id = lineupId
            · subst same
              rw [Outfit.setGear_gear_self, found]
              rfl
            · rw [Outfit.setGear_gear_of_ne _ _ same]
              rfl
          · change _ = if _ then trained.copyOf name else none
            by_cases same : id = lineupId
            · subst same
              rw [Outfit.setGear_gear_self] at after_found
              cases after_found
              by_cases hit : name = guid
              · subst hit
                refine (Table.get_set_self _ _ _).trans ?_
                by_cases at_slot : outfit.wornAt name = some id
                · rw [if_pos at_slot]
                · rw [if_neg at_slot]
                  -- The piece is gone: it was an item to consume as well.
                  cases gone : Bag.getBagItem outfit.bag name with
                  | none =>
                      change Option.map _ (Bag.getBagItem (modifyItem outfit.bag name f) name) = _
                      rw [getBagItem_modifyItem _ _ _ trains.guid, if_pos rfl, gone]
                      rfl
                  | some item =>
                      exact absurd (Outfit.wornAt_eq_some.mpr ⟨item, gone, tracked item gone⟩)
                        at_slot
              · rw [Table.get_set_of_ne _ _ hit]
                exact copied matched id gear found name (.inl hit)
            · rw [Outfit.setGear_gear_of_ne _ _ same] at after_found
              refine copied matched id after after_found name (.inr ?_)
              rintro ⟨⟩
              exact same rfl

theorem modifyItem_keeps (trains : Trains f) (off : outfit.wornAt guid = none) :
    Keeps config outfit (outfit.modifyItem guid f) := by
  have trained : Keeps config outfit (outfit.train guid none f (outfit.extra guid)) :=
    train_keeps trains _ fun item found => Option.bind_eq_none_iff.mp off item found
  rw [Outfit.train, Function.update_eq_self] at trained
  exact trained

end

end UEServer.Hero
