import UEServer.Bag.Consume
import UEServer.Bag.Pile
import UEServer.Bag.Spares
import UEServer.Library.Execution

/-!
# Stacking preserves items

Adding and consuming change the total of one item by exactly the count, sorting changes no total, and no
stack ever gets empty or overfull.
-/

namespace UEServer.Bag

open Execution

section
variable {data : StackData} {items after : List Item} {item : Item} {itemId : Nat}

theorem stacked_cons (item : Item) (items : List Item) (id : Nat) :
    stacked (item :: items) id = (if item.itemId = id then item.count else 0) + stacked items id := by
  rw [stacked, countWhere_cons]
  by_cases same : item.itemId = id <;> simp [same, stacked]

theorem stacked_recount (item : Item) (count : Int) (items : List Item) (id : Nat) :
    stacked ({ item with count := count } :: items) id =
      (if item.itemId = id then count else 0) + stacked items id :=
  stacked_cons { item with count := count } items id

theorem stacked_nil (id : Nat) : stacked [] id = 0 := rfl

theorem stacked_append (front back : List Item) (id : Nat) :
    stacked (front ++ back) id = stacked front id + stacked back id := by
  simp [stacked, countWhere]

theorem stacked_perm (perm : items.Perm after) : stacked items = stacked after := by
  funext id
  exact ((perm.filter _).map Item.count).sum_eq

theorem inBounds_cons : InBounds data (item :: items) ↔
    ((data.config item.itemId).isSome ∧ 1 ≤ item.count ∧ item.count ≤ data.maxPlus item.itemId) ∧
      InBounds data items :=
  List.forall_mem_cons

theorem inBounds_append {front back : List Item} :
    InBounds data (front ++ back) ↔ InBounds data front ∧ InBounds data back :=
  List.forall_mem_append

structure PiledInto (data : StackData) (itemId : Nat) (addCount : Int) (items : List Item)
    (left : Int) (after : List Item) : Prop where
  nonneg : 0 ≤ left
  stacked : ∀ id, stacked after id = stacked items id + if id = itemId then addCount - left else 0
  inBounds : InBounds data after

theorem PiledInto.keep {addCount left : Int} (piled : PiledInto data itemId addCount items left after)
    (here : InBounds data [item]) :
    PiledInto data itemId addCount (item :: items) left (item :: after) where
  nonneg := piled.nonneg
  stacked id := by
    rw [stacked_cons, stacked_cons, piled.stacked, Int.add_assoc]
  inBounds := inBounds_append.mpr ⟨here, piled.inBounds⟩

theorem pileInto_spec (inBounds : InBounds data items) {addCount : Int} (positive : 0 < addCount) :
    PiledInto data itemId addCount items (pileInto data itemId addCount items).1
      (pileInto data itemId addCount items).2 := by
  induction items generalizing addCount with
  | nil => exact ⟨positive.le, fun id => by simp [pileInto], inBounds⟩
  | cons item items ih =>
      obtain ⟨⟨known, low, high⟩, rest⟩ := inBounds_cons.mp inBounds
      rw [pileInto]
      by_cases room : item.itemId = itemId ∧ item.count < data.maxPlus itemId
      · rw [if_pos room]
        obtain ⟨same, room⟩ := room
        subst same
        by_cases enough : item.count + addCount ≤ data.maxPlus item.itemId
        · rw [if_pos enough]
          refine ⟨le_rfl, fun id => ?_, inBounds_cons.mpr ⟨⟨known, ?_, enough⟩, rest⟩⟩
          · rw [stacked_recount, stacked_cons]
            by_cases here : item.itemId = id
            · omega
            · omega
          · dsimp only
            omega
        · rw [if_neg enough]
          dsimp only
          have later := ih rest (show 0 < addCount - (data.maxPlus item.itemId - item.count) by omega)
          refine ⟨later.nonneg, fun id => ?_, inBounds_cons.mpr ⟨⟨known, ?_, le_rfl⟩, later.inBounds⟩⟩
          · rw [stacked_recount, stacked_cons, later.stacked]
            by_cases here : item.itemId = id
            · omega
            · rw [if_neg here, if_neg here, if_neg (Ne.symm here), if_neg (Ne.symm here),
                Int.add_assoc]
          · exact data.positive item.itemId
      · rw [if_neg room]
        exact (ih rest positive).keep (inBounds_cons.mpr ⟨⟨known, low, high⟩, fun _ mem => absurd mem
          List.not_mem_nil⟩)

theorem newStacks_spec (known : (data.config itemId).isSome) (names : ℕ → String) (i : ℕ)
    {addCount : Int} (nonneg : 0 ≤ addCount) :
    (∀ id, stacked (newStacks data itemId names i addCount) id =
        if id = itemId then addCount else 0) ∧
      InBounds data (newStacks data itemId names i addCount) := by
  induction i, addCount using newStacks.induct data itemId with
  | case1 i addCount positive fits =>
      rw [newStacks, if_pos positive, if_pos fits]
      refine ⟨fun id => ?_, inBounds_cons.mpr ⟨⟨known, positive, fits⟩, fun _ mem => absurd mem
        List.not_mem_nil⟩⟩
      rw [stacked_recount, stacked_nil, Int.add_zero]
      exact if_congr eq_comm rfl rfl
  | case2 i addCount positive more ih =>
      obtain ⟨total, inBounds⟩ := ih (by omega)
      rw [newStacks, if_pos positive, if_neg more]
      refine ⟨fun id => ?_, inBounds_cons.mpr ⟨⟨known, data.positive itemId, le_rfl⟩, inBounds⟩⟩
      rw [stacked_recount, total]
      by_cases same : id = itemId
      · rw [if_pos (show (buildNewItem itemId (names i)).itemId = id from same.symm), if_pos same,
          if_pos same]
        omega
      · rw [if_neg (show ¬ (buildNewItem itemId (names i)).itemId = id from Ne.symm same), if_neg same,
          if_neg same]
        omega
  | case3 i addCount nothing =>
      obtain rfl : addCount = 0 := by omega
      rw [newStacks, if_neg nothing]
      exact ⟨fun id => by simp [stacked_nil], fun _ mem => absurd mem List.not_mem_nil⟩

theorem singles_spec (known : (data.config itemId).isSome) (names : ℕ → String) (n : ℕ) :
    (∀ id, stacked ((List.range n).map fun i => buildNewItem itemId (names i)) id =
        if id = itemId then (n : Int) else 0) ∧
      InBounds data ((List.range n).map fun i => buildNewItem itemId (names i)) := by
  induction n with
  | zero => exact ⟨fun id => by simp [stacked_nil], fun _ mem => absurd mem List.not_mem_nil⟩
  | succ n ih =>
      obtain ⟨total, inBounds⟩ := ih
      rw [List.range_succ, List.map_append]
      refine ⟨fun id => ?_, inBounds_append.mpr ⟨inBounds, ?_⟩⟩
      · rw [stacked_append, total, List.map_singleton, stacked_cons, stacked_nil]
        by_cases same : id = itemId
        · rw [if_pos same, if_pos (show (buildNewItem itemId (names n)).itemId = id from same.symm),
            if_pos same, Nat.cast_succ]
          rfl
        · rw [if_neg same, if_neg (show ¬ (buildNewItem itemId (names n)).itemId = id from Ne.symm same),
            if_neg same]
          rfl
      · exact inBounds_cons.mpr ⟨⟨known, le_rfl, data.positive itemId⟩, fun _ mem => absurd mem
          List.not_mem_nil⟩

variable {count : Int}

theorem addItemProp_spec {role added : Role} {names : ℕ → String}
    (inBounds : InBounds data role.items)
    (called : addItemProp data role itemId count names = some added) :
    Changed role added itemId count ∧ InBounds data added.items := by
  rw [addItemProp] at called
  split at called
  · cases called
  · obtain ⟨config, found, called⟩ := Option.bind_eq_some_iff.mp called
    have known : (data.config itemId).isSome := by rw [found]; rfl
    split at called
    · obtain ⟨items, piled, rfl⟩ := Option.map_eq_some_iff.mp called
      have into := @pileInto_spec _ _ itemId inBounds _ (show 0 < count by omega)
      rw [pileBagItem] at piled
      split at piled
      · rename_i nothing
        cases piled
        refine ⟨fun id => ?_, into.inBounds⟩
        have total := into.stacked id
        rwa [nothing, Int.sub_zero] at total
      · split at piled
        · cases piled
          obtain ⟨total, bounds⟩ := newStacks_spec known names 0 into.nonneg
          refine ⟨fun id => ?_, inBounds_append.mpr ⟨into.inBounds, bounds⟩⟩
          rw [stacked_append, into.stacked, total]
          split <;> omega
        · cases piled
    · split at called
      · cases called
        obtain ⟨total, bounds⟩ := singles_spec known names count.toNat
        refine ⟨fun id => ?_, inBounds_append.mpr ⟨inBounds, bounds⟩⟩
        rw [stacked_append, total]
        split <;> omega
      · cases called

theorem addItemProp_currency {role added : Role} {names : ℕ → String}
    (called : addItemProp data role itemId count names = some added) :
    added.currency = role.currency := by
  rw [addItemProp] at called
  split at called
  · cases called
  · obtain ⟨config, -, called⟩ := Option.bind_eq_some_iff.mp called
    split at called
    · obtain ⟨items, -, rfl⟩ := Option.map_eq_some_iff.mp called
      rfl
    · split at called
      · cases called
        rfl
      · cases called

variable {role : Role}

theorem addItemProp_isSome (stackable : data.Stackable itemId)
    (positive : 0 < count) (names : ℕ → String) :
    ∃ added, addItemProp data role itemId count names = some added := by
  obtain ⟨many, config, found, -, -, -, not_pet, not_title⟩ := stackable
  have builds : config.builds = true := by simp [ItemConfig.builds, not_pet, not_title]
  rw [addItemProp, if_neg (by omega), found, Option.bind_some, if_pos many, pileBagItem]
  split <;> exact ⟨_, rfl⟩

def Remains (items after : List Item) : Prop :=
  ∀ item ∈ after, ∃ old ∈ items, item.itemId = old.itemId ∧ 1 ≤ item.count ∧ item.count ≤ old.count

theorem Remains.inBounds (remains : Remains items after) (inBounds : InBounds data items) :
    InBounds data after := by
  intro item mem
  obtain ⟨old, old_mem, same, low, le⟩ := remains item mem
  obtain ⟨known, -, high⟩ := inBounds old old_mem
  rw [same]
  exact ⟨known, low, le.trans high⟩

theorem remains_of_subset (positive : ∀ item ∈ items, 1 ≤ item.count) (subset : after ⊆ items) :
    Remains items after :=
  fun item mem => ⟨item, subset mem, rfl, positive item (subset mem), le_rfl⟩

theorem Remains.cons (remains : Remains items after) (positive : 1 ≤ item.count) :
    Remains (item :: items) (item :: after) := by
  intro kept mem
  rcases List.mem_cons.mp mem with rfl | later
  · exact ⟨kept, List.mem_cons_self, rfl, positive, le_rfl⟩
  · obtain ⟨old, old_mem, same⟩ := remains kept later
    exact ⟨old, List.mem_cons_of_mem _ old_mem, same⟩

theorem Remains.drop (remains : Remains items after) : Remains (item :: items) after := by
  intro kept mem
  obtain ⟨old, old_mem, same⟩ := remains kept mem
  exact ⟨old, List.mem_cons_of_mem _ old_mem, same⟩

theorem remains_recount (positive : ∀ other ∈ item :: items, 1 ≤ other.count)
    (low : 1 ≤ count) (high : count ≤ item.count) :
    Remains (item :: items) ({ item with count := count } :: items) := by
  intro kept mem
  rcases List.mem_cons.mp mem with rfl | later
  · exact ⟨item, List.mem_cons_self, rfl, low, high⟩
  · have here := List.mem_cons_of_mem item later
    exact ⟨kept, here, rfl, positive kept here, le_rfl⟩

theorem Remains.reverse (remains : Remains items.reverse after) : Remains items after.reverse := by
  intro item mem
  obtain ⟨old, old_mem, same⟩ := remains item (List.mem_reverse.mp mem)
  exact ⟨old, List.mem_reverse.mp old_mem, same⟩

theorem consumeStacks_remains (positive : ∀ item ∈ items, 1 ≤ item.count) (count : Int) :
    Remains items (consumeStacks itemId count items) := by
  induction items generalizing count with
  | nil => exact fun _ mem => absurd mem List.not_mem_nil
  | cons item items ih =>
      have first := positive item List.mem_cons_self
      have rest := ih fun other mem => positive other (List.mem_cons_of_mem _ mem)
      rw [consumeStacks]
      split
      · exact remains_of_subset positive (List.Subset.refl _)
      · split
        · split
          · exact remains_recount positive (by omega) (by omega)
          · exact (rest _).drop
        · exact (rest _).cons first

theorem consumeEquips_subset (force : Bool) (count : Int) :
    consumeEquips force itemId count items ⊆ items := by
  induction items generalizing count with
  | nil => exact List.Subset.refl _
  | cons item items ih =>
      rw [consumeEquips]
      split
      · exact List.Subset.refl _
      · split
        · exact List.subset_cons_of_subset item (ih _)
        · exact List.cons_subset_cons item (ih _)

theorem subcountBagItem_remains {guid : String} (positive : ∀ item ∈ items, 1 ≤ item.count)
    {subCount : Int} (low : 0 ≤ subCount)
    (found : items.find? (·.guid = guid) = some item) (less : subCount < item.count) :
    Remains items (subcountBagItem guid subCount items) := by
  induction items with
  | nil => cases found
  | cons first items ih =>
      rw [subcountBagItem]
      by_cases same : first.guid = guid
      · rw [List.find?_cons_of_pos (by simpa using same)] at found
        cases found
        rw [if_pos same]
        exact remains_recount positive (by omega) (by omega)
      · rw [List.find?_cons_of_neg (by simpa using same)] at found
        rw [if_neg same]
        exact (ih (fun other mem => positive other (List.mem_cons_of_mem _ mem)) found).cons
          (positive first List.mem_cons_self)

theorem subCurrency_items (role : Role) (itemId : Nat) (value : Int) :
    (subCurrency role itemId value).items = role.items := by
  rw [subCurrency]
  split <;> rfl

theorem consumeItemProp_remains {role taken : Role} {guid : Option String}
    (positive : ∀ item ∈ role.items, 1 ≤ item.count)
    (consumed : consumeItemProp role itemId count guid = some taken) :
    Remains role.items taken.items := by
  cases guid with
  | none =>
      cases consumed
      exact (consumeStacks_remains
        (fun item mem => positive item (List.mem_reverse.mp mem)) count).reverse
  | some guid =>
      obtain ⟨item, found, rfl⟩ := Option.map_eq_some_iff.mp consumed
      split
      · exact remains_of_subset positive List.eraseP_subset
      · split
        · exact remains_of_subset positive (List.Subset.refl _)
        · exact subcountBagItem_remains positive (by omega) found (by omega)

theorem consumeItem_remains {role taken : Role} {force : Bool} {required : Required}
    (positive : ∀ item ∈ role.items, 1 ≤ item.count)
    (consumed : consumeItem data.toItemData force role required = some taken) :
    Remains role.items taken.items := by
  have same : Remains role.items role.items := remains_of_subset positive (List.Subset.refl _)
  obtain ⟨can, -, consumed⟩ := Option.bind_eq_some_iff.mp consumed
  cases can with
  | false =>
      cases consumed
      exact same
  | true =>
      obtain ⟨id, -, consumed⟩ := Option.bind_eq_some_iff.mp consumed
      obtain ⟨config, -, consumed⟩ := Option.bind_eq_some_iff.mp consumed
      rw [itemMapperConsume] at consumed
      cases kind : config.itemType with
      | virtual =>
          rw [kind] at consumed
          dsimp only at consumed
          split at consumed
          · cases consumed
            rwa [subCurrency_items]
          · cases consumed
      | equip =>
          rw [kind] at consumed
          cases consumed
          cases required.guid with
          | none =>
              refine remains_of_subset positive fun item mem => ?_
              exact List.mem_reverse.mp (consumeEquips_subset force _ (List.mem_reverse.mp mem))
          | some guid => exact remains_of_subset positive List.eraseP_subset
      | pet | title =>
          rw [kind] at consumed
          cases consumed
      | default | prop | stuff | hero | lover =>
          rw [kind] at consumed
          exact consumeItemProp_remains positive consumed

theorem consumeItem_inBounds {role taken : Role} {force : Bool} {required : Required}
    (inBounds : InBounds data role.items)
    (consumed : consumeItem data.toItemData force role required = some taken) :
    InBounds data taken.items :=
  (consumeItem_remains (fun item mem => (inBounds item mem).2.1) consumed).inBounds inBounds

theorem stacked_eraseP {guid : String} (found : items.find? (·.guid = guid) = some item) (id : Nat) :
    stacked (items.eraseP (·.guid = guid)) id =
      stacked items id - if id = item.itemId then item.count else 0 := by
  induction items with
  | nil => cases found
  | cons first items ih =>
      by_cases same : first.guid = guid
      · rw [List.find?_cons_of_pos (by simpa using same)] at found
        cases found
        rw [List.eraseP_cons_of_pos (by simpa using same), stacked_cons, if_congr eq_comm rfl rfl]
        omega
      · rw [List.find?_cons_of_neg (by simpa using same)] at found
        rw [List.eraseP_cons_of_neg (by simpa using same), stacked_cons, stacked_cons, ih found]
        omega

theorem stacked_subcountBagItem {guid : String} {subCount : Int}
    (found : items.find? (·.guid = guid) = some item) (id : Nat) :
    stacked (subcountBagItem guid subCount items) id =
      stacked items id - if id = item.itemId then subCount else 0 := by
  induction items with
  | nil => cases found
  | cons first items ih =>
      rw [subcountBagItem]
      by_cases same : first.guid = guid
      · rw [List.find?_cons_of_pos (by simpa using same)] at found
        cases found
        rw [if_pos same, stacked_recount, stacked_cons]
        by_cases here : item.itemId = id
        · omega
        · omega
      · rw [List.find?_cons_of_neg (by simpa using same)] at found
        rw [if_neg same, stacked_cons, stacked_cons, ih found]
        omega

theorem Stackable.mapper (stackable : data.Stackable itemId) :
    ∃ config, data.config itemId = some config ∧ config.subType = .other ∧
      config.itemType ≠ .virtual ∧ ∀ role count guid force,
        itemMapperConsume force role config itemId count guid =
          consumeItemProp role itemId count guid := by
  obtain ⟨-, config, found, other, not_virtual, not_equip, not_pet, not_title⟩ := stackable
  refine ⟨config, found, other, not_virtual, fun role count guid force => ?_⟩
  rw [itemMapperConsume]
  cases kind : config.itemType with
  | virtual => exact absurd kind not_virtual
  | equip => exact absurd kind not_equip
  | pet => exact absurd kind not_pet
  | title => exact absurd kind not_title
  | default | prop | stuff | hero | lover => rfl

theorem canConsumeItem_stack (stackable : data.Stackable itemId)
    (force : Bool) (nonneg : 0 ≤ count) :
    canConsumeItem data.toItemData force role { itemId, count } =
      some (decide (count ≤ stacked role.items itemId)) := by
  obtain ⟨config, found, other, not_virtual, -⟩ := Stackable.mapper stackable
  simp only [canConsumeItem, if_neg (not_lt.mpr nonneg), Required.id?, Option.bind_some, found, other,
    getItemCount, if_neg not_virtual, Option.map_some]
  rfl

/-- A count of a stackable item that is covered is taken from its stacks. -/
theorem consumeItem_stack (positive : ∀ item ∈ role.items, 1 ≤ item.count)
    (stackable : data.Stackable itemId) (force : Bool) (nonneg : 0 ≤ count)
    (enough : count ≤ stacked role.items itemId) :
    ∃ items, consumeItem data.toItemData force role { itemId, count } =
        some { role with items := items } ∧
      Changed role { role with items := items } itemId (-count) := by
  obtain ⟨config, found, -, -, mapper⟩ := Stackable.mapper stackable
  have covered : count ≤ countWhere (fun item => item.itemId = itemId) role.items.reverse := by
    rwa [countWhere_reverse]
  have consumed := (consumeStacks_consumed
    (fun item mem => positive item (List.mem_reverse.mp mem)) nonneg covered).reverse
  refine ⟨(consumeStacks itemId count role.items.reverse).reverse, ?_, fun id => ?_⟩
  · rw [consumeItem, canConsumeItem_stack stackable force nonneg, Option.bind_some,
      if_pos (decide_eq_true enough), Required.id?, Option.bind_some, found, Option.bind_some, mapper,
      consumeItemProp]
  · by_cases same : id = itemId
    · subst same
      rw [if_pos rfl]
      exact consumed.taken
    · rw [if_neg same, Int.add_zero]
      refine consumed.count_of_disjoint fun item qualified => decide_eq_false ?_
      intro here
      exact same (here.symm.trans (of_decide_eq_true qualified))

theorem consume_id (positive : ∀ item ∈ role.items, 1 ≤ item.count)
    (stackable : data.Stackable itemId) (force : Bool) (nonneg : 0 ≤ count) :
    ∃ after, bagStep data role (.consume force { itemId, count }) = some after ∧
      if count ≤ stacked role.items itemId then Changed role after itemId (-count)
      else after = role := by
  by_cases enough : count ≤ stacked role.items itemId
  · simp only [if_pos enough]
    obtain ⟨items, consumed, changed⟩ :=
      consumeItem_stack positive stackable force nonneg enough
    exact ⟨_, consumed, changed⟩
  · simp only [if_neg enough]
    refine ⟨role, ?_, rfl⟩
    rw [bagStep, consumeItem, canConsumeItem_stack stackable force nonneg, Option.bind_some,
      if_neg (by simpa using enough)]

theorem consume_guid {guid : String}
    (held : getBagItem role guid = some item) (named : itemIdFromGuid guid = some itemId)
    (stackable : data.Stackable itemId) (force : Bool) (nonneg : 0 ≤ count) :
    ∃ after, bagStep data role (.consume force { itemId, count, guid := some guid }) = some after ∧
      if count ≤ item.count then Changed role after item.itemId (-count) else after = role := by
  obtain ⟨config, found, other, not_virtual, mapper⟩ := Stackable.mapper stackable
  have can : canConsumeItem data.toItemData force role { itemId, count, guid := some guid } =
      some (decide (count ≤ item.count)) := by
    simp only [canConsumeItem, if_neg (not_lt.mpr nonneg), Required.id?, named, Option.bind_some, found,
      other, getItemCount, if_neg not_virtual, held, Option.map_some, ge_iff_le]
  by_cases enough : count ≤ item.count
  · simp only [if_pos enough]
    have step : bagStep data role (.consume force { itemId, count, guid := some guid }) =
        consumeItemProp role itemId count (some guid) := by
      have id : ({ itemId, count, guid := some guid } : Required).id? = some itemId := named
      rw [bagStep, consumeItem, can, Option.bind_some, if_pos (decide_eq_true enough), id,
        Option.bind_some, found, Option.bind_some, mapper]
    rw [step, consumeItemProp, held, Option.map_some]
    refine ⟨_, rfl, fun id => ?_⟩
    split
    · rename_i whole
      rw [stacked_eraseP held, whole]
      split <;> omega
    · split
      · obtain rfl : count = 0 := by omega
        simp
      · rw [stacked_subcountBagItem held]
        split <;> omega
  · simp only [if_neg enough]
    refine ⟨role, ?_, rfl⟩
    rw [bagStep, consumeItem, can, Option.bind_some, if_neg (by simpa using enough)]

/-- The stack before an item has room for it. -/
def HasRoom (data : StackData) (prevItem item : Item) : Prop :=
  prevItem.itemId = item.itemId ∧ 1 < data.maxPlus item.itemId ∧
    prevItem.count < data.maxPlus item.itemId

instance (data : StackData) (prevItem item : Item) : Decidable (HasRoom data prevItem item) :=
  inferInstanceAs (Decidable (_ ∧ _ ∧ _))

/-- The loop of `sort_item_list` from an item on, with the item before it: a stack takes what fits from
the one after it. -/
def pileRest (data : StackData) : Item → List Item → List Item
  | prevItem, [] => [prevItem]
  | prevItem, item :: rest =>
      if HasRoom data prevItem item then
        if prevItem.count + item.count ≤ data.maxPlus item.itemId then
          pileRest data { prevItem with count := prevItem.count + item.count } rest
        else
          { prevItem with count := data.maxPlus item.itemId } ::
            pileRest data
              { item with count := item.count - (data.maxPlus item.itemId - prevItem.count) } rest
      else prevItem :: pileRest data item rest

theorem modify_here (front : List Item) (item : Item) (rest : List Item) (change : Item → Item) :
    (front ++ item :: rest).modify front.length change = front ++ change item :: rest := by
  induction front with
  | nil => rfl
  | cons first front ih =>
      rw [List.length_cons, List.cons_append, List.modify_succ_cons, ih]
      rfl

theorem modify_next (front : List Item) (prevItem item : Item) (rest : List Item)
    (change : Item → Item) :
    (front ++ prevItem :: item :: rest).modify (front.length + 1) change =
      front ++ prevItem :: change item :: rest := by
  have moved := modify_here (front ++ [prevItem]) item rest change
  rwa [List.length_append, List.append_assoc, List.append_assoc] at moved

section
variable {front rest : List Item} {prevItem : Item}

section
variable (known : (data.config item.itemId).isSome)
include known

theorem pileFunc_found :
    pileFunc data (front ++ prevItem :: item :: rest) (front.length + 2) item =
      if data.maxPlus item.itemId ≤ 1 then some (false, front ++ prevItem :: item :: rest)
      else some
        (if prevItem.itemId ≠ item.itemId then (false, front ++ prevItem :: item :: rest)
        else if data.maxPlus item.itemId ≤ prevItem.count then
          (false, front ++ prevItem :: item :: rest)
        else if prevItem.count + item.count ≤ data.maxPlus item.itemId then
          (true, front ++ addcountBagItem item.count prevItem :: rest)
        else
          (false, front ++ addcountBagItem (data.maxPlus item.itemId - prevItem.count) prevItem ::
            subcountItem (data.maxPlus item.itemId - prevItem.count) item :: rest)) := by
  obtain ⟨config, found⟩ := Option.isSome_iff_exists.mp known
  have prev : (front ++ prevItem :: item :: rest)[front.length]? = some prevItem := by simp
  have erased : (front ++ prevItem :: item :: rest).eraseIdx (front.length + 1) =
      front ++ prevItem :: rest := by
    rw [List.eraseIdx_append_of_length_le (Nat.le_succ _), Nat.succ_sub (le_refl _), Nat.sub_self]
    rfl
  rw [pileFunc, found, Option.bind_some, Nat.add_sub_cancel, prev, Option.map_some,
    show front.length + 2 - 1 = front.length + 1 from rfl, erased, modify_here]
  dsimp only
  rw [modify_next, modify_here]

theorem pileFunc_of_not_room (full : ¬ HasRoom data prevItem item) :
    pileFunc data (front ++ prevItem :: item :: rest) (front.length + 2) item =
      some (false, front ++ prevItem :: item :: rest) := by
  rw [pileFunc_found known]
  split
  · rfl
  · rename_i many
    split
    · rfl
    · rename_i same
      rw [if_pos]
      by_contra less
      exact full ⟨not_not.mp same, not_le.mp many, not_le.mp less⟩

theorem pileFunc_of_fits (low : 1 ≤ item.count) (room : HasRoom data prevItem item)
    (fits : prevItem.count + item.count ≤ data.maxPlus item.itemId) :
    pileFunc data (front ++ prevItem :: item :: rest) (front.length + 2) item =
      some (true, front ++ { prevItem with count := prevItem.count + item.count } :: rest) := by
  obtain ⟨same, many, less⟩ := room
  rw [pileFunc_found known, if_neg (not_le.mpr many), if_neg (not_not.mpr same),
    if_neg (not_le.mpr less), if_pos fits, addcountBagItem, if_neg (by omega)]

theorem pileFunc_of_fills (room : HasRoom data prevItem item)
    (fills : ¬ prevItem.count + item.count ≤ data.maxPlus item.itemId) :
    pileFunc data (front ++ prevItem :: item :: rest) (front.length + 2) item =
      some (false, front ++ { prevItem with count := data.maxPlus item.itemId } ::
        { item with count := item.count - (data.maxPlus item.itemId - prevItem.count) } :: rest) := by
  obtain ⟨same, many, less⟩ := room
  rw [pileFunc_found known, if_neg (not_le.mpr many), if_neg (not_not.mpr same),
    if_neg (not_le.mpr less), if_neg fills, addcountBagItem, if_neg (by omega), subcountItem,
    if_neg (by omega), add_sub_cancel]

end

theorem inBounds_fits (inBounds : InBounds data (prevItem :: item :: rest))
    (room : HasRoom data prevItem item)
    (fits : prevItem.count + item.count ≤ data.maxPlus item.itemId) :
    InBounds data ({ prevItem with count := prevItem.count + item.count } :: rest) := by
  obtain ⟨⟨known, low, -⟩, inBounds⟩ := inBounds_cons.mp inBounds
  obtain ⟨⟨-, item_low, -⟩, inBounds⟩ := inBounds_cons.mp inBounds
  refine inBounds_cons.mpr ⟨⟨known, ?_, ?_⟩, inBounds⟩
  · dsimp only
    omega
  · rw [room.1]
    exact fits

theorem inBounds_fills (inBounds : InBounds data (prevItem :: item :: rest))
    (room : HasRoom data prevItem item)
    (fills : ¬ prevItem.count + item.count ≤ data.maxPlus item.itemId) :
    InBounds data
      ({ item with count := item.count - (data.maxPlus item.itemId - prevItem.count) } :: rest) := by
  obtain ⟨-, inBounds⟩ := inBounds_cons.mp inBounds
  obtain ⟨⟨known, -, high⟩, inBounds⟩ := inBounds_cons.mp inBounds
  have less := room.2.2
  refine inBounds_cons.mpr ⟨⟨known, ?_, ?_⟩, inBounds⟩
  · dsimp only
    omega
  · dsimp only
    omega

theorem pileLoop_step (index : ℕ) (items : List Item) {item : Item}
    (found : items[index - 1]? = some item) :
    pileLoop data index items =
      (pileFunc data items index item).bind fun called =>
        if called.1 then pileLoop data index called.2 else pileLoop data (index + 1) called.2 := by
  obtain ⟨inside, here⟩ := List.getElem?_eq_some_iff.mp found
  rw [pileLoop, dif_pos inside, here]
  split <;> rename_i called <;> rw [called] <;> rfl

theorem pileLoop_end (index : ℕ) (items : List Item) (past : items.length ≤ index - 1) :
    pileLoop data index items = some items := by
  rw [pileLoop, dif_neg (not_lt.mpr past)]

theorem pileLoop_eq (inBounds : InBounds data (prevItem :: rest)) :
    pileLoop data (front.length + 2) (front ++ prevItem :: rest) =
      some (front ++ pileRest data prevItem rest) := by
  induction rest generalizing front prevItem with
  | nil =>
      rw [pileLoop_end, pileRest]
      simp
  | cons item rest ih =>
      have here : (front ++ prevItem :: item :: rest)[front.length + 2 - 1]? = some item := by simp
      obtain ⟨⟨known, low, -⟩, later⟩ := inBounds_cons.mp (inBounds_cons.mp inBounds).2
      rw [pileLoop_step _ _ here, pileRest]
      by_cases room : HasRoom data prevItem item
      · rw [if_pos room]
        by_cases fits : prevItem.count + item.count ≤ data.maxPlus item.itemId
        · rw [if_pos fits, pileFunc_of_fits known low room fits]
          exact ih (inBounds_fits inBounds room fits)
        · rw [if_neg fits, pileFunc_of_fills known room fits]
          have next := @ih (front ++ [{ prevItem with count := data.maxPlus item.itemId }])
            { item with count := item.count - (data.maxPlus item.itemId - prevItem.count) }
            (inBounds_fills inBounds room fits)
          rwa [List.length_append, List.append_assoc, List.append_assoc] at next
      · rw [if_neg room, pileFunc_of_not_room known room]
        have next := @ih (front ++ [prevItem]) item (inBounds_cons.mp inBounds).2
        rwa [List.length_append, List.append_assoc, List.append_assoc] at next

theorem stacked_pileRest (prevItem : Item) (rest : List Item) (id : Nat) :
    stacked (pileRest data prevItem rest) id = stacked (prevItem :: rest) id := by
  induction rest generalizing prevItem with
  | nil => rfl
  | cons item rest ih =>
      rw [pileRest]
      by_cases room : HasRoom data prevItem item
      · rw [if_pos room, stacked_cons, stacked_cons]
        split
        · rw [ih, stacked_recount, room.1]
          split <;> omega
        · rw [stacked_recount, ih, stacked_recount, room.1]
          split <;> omega
      · rw [if_neg room, stacked_cons, ih, stacked_cons prevItem]

theorem inBounds_pileRest (inBounds : InBounds data (prevItem :: rest)) :
    InBounds data (pileRest data prevItem rest) := by
  induction rest generalizing prevItem with
  | nil => exact inBounds
  | cons item rest ih =>
      obtain ⟨here, later⟩ := inBounds_cons.mp inBounds
      rw [pileRest]
      by_cases room : HasRoom data prevItem item
      · rw [if_pos room]
        by_cases fits : prevItem.count + item.count ≤ data.maxPlus item.itemId
        · rw [if_pos fits]
          exact ih (inBounds_fits inBounds room fits)
        · rw [if_neg fits]
          refine inBounds_cons.mpr ⟨⟨here.1, data.positive item.itemId, ?_⟩,
            ih (inBounds_fills inBounds room fits)⟩
          rw [room.1]
      · rw [if_neg room]
        exact inBounds_cons.mpr ⟨here, ih later⟩

theorem id_pileRest (item : Item) (mem : item ∈ pileRest data prevItem rest) :
    ∃ old ∈ prevItem :: rest, item.itemId = old.itemId := by
  induction rest generalizing prevItem with
  | nil => exact ⟨item, mem, rfl⟩
  | cons next rest ih =>
      rw [pileRest] at mem
      split at mem
      · split at mem
        · obtain ⟨old, old_mem, same⟩ := ih mem
          rcases List.mem_cons.mp old_mem with rfl | later
          · exact ⟨prevItem, List.mem_cons_self, same⟩
          · exact ⟨old, by simp [later], same⟩
        · rcases List.mem_cons.mp mem with rfl | later
          · exact ⟨prevItem, List.mem_cons_self, rfl⟩
          · obtain ⟨old, old_mem, same⟩ := ih later
            rcases List.mem_cons.mp old_mem with rfl | behind
            · exact ⟨next, by simp, same⟩
            · exact ⟨old, by simp [behind], same⟩
      · rcases List.mem_cons.mp mem with rfl | later
        · exact ⟨item, List.mem_cons_self, rfl⟩
        · obtain ⟨old, old_mem, same⟩ := ih later
          exact ⟨old, List.mem_cons_of_mem _ old_mem, same⟩

/-- The first of two stacks is full if they are of one item. -/
def FullBefore (data : StackData) (first second : Item) : Prop :=
  first.itemId ≤ second.itemId ∧ (first.itemId = second.itemId → 1 < data.maxPlus first.itemId →
    first.count = data.maxPlus first.itemId)

theorem pileRest_fullBefore (inBounds : InBounds data (prevItem :: rest))
    (sorted : ById (prevItem :: rest)) :
    (pileRest data prevItem rest).Pairwise (FullBefore data) := by
  induction rest generalizing prevItem with
  | nil => exact List.pairwise_singleton _ _
  | cons item rest ih =>
      obtain ⟨prev_le, sorted_rest⟩ := List.pairwise_cons.mp sorted
      obtain ⟨item_le, sorted_tail⟩ := List.pairwise_cons.mp sorted_rest
      obtain ⟨⟨-, -, high⟩, later⟩ := inBounds_cons.mp inBounds
      rw [pileRest]
      by_cases room : HasRoom data prevItem item
      · rw [if_pos room]
        by_cases fits : prevItem.count + item.count ≤ data.maxPlus item.itemId
        · rw [if_pos fits]
          refine ih (inBounds_fits inBounds room fits) (List.pairwise_cons.mpr ⟨?_, sorted_tail⟩)
          exact fun other mem => prev_le other (List.mem_cons_of_mem _ mem)
        · rw [if_neg fits]
          refine List.pairwise_cons.mpr ⟨fun other mem => ⟨?_, fun _ _ => ?_⟩,
            ih (inBounds_fills inBounds room fits) (List.pairwise_cons.mpr ⟨item_le, sorted_tail⟩)⟩
          · obtain ⟨old, old_mem, same⟩ := id_pileRest other mem
            rw [same]
            rcases List.mem_cons.mp old_mem with rfl | behind
            · exact room.1.le
            · exact prev_le old (List.mem_cons_of_mem _ behind)
          · rw [room.1]
      · rw [if_neg room]
        refine List.pairwise_cons.mpr ⟨fun other mem => ?_, ih later sorted_rest⟩
        obtain ⟨old, old_mem, same⟩ := id_pileRest other mem
        refine ⟨?_, fun equal many => ?_⟩
        · rw [same]
          exact prev_le old old_mem
        · have between : item.itemId ≤ old.itemId := by
            rcases List.mem_cons.mp old_mem with rfl | behind
            · exact le_rfl
            · exact item_le old behind
          have next : prevItem.itemId = item.itemId :=
            le_antisymm (prev_le item List.mem_cons_self) (by omega)
          by_contra less
          refine room ⟨next, ?_, ?_⟩
          · rwa [← next]
          · rw [← next]
            omega

theorem length_partial_le (full : items.Pairwise (FullBefore data)) (inBounds : InBounds data items)
    (many : 1 < data.maxPlus itemId) :
    (items.filter fun item =>
      item.itemId = itemId && decide (item.count < data.maxPlus itemId)).length ≤ 1 := by
  induction items with
  | nil => exact Nat.zero_le 1
  | cons item items ih =>
      obtain ⟨before, rest⟩ := List.pairwise_cons.mp full
      obtain ⟨-, bounds⟩ := inBounds_cons.mp inBounds
      rw [List.filter_cons]
      split
      · rename_i qualified
        obtain ⟨same, less⟩ : item.itemId = itemId ∧ item.count < data.maxPlus itemId := by
          simpa using qualified
        have nothing : items.filter (fun item =>
            item.itemId = itemId && decide (item.count < data.maxPlus itemId)) = [] := by
          refine List.filter_eq_nil_iff.mpr fun other mem other_qualified => ?_
          have equal : other.itemId = itemId := by
            simp only [Bool.and_eq_true, decide_eq_true_eq] at other_qualified
            exact other_qualified.1
          have count := (before other mem).2 (same.trans equal.symm) (by rwa [same])
          rw [same] at count
          omega
        rw [nothing]
        rfl
      · exact ih rest bounds

end

structure Sorted (data : StackData) (items after : List Item) : Prop where
  stacked : stacked after = stacked items
  inBounds : InBounds data after
  /-- All stacks of an item but the last one are full. -/
  full : after.Pairwise (FullBefore data)

theorem sortItemList_sorted (inBounds : InBounds data items) (sorted : ById items) :
    ∃ after, sortItemList data items = some after ∧ Sorted data items after := by
  cases items with
  | nil =>
      refine ⟨[], ?_, rfl, inBounds, List.Pairwise.nil⟩
      rw [sortItemList, pileLoop_end _ _ (Nat.zero_le _)]
  | cons first items =>
      refine ⟨pileRest data first items, @pileLoop_eq data [] items first inBounds, ?_,
        inBounds_pileRest inBounds, pileRest_fullBefore inBounds sorted⟩
      funext id
      exact stacked_pileRest first items id

theorem InBounds.perm (inBounds : InBounds data items) (perm : after.Perm items) :
    InBounds data after :=
  fun item mem => inBounds item (perm.mem_iff.mp mem)

theorem bagStep_inBounds {role next : Role} {event : BagEvent} (inBounds : InBounds data role.items)
    (taken : bagStep data role event = some next) : InBounds data next.items := by
  cases event with
  | add itemId count names => exact (addItemProp_spec inBounds taken).2
  | consume force required => exact consumeItem_inBounds inBounds taken
  | load sorted =>
      rw [bagStep] at taken
      split at taken
      · rename_i order
        obtain ⟨after, called, spec⟩ := sortItemList_sorted (inBounds.perm order.1) order.2
        rw [called] at taken
        cases taken
        exact spec.inBounds
      · cases taken

theorem stacking_of_inBounds (inBounds : InBounds data role.items) :
    Stacking data role where
  inBounds := inBounds
  add itemId count names stackable positive := by
    obtain ⟨after, added⟩ := addItemProp_isSome stackable positive names
    exact ⟨after, added, (addItemProp_spec inBounds added).1⟩
  consume itemId count force stackable nonneg :=
    consume_id (fun item mem => (inBounds item mem).2.1) stackable force nonneg
  consumeGuid guid item itemId count force held named stackable nonneg :=
    consume_guid held named stackable force nonneg
  load sorted perm order := by
    obtain ⟨after, called, spec⟩ := sortItemList_sorted (inBounds.perm perm) order
    refine ⟨{ role with items := after }, ?_, ?_, spec.full.imp fun full => full.1, fun id many => ?_⟩
    · rw [bagStep, if_pos ⟨perm, order⟩, called, Option.map_some]
    · rw [spec.stacked]
      exact stacked_perm perm
    · exact length_partial_le spec.full spec.inBounds many.1

/-- From a bag in bounds on, every operation changes the total of its item by exactly its count, no
stack gets empty or overfull, and sorting sorts and changes no total. -/
theorem stacking_preserved {role : Role} (inBounds : InBounds data role.items)
    (events : List BagEvent) : Always (bagStep data) (Stacking data) role events :=
  (always_invariant bagStep_inBounds inBounds).mono fun _ bounds => stacking_of_inBounds bounds

end

/-- The items of `itemData`, with small stacks. -/
def stackData : StackData where
  toItemData := itemData
  maxPlus id := if id = 201001 then 6 else 1
  positive id := by split <;> decide

/-- The bag is filled up, sorted, and emptied again. -/
def stackEvents : List BagEvent :=
  [.add 201001 7 fun i => toString i,
    .load [{ guid := "a_201001", itemId := 201001, count := 6 },
      { guid := "c_201001", itemId := 201001, count := 6 },
      { guid := "0_201001", itemId := 201001, count := 3 },
      { guid := "b_401001", itemId := 401001, count := 1, lineupId := some 1 }],
    .consume false { itemId := 201001, count := 4, guid := some "c_201001" },
    .consume false { itemId := 201001, count := 11 }]

theorem stacking_preserved_stackEvents :
    Always (bagStep stackData) (Stacking stackData) wearingRole stackEvents := by
  refine stacking_preserved ?_ stackEvents
  intro item mem
  simp only [wearingRole, List.mem_cons, List.not_mem_nil, or_false] at mem
  rcases mem with rfl | rfl | rfl <;> decide

end UEServer.Bag
