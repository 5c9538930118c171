import UEServer.Bag.Basic
import UEServer.Library.Table

/-!
# Consuming is all or nothing

One required item takes exactly its count out of what may be consumed.  So a list is consumed
exactly if its totals are covered, and refused without effect if one of its items is not covered.
-/

namespace UEServer.Bag

theorem countWhere_cons (qualifies : Item → Bool) (item : Item) (items : List Item) :
    countWhere qualifies (item :: items) =
      (if qualifies item then item.count else 0) + countWhere qualifies items := by
  cases qualified : qualifies item <;> simp [countWhere, qualified]

theorem countWhere_reverse (qualifies : Item → Bool) (items : List Item) :
    countWhere qualifies items.reverse = countWhere qualifies items := by
  simp [countWhere, List.filter_reverse, List.sum_reverse]

theorem countWhere_filter {qualifies other : Item → Bool} {items : List Item}
    (weaker : ∀ item, qualifies item = true → other item = true) :
    countWhere qualifies (items.filter other) = countWhere qualifies items := by
  have both : ∀ item, (qualifies item && other item) = qualifies item := by
    intro item
    cases qualified : qualifies item
    · rfl
    · simp [weaker item qualified]
  simp [countWhere, List.filter_filter, both]

theorem countWhere_split (qualifies other : Item → Bool) (items : List Item) :
    countWhere qualifies items = countWhere (fun item => qualifies item && other item) items +
      countWhere (fun item => qualifies item && !other item) items := by
  induction items with
  | nil => rfl
  | cons item items ih =>
      simp only [countWhere_cons, ih]
      cases qualifies item <;> cases other item <;> simp <;> omega

/-- A count has been taken from the items that qualify, and the others are as they were. -/
structure Consumed (qualifies : Item → Bool) (count : Int) (before after : List Item) : Prop where
  rest : after.filter (fun item => !qualifies item) = before.filter fun item => !qualifies item
  taken : countWhere qualifies after = countWhere qualifies before - count
  left : ∀ item ∈ after, ∃ old ∈ before, item.itemId = old.itemId ∧ 1 ≤ item.count ∧
    item.count ≤ old.count

section
variable {qualifies : Item → Bool} {count : Int} {items after : List Item} {item : Item}

theorem Consumed.refl (positive : ∀ item ∈ items, 1 ≤ item.count) :
    Consumed qualifies 0 items items :=
  ⟨rfl, (Int.sub_zero _).symm, fun item mem => ⟨item, mem, rfl, positive item mem, le_refl _⟩⟩

theorem Consumed.keep (consumed : Consumed qualifies count items after)
    (positive : 1 ≤ item.count) (other : qualifies item = false) :
    Consumed qualifies count (item :: items) (item :: after) := by
  refine ⟨?_, ?_, ?_⟩
  · simp [other, consumed.rest]
  · simp [countWhere_cons, other, consumed.taken]
  · intro kept mem
    rcases List.mem_cons.mp mem with rfl | later
    · exact ⟨kept, List.mem_cons_self, rfl, positive, le_refl _⟩
    · obtain ⟨old, old_mem, same⟩ := consumed.left kept later
      exact ⟨old, List.mem_cons_of_mem _ old_mem, same⟩

theorem Consumed.drop (consumed : Consumed qualifies (count - item.count) items after)
    (qualified : qualifies item = true) : Consumed qualifies count (item :: items) after := by
  refine ⟨?_, ?_, ?_⟩
  · simp [qualified, consumed.rest]
  · have taken := consumed.taken
    rw [countWhere_cons, if_pos qualified]
    omega
  · intro kept mem
    obtain ⟨old, old_mem, same⟩ := consumed.left kept mem
    exact ⟨old, List.mem_cons_of_mem _ old_mem, same⟩

theorem Consumed.reverse (consumed : Consumed qualifies count items.reverse after) :
    Consumed qualifies count items after.reverse := by
  refine ⟨?_, ?_, ?_⟩
  · rw [List.filter_reverse, consumed.rest, List.filter_reverse, List.reverse_reverse]
  · rw [countWhere_reverse, consumed.taken, countWhere_reverse]
  · intro kept mem
    obtain ⟨old, old_mem, same⟩ := consumed.left kept (List.mem_reverse.mp mem)
    exact ⟨old, List.mem_reverse.mp old_mem, same⟩

theorem consumeStacks_consumed {itemId : Nat} (positive : ∀ item ∈ items, 1 ≤ item.count)
    (nonneg : 0 ≤ count) (covered : count ≤ countWhere (fun item => item.itemId = itemId) items) :
    Consumed (fun item => item.itemId = itemId) count items (consumeStacks itemId count items) := by
  induction items generalizing count with
  | nil =>
      have zero : count = 0 := by
        simp [countWhere] at covered
        omega
      subst zero
      exact Consumed.refl positive
  | cons item items ih =>
      have first := positive item List.mem_cons_self
      have rest : ∀ other ∈ items, 1 ≤ other.count :=
        fun other mem => positive other (List.mem_cons_of_mem _ mem)
      rw [consumeStacks]
      split
      · obtain rfl : count = 0 := by omega
        exact Consumed.refl positive
      · rw [countWhere_cons] at covered
        by_cases same : item.itemId = itemId
        · rw [if_pos same]
          split
          · refine ⟨by simp [same], ?_, ?_⟩
            · simp only [countWhere_cons, same, decide_true, if_true]
              omega
            · intro kept mem
              rcases List.mem_cons.mp mem with rfl | later
              · exact ⟨item, List.mem_cons_self, rfl, by simp only; omega, by simp only; omega⟩
              · exact ⟨kept, List.mem_cons_of_mem _ later, rfl, rest kept later, le_refl _⟩
          · exact (ih rest (by omega) (by omega)).drop (decide_eq_true same)
        · rw [if_neg (by simpa using same), Int.zero_add] at covered
          rw [if_neg same]
          exact (ih rest nonneg covered).keep first (decide_eq_false same)

/-- The loop over equipment takes exactly the count, of which each piece is one. -/
theorem consumeEquips_consumed {force : Bool} {itemId : Nat}
    (positive : ∀ item ∈ items, 1 ≤ item.count)
    (single : ∀ item ∈ items, item.itemId = itemId → item.count = 1) (nonneg : 0 ≤ count)
    (covered : count ≤ countWhere (fun item => item.itemId = itemId && isFree force item) items) :
    Consumed (fun item => item.itemId = itemId && isFree force item) count items
      (consumeEquips force itemId count items) := by
  induction items generalizing count with
  | nil =>
      have zero : count = 0 := by
        simp [countWhere] at covered
        omega
      subst zero
      exact Consumed.refl positive
  | cons item items ih =>
      have first := positive item List.mem_cons_self
      have rest : ∀ other ∈ items, 1 ≤ other.count :=
        fun other mem => positive other (List.mem_cons_of_mem _ mem)
      have rest_single : ∀ other ∈ items, other.itemId = itemId → other.count = 1 :=
        fun other mem => single other (List.mem_cons_of_mem _ mem)
      rw [consumeEquips]
      split
      · obtain rfl : count = 0 := by omega
        exact Consumed.refl positive
      · rw [countWhere_cons] at covered
        by_cases free : item.itemId = itemId ∧ isFree force item = true
        · have qualified : (item.itemId = itemId && isFree force item) = true := by
            simp [free.1, free.2]
          have one := single item List.mem_cons_self free.1
          rw [if_pos free]
          exact (ih rest rest_single (by omega) (by omega)).drop qualified
        · have other : (decide (item.itemId = itemId) && isFree force item) = false := by
            simpa using free
          rw [if_neg (by simp [other]), Int.zero_add] at covered
          rw [if_neg free]
          exact (ih rest rest_single nonneg covered).keep first other

theorem Consumed.count_other (consumed : Consumed qualifies count items after)
    (counts : Item → Bool) :
    countWhere (fun item => counts item && !qualifies item) after =
      countWhere (fun item => counts item && !qualifies item) items := by
  have weaker : ∀ item, (counts item && !qualifies item) = true → (!qualifies item) = true :=
    fun item both => (Bool.and_eq_true_iff.mp both).2
  rw [← countWhere_filter weaker, consumed.rest, countWhere_filter weaker]

/-- The count is missing from every group that contains the items that qualify. -/
theorem Consumed.count_of_imp (consumed : Consumed qualifies count items after)
    {counts : Item → Bool} (weaker : ∀ item, qualifies item = true → counts item = true) :
    countWhere counts after = countWhere counts items - count := by
  have both : (fun item => counts item && qualifies item) = qualifies := by
    funext item
    cases qualified : qualifies item
    · simp
    · simp [weaker item qualified]
  rw [countWhere_split counts qualifies after, countWhere_split counts qualifies items,
    consumed.count_other, both, consumed.taken]
  omega

theorem Consumed.count_of_disjoint (consumed : Consumed qualifies count items after)
    {counts : Item → Bool} (disjoint : ∀ item, qualifies item = true → counts item = false) :
    countWhere counts after = countWhere counts items := by
  have both : (fun item => counts item && !qualifies item) = counts := by
    funext item
    cases qualified : qualifies item
    · simp
    · simp [disjoint item qualified]
  have other := consumed.count_other counts
  rwa [both] at other

end

/-- The item is kept in one of the three kinds of storage. -/
def ItemData.Stored (data : ItemData) (itemId : Nat) : Prop :=
  ∃ config, data.config itemId = some config ∧ config.itemType ≠ .pet ∧ config.itemType ≠ .title ∧
    (config.itemType = .virtual → config.subType = .currency)

/-- A required item is named by its id, and its count is not negative. -/
structure Required.Proper (data : ItemData) (required : Required) : Prop where
  guid : required.guid = none
  nonneg : 0 ≤ required.count
  stored : data.Stored required.itemId

/-- No item of the bag is empty, and equipment is not stacked. -/
structure Role.Valid (data : ItemData) (role : Role) : Prop where
  positive : ∀ item ∈ role.items, 1 ≤ item.count
  single : ∀ item ∈ role.items, ∀ config, data.config item.itemId = some config →
    config.subType = .equipment → item.count = 1

def Role.held (data : ItemData) (role : Role) (itemId : Nat) : Int :=
  match (data.config itemId).map ItemConfig.subType with
  | some .currency => role.currency itemId
  | _ => countWhere (fun item => item.itemId = itemId) role.items

/-- How much of an item a role may consume: equipment that is worn or trained is not counted. -/
def Role.consumable (data : ItemData) (force : Bool) (role : Role) (itemId : Nat) : Int :=
  match (data.config itemId).map ItemConfig.subType with
  | some .currency => role.currency itemId
  | some .equipment =>
      countWhere (fun item => item.itemId = itemId && isFree force item) role.items
  | _ => countWhere (fun item => item.itemId = itemId) role.items

/-- A count of an item has been taken from a role, and nothing else. -/
structure Takes (data : ItemData) (force : Bool) (role : Role) (itemId : Nat) (count : Int)
    (after : Role) : Prop where
  valid : after.Valid data
  held : ∀ id, after.held data id = role.held data id - if id = itemId then count else 0
  consumable : ∀ id, after.consumable data force id =
    role.consumable data force id - if id = itemId then count else 0

section
variable {data : ItemData} {force : Bool} {role : Role} {required : Required}

theorem canConsumeItem_eq (proper : required.Proper data) :
    canConsumeItem data force role required =
      some (decide (required.count ≤ role.consumable data force required.itemId)) := by
  obtain ⟨config, found, -, -, virtual⟩ := proper.stored
  have id : required.id? = some required.itemId := by rw [Required.id?, proper.guid]
  rw [canConsumeItem, if_neg (by have := proper.nonneg; omega), id, Option.bind_some, found,
    Option.bind_some, Role.consumable, found, Option.map_some]
  cases kind : config.subType with
  | currency => rfl
  | equipment => simp [checkConsumeEquipCount, proper.guid]
  | other =>
      have notVirtual : config.itemType ≠ .virtual := fun same => by
        rw [virtual same] at kind
        cases kind
      simp [getItemCount, found, notVirtual, proper.guid]

theorem Takes.currency (valid : role.Valid data) {itemId : Nat} {config : ItemConfig}
    (found : data.config itemId = some config) (kind : config.subType = .currency) (count : Int) :
    Takes data force role itemId count
      { role with
        currency := fun id =>
          if id = itemId then role.currency itemId - count else role.currency id } := by
  refine ⟨⟨valid.positive, valid.single⟩, fun id => ?_, fun id => ?_⟩
  · by_cases same : id = itemId
    · subst same
      simp [Role.held, found, kind]
    · simp only [Role.held, if_neg same, Int.sub_zero]
  · by_cases same : id = itemId
    · subst same
      simp [Role.consumable, found, kind]
    · simp only [Role.consumable, if_neg same, Int.sub_zero]

theorem Takes.items (valid : role.Valid data) {itemId : Nat} {config : ItemConfig}
    (found : data.config itemId = some config) (kind : config.subType ≠ .currency) {count : Int}
    {qualifies : Item → Bool} {items : List Item}
    (consumed : Consumed qualifies count role.items items)
    (isItem : ∀ item, qualifies item = true → item.itemId = itemId)
    (isFreeItem : config.subType = .equipment → ∀ item, qualifies item = true →
      isFree force item = true) :
    Takes data force role itemId count { role with items } := by
  refine ⟨⟨?_, ?_⟩, fun id => ?_, fun id => ?_⟩
  · intro item mem
    obtain ⟨old, -, -, positive, -⟩ := consumed.left item mem
    exact positive
  · intro item mem config' found' kind'
    obtain ⟨old, old_mem, same, positive, le⟩ := consumed.left item mem
    have one := valid.single old old_mem config' (same ▸ found') kind'
    omega
  · by_cases same : id = itemId
    · subst same
      have less := consumed.count_of_imp fun item qualified =>
        decide_eq_true (isItem item qualified)
      cases sub : config.subType with
      | currency => exact absurd sub kind
      | equipment => simpa [Role.held, found, sub] using less
      | other => simpa [Role.held, found, sub] using less
    · have equal := consumed.count_of_disjoint fun item qualified =>
        decide_eq_false fun other : item.itemId = id => same (other ▸ isItem item qualified)
      simp only [Role.held, equal, if_neg same, Int.sub_zero]
  · by_cases same : id = itemId
    · subst same
      cases sub : config.subType with
      | currency => exact absurd sub kind
      | equipment =>
          have less : countWhere (fun item => item.itemId = id && isFree force item) items = _ :=
            consumed.count_of_imp fun item qualified => by
              simp [isItem item qualified, isFreeItem sub item qualified]
          simpa [Role.consumable, found, sub] using less
      | other =>
          have less := consumed.count_of_imp fun item qualified =>
            decide_eq_true (isItem item qualified)
          simpa [Role.consumable, found, sub] using less
    · have other : ∀ item, qualifies item = true → decide (item.itemId = id) = false :=
        fun item qualified =>
          decide_eq_false fun other => same (other ▸ isItem item qualified)
      have equal := consumed.count_of_disjoint other
      have equal_free : countWhere (fun item => item.itemId = id && isFree force item) items =
          countWhere (fun item => item.itemId = id && isFree force item) role.items :=
        consumed.count_of_disjoint fun item qualified => by simp [other item qualified]
      simp only [Role.consumable, equal, equal_free, if_neg same, Int.sub_zero]

theorem consumeItem_takes (valid : role.Valid data) (proper : required.Proper data)
    (covered : required.count ≤ role.consumable data force required.itemId) :
    ∃ after, consumeItem data force role required = some after ∧
      Takes data force role required.itemId required.count after := by
  obtain ⟨config, found, notPet, notTitle, virtual⟩ := proper.stored
  have nonneg := proper.nonneg
  have id : required.id? = some required.itemId := by rw [Required.id?, proper.guid]
  have start : consumeItem data force role required =
      itemMapperConsume force role config required.itemId required.count none := by
    rw [consumeItem, canConsumeItem_eq proper, Option.bind_some,
      if_pos (decide_eq_true covered), id, Option.bind_some, found, Option.bind_some, proper.guid]
  have piled : config.itemType ≠ .virtual → config.itemType ≠ .equip →
      ∃ after, consumeItemProp role required.itemId required.count none = some after ∧
        Takes data force role required.itemId required.count after := by
    intro notVirtual notEquip
    have other : config.subType = .other := by
      cases kind : config.subType with
      | currency => exact absurd (data.currency _ _ found kind) notVirtual
      | equipment => exact absurd ((data.equipment _ _ found).mp kind) notEquip
      | other => rfl
    have enough : required.count ≤
        countWhere (fun item => item.itemId = required.itemId) role.items.reverse := by
      rw [countWhere_reverse]
      simpa [Role.consumable, found, other] using covered
    have consumed := (consumeStacks_consumed
      (fun item mem => valid.positive item (List.mem_reverse.mp mem)) nonneg enough).reverse
    exact ⟨_, rfl, Takes.items valid found (by simp [other]) consumed
      (fun item qualified => of_decide_eq_true qualified) (by simp [other])⟩
  rw [start, itemMapperConsume]
  cases kind : config.itemType with
  | virtual =>
      have currency := virtual kind
      have enough : ¬ (required.count < 0 ∨ required.count > role.currency required.itemId) := by
        have covered : required.count ≤ role.currency required.itemId := by
          simpa [Role.consumable, found, currency] using covered
        omega
      exact ⟨_, by simp only [currency, if_true, subCurrency, if_neg enough],
        Takes.currency valid found currency required.count⟩
  | equip =>
      have equipment := (data.equipment _ _ found).mpr kind
      have enough : required.count ≤ countWhere
          (fun item => item.itemId = required.itemId && isFree force item)
          role.items.reverse := by
        rw [countWhere_reverse]
        simpa [Role.consumable, found, equipment] using covered
      have single : ∀ item ∈ role.items.reverse, item.itemId = required.itemId →
          item.count = 1 := fun item mem same =>
        valid.single item (List.mem_reverse.mp mem) config (same ▸ found) equipment
      have consumed := (consumeEquips_consumed
        (fun item mem => valid.positive item (List.mem_reverse.mp mem)) single nonneg
        enough).reverse
      refine ⟨_, rfl, Takes.items valid found (by simp [equipment]) consumed ?_ ?_⟩
      · intro item qualified
        exact of_decide_eq_true (Bool.and_eq_true_iff.mp qualified).1
      · intro _ item qualified
        exact (Bool.and_eq_true_iff.mp qualified).2
  | pet => exact absurd kind notPet
  | title => exact absurd kind notTitle
  | default | prop | stuff | hero | lover => exact piled (by simp [kind]) (by simp [kind])

end

def total (itemList : List Required) (itemId : Nat) : Int :=
  ((itemList.filter (·.itemId = itemId)).map Required.count).sum

theorem total_cons (required : Required) (itemList : List Required) (itemId : Nat) :
    total (required :: itemList) itemId =
      (if itemId = required.itemId then required.count else 0) + total itemList itemId := by
  by_cases same : itemId = required.itemId
  · simp [total, same]
  · simp [total, same, Ne.symm same]

theorem total_nonneg {itemList : List Required} (nonneg : ∀ required ∈ itemList, 0 ≤ required.count)
    (itemId : Nat) : 0 ≤ total itemList itemId := by
  induction itemList with
  | nil => simp [total]
  | cons required itemList ih =>
      have first := nonneg required List.mem_cons_self
      have rest := ih fun other mem => nonneg other (List.mem_cons_of_mem _ mem)
      rw [total_cons]
      split <;> omega

theorem count_le_total {itemList : List Required} (nonneg : ∀ required ∈ itemList, 0 ≤ required.count)
    {required : Required} (mem : required ∈ itemList) :
    required.count ≤ total itemList required.itemId := by
  induction itemList with
  | nil => cases mem
  | cons first itemList ih =>
      have first_nonneg := nonneg first List.mem_cons_self
      have rest_nonneg : ∀ other ∈ itemList, 0 ≤ other.count :=
        fun other mem => nonneg other (List.mem_cons_of_mem _ mem)
      rw [total_cons]
      rcases List.mem_cons.mp mem with rfl | later
      · have rest := total_nonneg rest_nonneg required.itemId
        omega
      · have le := ih rest_nonneg later
        split <;> omega

theorem total_dict {itemDict : List (Nat × Int)} (keys : (itemDict.map Prod.fst).Nodup)
    (itemId : Nat) :
    total (itemDict.map fun entry => { itemId := entry.1, count := entry.2 }) itemId =
      (itemDict.lookup itemId).getD 0 := by
  induction itemDict with
  | nil => rfl
  | cons entry itemDict ih =>
      obtain ⟨fresh, keys⟩ := List.nodup_cons.mp keys
      rw [List.map_cons, total_cons, ih keys, List.lookup_cons]
      by_cases same : itemId = entry.1
      · subst same
        simp [Assoc.lookup_eq_none fresh]
      · simp [same, beq_false_of_ne same]

section
variable {data : ItemData} {force : Bool} {role : Role} {itemList : List Required}

theorem canConsumeAll_eq (proper : ∀ required ∈ itemList, required.Proper data) :
    canConsumeAll data force role itemList = some (decide
      (∀ required ∈ itemList, required.count ≤ role.consumable data force required.itemId)) := by
  induction itemList with
  | nil => simp [canConsumeAll]
  | cons required itemList ih =>
      have rest := ih fun other mem => proper other (List.mem_cons_of_mem _ mem)
      rw [canConsumeAll, canConsumeItem_eq (proper required List.mem_cons_self), Option.bind_some]
      by_cases covered : required.count ≤ role.consumable data force required.itemId
      · rw [if_pos (decide_eq_true covered), rest]
        simp [covered]
      · simp [covered]

theorem consumeAll_takes (valid : role.Valid data)
    (proper : ∀ required ∈ itemList, required.Proper data)
    (covered : ∀ required ∈ itemList,
      total itemList required.itemId ≤ role.consumable data force required.itemId) :
    ∃ after, consumeAll data force role itemList = some after ∧ after.Valid data ∧
      ∀ id, after.held data id = role.held data id - total itemList id := by
  induction itemList generalizing role with
  | nil => exact ⟨role, rfl, valid, fun id => by simp [total]⟩
  | cons required itemList ih =>
      have nonneg : ∀ other ∈ required :: itemList, 0 ≤ other.count :=
        fun other mem => (proper other mem).nonneg
      have enough := (count_le_total nonneg List.mem_cons_self).trans
        (covered required List.mem_cons_self)
      obtain ⟨middle, consumed, takes⟩ :=
        consumeItem_takes valid (proper required List.mem_cons_self) enough
      have covered_rest : ∀ other ∈ itemList,
          total itemList other.itemId ≤ middle.consumable data force other.itemId := by
        intro other mem
        have whole := covered other (List.mem_cons_of_mem _ mem)
        rw [total_cons] at whole
        rw [takes.consumable]
        omega
      obtain ⟨after, rest, valid_after, held⟩ := ih takes.valid
        (fun other mem => proper other (List.mem_cons_of_mem _ mem)) covered_rest
      refine ⟨after, by rw [consumeAll, consumed, Option.bind_some, rest], valid_after, fun id => ?_⟩
      rw [held, takes.held, total_cons]
      omega

theorem consumeItemList_covered (valid : role.Valid data)
    (proper : ∀ required ∈ itemList, required.Proper data)
    (covered : ∀ required ∈ itemList,
      total itemList required.itemId ≤ role.consumable data force required.itemId) :
    ∃ after, consumeItemList data force role itemList = some (true, after) ∧
      ∀ id, after.held data id = role.held data id - total itemList id := by
  obtain ⟨after, consumed, -, held⟩ := consumeAll_takes valid proper covered
  have each : ∀ required ∈ itemList,
      required.count ≤ role.consumable data force required.itemId := fun required mem =>
    (count_le_total (fun other mem => (proper other mem).nonneg) mem).trans (covered _ mem)
  refine ⟨after, ?_, held⟩
  rw [consumeItemList, canConsumeAll_eq proper, Option.bind_some,
    if_pos (decide_eq_true each), consumed, Option.map_some]

theorem consumeItemList_refused (proper : ∀ required ∈ itemList, required.Proper data)
    (refused : ∃ required ∈ itemList,
      role.consumable data force required.itemId < required.count) :
    consumeItemList data force role itemList = some (false, role) := by
  obtain ⟨required, mem, short⟩ := refused
  have not_all : ¬ ∀ required ∈ itemList,
      required.count ≤ role.consumable data force required.itemId := fun all =>
    absurd (all required mem) (by omega)
  rw [consumeItemList, canConsumeAll_eq proper, Option.bind_some, if_neg (by simpa using not_all)]

/-- Consuming is all or nothing: a list whose totals are covered is taken exactly, and one of whose
items more is required than there is has no effect; a dictionary is always one or the other. -/
theorem consume_allOrNothing (valid : role.Valid data)
    (proper : ∀ required ∈ itemList, required.Proper data)
    {itemDict : List (Nat × Int)} (keys : (itemDict.map Prod.fst).Nodup)
    (proper_dict : ∀ entry ∈ itemDict, 0 ≤ entry.2 ∧ data.Stored entry.1) :
    ((∀ required ∈ itemList,
          total itemList required.itemId ≤ role.consumable data force required.itemId) →
        ∃ after, consumeItemList data force role itemList = some (true, after) ∧
          ∀ id, after.held data id = role.held data id - total itemList id) ∧
      ((∃ required ∈ itemList,
          role.consumable data force required.itemId < required.count) →
        consumeItemList data force role itemList = some (false, role)) ∧
      ((∀ entry ∈ itemDict, entry.2 ≤ role.consumable data force entry.1) →
        ∃ after, consumeItemDict data force role itemDict = some (true, after) ∧
          ∀ id, after.held data id = role.held data id - (itemDict.lookup id).getD 0) ∧
      ((∃ entry ∈ itemDict, role.consumable data force entry.1 < entry.2) →
        consumeItemDict data force role itemDict = some (false, role)) := by
  have dict_proper : ∀ required ∈ itemDict.map
      (fun entry => ({ itemId := entry.1, count := entry.2 } : Required)),
      required.Proper data := by
    intro required mem
    obtain ⟨entry, entry_mem, rfl⟩ := List.mem_map.mp mem
    exact ⟨rfl, (proper_dict entry entry_mem).1, (proper_dict entry entry_mem).2⟩
  refine ⟨consumeItemList_covered valid proper, consumeItemList_refused proper, ?_, ?_⟩
  · intro covered
    have totals : ∀ required ∈ itemDict.map
        (fun entry => ({ itemId := entry.1, count := entry.2 } : Required)),
        total (itemDict.map fun entry => { itemId := entry.1, count := entry.2 }) required.itemId ≤
          role.consumable data force required.itemId := by
      intro required mem
      obtain ⟨entry, entry_mem, rfl⟩ := List.mem_map.mp mem
      rw [total_dict keys, Assoc.lookup_of_mem keys entry_mem]
      exact covered entry entry_mem
    obtain ⟨after, consumed, held⟩ := consumeItemList_covered valid dict_proper totals
    exact ⟨after, consumed, fun id => by rw [held, total_dict keys]⟩
  · rintro ⟨entry, mem, short⟩
    exact consumeItemList_refused dict_proper ⟨_, List.mem_map_of_mem mem, short⟩

end

/-- A currency, a stacked item and a piece of equipment. -/
def itemData : ItemData where
  config id :=
    if id = 101001 then some { itemType := .virtual, subType := .currency }
    else if id = 201001 then some { itemType := .prop, subType := .other }
    else if id = 401001 then some { itemType := .equip, subType := .equipment }
    else none
  currency id row found kind := by
    split at found
    · cases found; rfl
    · split at found
      · cases found; cases kind
      · split at found <;> cases found
        cases kind
  equipment id row found := by
    split at found
    · cases found; decide
    · split at found
      · cases found; decide
      · split at found <;> cases found
        decide

/-- A role that wears its only piece of equipment. -/
def wearingRole : Role where
  items :=
    [{ guid := "a_201001", itemId := 201001, count := 5 },
      { guid := "b_401001", itemId := 401001, count := 1, lineupId := some 1 },
      { guid := "c_201001", itemId := 201001, count := 3 }]
  currency _ := 100

theorem wearingRole_valid : wearingRole.Valid itemData := by
  refine ⟨by decide, ?_⟩
  intro item mem config found kind
  simp only [wearingRole, List.mem_cons, List.not_mem_nil, or_false] at mem
  rcases mem with rfl | rfl | rfl
  · cases found; cases kind
  · rfl
  · cases found; cases kind

def mixedList : List Required :=
  [{ itemId := 201001, count := 4 }, { itemId := 101001, count := 60 },
    { itemId := 201001, count := 4 }]

theorem mixedList_proper : ∀ required ∈ mixedList, required.Proper itemData := by
  intro required mem
  simp only [mixedList, List.mem_cons, List.not_mem_nil, or_false] at mem
  rcases mem with rfl | rfl | rfl <;>
    exact ⟨rfl, by decide, _, rfl, by decide, by decide, by decide⟩

theorem consume_allOrNothing_mixedList :
    ∃ after, consumeItemList itemData false wearingRole mixedList = some (true, after) ∧
      ∀ id, after.held itemData id = wearingRole.held itemData id - total mixedList id := by
  have covered : ∀ required ∈ mixedList, total mixedList required.itemId ≤
      wearingRole.consumable itemData false required.itemId := by decide
  have noEntries : ∀ entry ∈ ([] : List (Nat × Int)), 0 ≤ entry.2 ∧ itemData.Stored entry.1 :=
    fun _ none => by cases none
  have keys : (([] : List (Nat × Int)).map Prod.fst).Nodup := List.nodup_nil
  exact (consume_allOrNothing wearingRole_valid mixedList_proper keys noEntries).1 covered

/-- A piece of equipment that is worn is held, but cannot be consumed. -/
theorem wearingRole_refuses :
    ¬ ∀ {data : ItemData} {force : Bool} {role : Role} {itemList : List Required},
      role.Valid data → (∀ required ∈ itemList, required.Proper data) →
        ((∃ after, consumeItemList data force role itemList = some (true, after)) ↔
          ∀ required ∈ itemList, total itemList required.itemId ≤
            role.held data required.itemId) := by
  intro agrees
  have proper : ∀ required ∈ [({ itemId := 401001, count := 1 } : Required)],
      required.Proper itemData := by
    intro required mem
    cases List.mem_singleton.mp mem
    exact ⟨rfl, by decide, _, rfl, by decide, by decide, by decide⟩
  have holds : ∀ required ∈ [({ itemId := 401001, count := 1 } : Required)],
      total [{ itemId := 401001, count := 1 }] required.itemId ≤
        wearingRole.held itemData required.itemId := by decide
  obtain ⟨after, consumed⟩ := (@agrees itemData false _ _ wearingRole_valid proper).mpr holds
  cases consumed

end UEServer.Bag
