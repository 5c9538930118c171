import UEServer.Shop.Basic

/-!
# Purchase limits

A purchase of at least nothing takes its price and adds its goods, or it changes nothing.  One of less than
nothing that passes the checks raises, and the number that it has lowered stays so.
-/

namespace UEServer.Shop

open Bag

section
variable {data : ComposeData} {role : ComposeRole} {names : ℕ → String}

theorem consumeAll_inBounds {bag taken : Role} {itemList : List Required}
    (inBounds : InBounds data.toStackData bag.items)
    (consumed : consumeAll data.toItemData false bag itemList = some taken) :
    InBounds data.toStackData taken.items := by
  induction itemList generalizing bag with
  | nil =>
      cases consumed
      exact inBounds
  | cons required itemList ih =>
      obtain ⟨next, first, rest⟩ := Option.bind_eq_some_iff.mp consumed
      exact ih (consumeItem_inBounds inBounds first) rest

theorem addNewItem_held (inBounds : InBounds data.toStackData role.items) {itemId : ℕ}
    (addable : Addable data itemId) {count : ℤ} (nonneg : 0 ≤ count) :
    ∃ after, addNewItem data role itemId count names = some after ∧ ∀ id,
      after.toRole.held data.toItemData id =
        role.toRole.held data.toItemData id + if id = itemId then count else 0 := by
  rcases nonneg.lt_or_eq with positive | rfl
  · obtain ⟨noFragment, config, found, kinds⟩ := addable
    rw [addNewItem_eq noFragment positive found]
    have bag : ∀ {after : ComposeRole}, config.subType ≠ .currency →
        after.currency = role.currency →
        (∀ id, stacked after.items id = stacked role.items id + if id = itemId then count else 0) →
        ∀ id, after.toRole.held data.toItemData id =
          role.toRole.held data.toItemData id + if id = itemId then count else 0 := by
      intro after notCurrency money items id
      have here : id = itemId → (data.config id).map ItemConfig.subType ≠ some .currency := by
        rintro rfl same
        rw [found, Option.map_some] at same
        exact notCurrency (Option.some.inj same)
      rw [Role.held, Role.held]
      split
      · rename_i currency
        rw [money, if_neg fun same => here same currency, Int.add_zero]
      · exact items id
    rcases kinds with ⟨kind, currency⟩ | ⟨kind, single⟩ | pile
    · rw [itemMapperAdd, kind]
      refine ⟨_, rfl, fun id => ?_⟩
      by_cases same : id = itemId
      · subst same
        rw [Role.held, Role.held, found, Option.map_some, currency, if_pos rfl]
        exact if_pos ⟨rfl, rfl⟩
      · rw [if_neg same, Int.add_zero, Role.held, Role.held]
        split
        · exact if_neg fun both => same both.1
        · rfl
    · rw [itemMapperAdd, kind]
      have known : (data.config itemId).isSome := by rw [found]; rfl
      have gains := @addItemEquip_gains data role itemId count names known single positive.le
      refine ⟨_, rfl, bag (fun currency => ?_) gains.currency fun id => ?_⟩
      · exact absurd (data.currency itemId config found currency) (by rw [kind]; rintro ⟨⟩)
      · rw [gains.stacked, gain, single]
    · obtain ⟨kind, stackable⟩ := pile
      obtain ⟨-, other, other_found, sub, -⟩ := id stackable
      obtain rfl : config = other := Option.some.inj (found.symm.trans other_found)
      obtain ⟨after, added, props⟩ := addProp_props inBounds stackable positive names
      have adds : itemMapperAdd data role config itemId count names = some after := by
        rw [itemMapperAdd]
        rcases kind with kind | kind <;> rw [kind] <;> exact added
      refine ⟨after, adds, bag (by rw [sub]; rintro ⟨⟩) ?_ props.changed⟩
      rw [props.rest]
  · refine ⟨role, if_pos rfl, fun id => ?_⟩
    split <;> exact (Int.add_zero _).symm

theorem consumable_nonneg (buyer : Buyer data) (id : ℕ) :
    0 ≤ buyer.toRole.consumable data.toItemData false id := by
  have count : ∀ qualifies : Item → Bool, 0 ≤ countWhere qualifies buyer.items := by
    intro qualifies
    apply List.sum_nonneg
    intro number mem
    obtain ⟨item, kept, rfl⟩ := List.mem_map.mp mem
    have := buyer.valid.positive item (List.mem_of_mem_filter kept)
    omega
  rw [Role.consumable]
  split
  · exact buyer.nonneg id
  · exact count _
  · exact count _

def requires (consumeDict : List (ℕ × ℤ)) : List Required :=
  consumeDict.map fun entry => { itemId := entry.1, count := entry.2 }

theorem consume_price (buyer : Buyer data) {consumeDict : List (ℕ × ℤ)}
    (keys : (consumeDict.map Prod.fst).Nodup) (stored : ∀ entry ∈ consumeDict, data.Stored entry.1)
    (nonneg : ∀ entry ∈ consumeDict, 0 ≤ entry.2) :
    consumeItemDict data.toItemData false buyer.toRole consumeDict = some (false, buyer.toRole) ∨
      ∃ taken, consumeItemDict data.toItemData false buyer.toRole consumeDict = some (true, taken) ∧
        InBounds data.toStackData taken.items ∧ ∀ id, taken.held data.toItemData id =
          buyer.toRole.held data.toItemData id - (consumeDict.lookup id).getD 0 := by
  have proper : ∀ required ∈ requires consumeDict, required.Proper data.toItemData := by
    intro required mem
    obtain ⟨entry, entry_mem, rfl⟩ := List.mem_map.mp mem
    exact ⟨rfl, nonneg entry entry_mem, stored entry entry_mem⟩
  by_cases refused : ∃ required ∈ requires consumeDict,
      buyer.toRole.consumable data.toItemData false required.itemId < required.count
  · exact .inl (consumeItemList_refused proper refused)
  · have covered : ∀ required ∈ requires consumeDict,
        total (requires consumeDict) required.itemId ≤
          buyer.toRole.consumable data.toItemData false required.itemId := by
      intro required mem
      have enough := not_lt.mp fun short => refused ⟨required, mem, short⟩
      obtain ⟨entry, entry_mem, rfl⟩ := List.mem_map.mp mem
      rw [requires, total_dict keys, Assoc.lookup_of_mem keys entry_mem]
      exact enough
    obtain ⟨taken, consumed, held⟩ := consumeItemList_covered buyer.valid proper covered
    refine .inr ⟨taken, consumed, ?_, fun id => by rw [held, requires, total_dict keys]⟩
    obtain ⟨_, -, consumed⟩ := Option.bind_eq_some_iff.mp consumed
    split at consumed
    · obtain ⟨after, all, same⟩ := Option.map_eq_some_iff.mp consumed
      cases same
      exact consumeAll_inBounds buyer.inBounds all
    · cases consumed

theorem consume_negative (buyer : Buyer data) {consumeDict : List (ℕ × ℤ)}
    (stored : ∀ entry ∈ consumeDict, data.Stored entry.1)
    (nonpos : ∀ entry ∈ consumeDict, entry.2 ≤ 0) :
    consumeItemDict data.toItemData false buyer.toRole consumeDict = none ∨
      ∃ taken, consumeItemDict data.toItemData false buyer.toRole consumeDict = some (true, taken) := by
  have checked : canConsumeAll data.toItemData false buyer.toRole (requires consumeDict) = none ∨
      canConsumeAll data.toItemData false buyer.toRole (requires consumeDict) = some true := by
    induction consumeDict with
    | nil => exact .inr rfl
    | cons entry consumeDict ih =>
        rw [requires, List.map_cons, canConsumeAll]
        rcases (nonpos entry List.mem_cons_self).lt_or_eq with negative | zero
        · left
          rw [canConsumeItem, if_pos negative]
          rfl
        · have proper : (⟨entry.1, entry.2, none⟩ : Required).Proper data.toItemData :=
            ⟨rfl, zero.ge, stored entry List.mem_cons_self⟩
          have covered : entry.2 ≤ buyer.toRole.consumable data.toItemData false entry.1 := by
            rw [zero]
            exact consumable_nonneg buyer entry.1
          rw [canConsumeItem_eq proper, Option.bind_some, if_pos (decide_eq_true covered)]
          exact ih (fun other mem => stored other (List.mem_cons_of_mem _ mem))
            fun other mem => nonpos other (List.mem_cons_of_mem _ mem)
  change consumeItemList data.toItemData false buyer.toRole (requires consumeDict) = none ∨
    ∃ taken, consumeItemList data.toItemData false buyer.toRole (requires consumeDict) =
      some (true, taken)
  rw [consumeItemList]
  rcases checked with none | all
  · rw [none]
    exact .inl rfl
  · rw [all, Option.bind_some, if_pos rfl]
    cases consumeAll data.toItemData false buyer.toRole (requires consumeDict) with
    | none => exact .inl rfl
    | some taken => exact .inr ⟨taken, rfl⟩

theorem counts_update (numbers : Numbers) (shelf : Shelf) (shopId : ℕ) (num : Option ℤ) :
    Numbers.counts (Function.update numbers shelf (Function.update (numbers shelf) shopId num)) =
      Function.update numbers.counts shelf
        (Function.update (numbers.counts shelf) shopId (num.getD 0)) := by
  funext other otherId
  rw [Numbers.counts]
  by_cases here : other = shelf
  · subst here
    rw [Function.update_self, Function.update_self]
    by_cases same : otherId = shopId
    · rw [same, Function.update_self, Function.update_self]
    · rw [Function.update_of_ne same, Function.update_of_ne same]
      rfl
  · rw [Function.update_of_ne here, Function.update_of_ne here]
    rfl

theorem counts_write (numbers : Numbers) (shelf : Shelf) (shopId : ℕ) (num : ℤ) :
    (numbers.write shelf shopId num).counts =
      Function.update numbers.counts shelf (Function.update (numbers.counts shelf) shopId num) :=
  counts_update numbers shelf shopId (some num)

theorem counts_write_self {numbers : Numbers} {shelf : Shelf} {shopId : ℕ} {num : ℤ}
    (same : num = numbers.counts shelf shopId) :
    (numbers.write shelf shopId num).counts = numbers.counts := by
  rw [counts_write, same, Function.update_eq_self, Function.update_eq_self]

/-- A sale is one of the article that is asked for. -/
structure Fits (data : ComposeData) (numbers : Numbers) (request : Request) (article : Article)
    (sale : Sale) : Prop where
  shelf : sale.shelf = shelfOf numbers request
  old : sale.oldNum = numbers.counts sale.shelf request.shopId
  new : sale.newNum = sale.oldNum + request.shopNum
  price : sale.consumeDict = article.price request.shopNum
  itemId : sale.itemId = article.itemId
  count : sale.count = article.count * request.shopNum
  addable : Addable data article.itemId
  positive : 0 < article.count
  keys : ((article.price request.shopNum).map Prod.fst).Nodup
  stored : ∀ entry ∈ article.price request.shopNum, data.Stored entry.1
  nonneg : 0 ≤ request.shopNum → ∀ entry ∈ article.price request.shopNum, 0 ≤ entry.2
  nonpos : request.shopNum < 0 → ∀ entry ∈ article.price request.shopNum, entry.2 ≤ 0
  limited : ∀ limit, article.limit = some limit → sale.newNum ≤ limit

variable {shop : ShopData data} {buyer : Buyer data} {numbers : Numbers} {request : Request} {sale : Sale}

theorem times_keys (costs : List (ℕ × ℤ)) (num : ℤ) :
    (times costs num).map Prod.fst = costs.map Prod.fst := by
  rw [times, List.map_map]
  rfl

theorem Fits.linear {costs : List (ℕ × ℤ)} (nodup : (costs.map Prod.fst).Nodup)
    (proper : ∀ cost ∈ costs, 0 ≤ cost.2 ∧ data.Stored cost.1) (num : ℤ) :
    ((times costs num).map Prod.fst).Nodup ∧ (∀ entry ∈ times costs num, data.Stored entry.1) ∧
      (0 ≤ num → ∀ entry ∈ times costs num, 0 ≤ entry.2) ∧
        (num < 0 → ∀ entry ∈ times costs num, entry.2 ≤ 0) := by
  refine ⟨by rwa [times_keys], fun entry mem => ?_, fun nonneg entry mem => ?_, fun negative entry mem => ?_⟩
  all_goals obtain ⟨cost, cost_mem, rfl⟩ := List.mem_map.mp mem
  · exact (proper cost cost_mem).2
  · exact Int.mul_nonneg (proper cost cost_mem).1 nonneg
  · exact Int.mul_nonpos_of_nonneg_of_nonpos (proper cost cost_mem).1 negative.le

theorem crystal_fits (kind : request.kind = .crystal)
    (passed : crystalCheck shop buyer numbers request.shopId request.shopNum = .sells sale) :
    ∃ article, Shop.article shop buyer (numbers.counts (shelfOf numbers request) request.shopId)
      request = some article ∧ Fits data numbers request article sale := by
  rw [crystalCheck] at passed
  split at passed
  · cases passed
  · cases passed
  · rename_i shelf row listed found
    dsimp only at passed
    split at passed
    · cases passed
    · rename_i within
      split at passed
      · cases passed
      · rename_i count tier
        cases passed
        obtain ⟨keys, stored, nonneg, nonpos⟩ := Fits.linear row.nodup row.proper request.shopNum
        have positive : 0 < count := by
          obtain ⟨found, here, rfl⟩ := Option.map_eq_some_iff.mp tier
          have mem := List.mem_reverse.mp (List.mem_of_find?_eq_some here)
          exact row.positive _ (List.of_mem_zip mem).1
        refine ⟨⟨times row.costs, row.itemId, count, some (row.weekLimitNum.getD 1)⟩,
          by simp [Shop.article, kind, found, tier], ?_⟩
        refine ⟨?_, rfl, rfl, rfl, rfl, rfl, row.addable, positive, keys, stored, nonneg, nonpos, ?_⟩
        · rw [shelfOf, kind, listed]
          rfl
        · intro limit same
          cases same
          exact not_lt.mp within

theorem integral_fits (kind : request.kind = .integral)
    (passed : integralCheck shop buyer numbers request.shopId request.shopNum = .sells sale) :
    ∃ article, Shop.article shop buyer (numbers.counts (shelfOf numbers request) request.shopId)
      request = some article ∧ Fits data numbers request article sale := by
  rw [integralCheck] at passed
  split at passed
  · cases passed
  · split at passed
    · cases passed
    · rename_i row found
      split at passed
      · cases passed
      · dsimp only at passed
        split at passed
        · cases passed
        · rename_i within
          cases passed
          obtain ⟨keys, stored, nonneg, nonpos⟩ := Fits.linear row.nodup row.proper request.shopNum
          refine ⟨_, by rw [Shop.article, kind, found]; rfl, ?_⟩
          refine ⟨?_, rfl, rfl, rfl, rfl, rfl, row.addable, row.positive, keys, stored, nonneg,
            nonpos, ?_⟩
          · rw [shelfOf, kind]
          · intro limit same
            dsimp only at same
            rw [same] at within
            simpa using within

theorem vip_fits (kind : request.kind = .vip)
    (passed : vipCheck shop buyer numbers request.shopId request.shopNum = .sells sale) :
    ∃ article, Shop.article shop buyer (numbers.counts (shelfOf numbers request) request.shopId)
      request = some article ∧ Fits data numbers request article sale := by
  rw [vipCheck] at passed
  split at passed
  · cases passed
  · split at passed
    · cases passed
    · rename_i row found
      dsimp only at passed
      split at passed
      · rename_i limit rate atLevel rated
        split at passed
        · cases passed
        · rename_i within
          cases passed
          have discounted : ∀ cost ∈ row.discounted rate, 0 ≤ cost.2 ∧ data.Stored cost.1 := by
            intro cost mem
            obtain ⟨full, full_mem, rfl⟩ := List.mem_map.mp mem
            have rate_nonneg := (row.whole full full_mem rate (List.mem_of_getElem? rated)).1
            refine ⟨Int.floor_nonneg.mpr (mul_nonneg ?_ rate_nonneg), (row.proper full full_mem).2⟩
            exact Int.cast_nonneg (row.proper full full_mem).1
          have nodup : ((row.discounted rate).map Prod.fst).Nodup := by
            rw [VipRow.discounted, List.map_map]
            exact row.nodup
          obtain ⟨keys, stored, nonneg, nonpos⟩ := Fits.linear nodup discounted request.shopNum
          refine ⟨⟨times (row.discounted rate), row.itemId, row.itemCount, some limit⟩,
            by simp [Shop.article, kind, found, rated, atLevel], ?_⟩
          refine ⟨?_, rfl, rfl, rfl, rfl, rfl, row.addable, row.positive, keys, stored, nonneg,
            nonpos, ?_⟩
          · rw [shelfOf, kind]
          · intro other same
            cases same
            exact not_lt.mp within
      · cases passed

theorem NormalRow.priceDict_nonneg (row : NormalRow data) (oldNum shopNum : ℕ) (id : ℕ) :
    0 ≤ Shop.priceDict row.prices oldNum shopNum id := by
  rw [priceDict_eq]
  apply List.sum_nonneg
  intro unit mem
  obtain ⟨place, -, rfl⟩ := List.mem_map.mp mem
  apply List.sum_nonneg
  intro price mem
  obtain ⟨cost, kept, rfl⟩ := List.mem_map.mp mem
  have rate_nonneg : ∀ tier, 0 ≤ row.prices.rate tier := by
    intro tier
    rw [PriceData.rate]
    cases rated : row.prices.discount[tier]? with
    | none => exact zero_le_one
    | some rate => exact row.nonneg rate (List.mem_of_getElem? rated)
  have value_nonneg : 0 ≤ cost.2 := by
    have value := (List.of_mem_zip (List.mem_of_mem_filter kept)).2
    obtain ⟨entry, entry_mem, same⟩ := List.mem_map.mp value
    rw [← same]
    exact Int.cast_nonneg (row.proper entry entry_mem).1
  exact Int.ceil_nonneg (mul_nonneg (rate_nonneg _) value_nonneg)

theorem normal_fits (kind : request.kind = .normal)
    (passed : normalCheck shop buyer numbers request.shopId request.shopNum = .sells sale) :
    ∃ article, Shop.article shop buyer (numbers.counts (shelfOf numbers request) request.shopId)
      request = some article ∧ Fits data numbers request article sale := by
  have shelf : shelfOf numbers request = .normalShop := by rw [shelfOf, kind]
  rw [normalCheck] at passed
  split at passed
  · cases passed
  · rename_i more
    split at passed
    · cases passed
    · rename_i row found
      have discounted : ∀ entry ∈ row.priceDict (numbers.counts .normalShop request.shopId)
          request.shopNum, 0 ≤ entry.2 ∧ data.Stored entry.1 := by
        intro entry mem
        obtain ⟨cost, cost_mem, rfl⟩ := List.mem_map.mp mem
        exact ⟨row.priceDict_nonneg _ _ _, (row.proper cost cost_mem).2⟩
      have keys : ((row.priceDict (numbers.counts .normalShop request.shopId)
          request.shopNum).map Prod.fst).Nodup := by
        rw [NormalRow.priceDict, List.map_map]
        exact row.nodup
      dsimp only at passed
      split at passed
      · rename_i limit gift
        split at passed
        · cases passed
        · rename_i within
          cases passed
          obtain ⟨keys, stored, nonneg, nonpos⟩ := Fits.linear row.nodup row.proper request.shopNum
          refine ⟨⟨times row.costs, row.itemId, row.itemCount, some limit⟩,
            by simp [Shop.article, kind, found, gift], ?_⟩
          refine ⟨shelf.symm, rfl, rfl, rfl, rfl, rfl, row.addable, row.positive, keys, stored,
            nonneg, nonpos, ?_⟩
          intro other same
          cases same
          exact not_lt.mp fun above => within (.inr (.inr above))
      · rename_i plain unlimited
        cases passed
        refine ⟨⟨row.priceDict (numbers.counts .normalShop request.shopId), row.itemId,
          row.itemCount, none⟩,
          by simp [Shop.article, kind, found, plain, unlimited, shelf], ?_⟩
        refine ⟨shelf.symm, rfl, rfl, rfl, rfl, rfl, row.addable, row.positive, keys,
          fun entry mem => (discounted entry mem).2, fun _ entry mem => (discounted entry mem).1,
          fun negative => absurd negative.le more, ?_⟩
        intro limit same
        cases same
      · rename_i limits plain limited
        split at passed
        · cases passed
        · rename_i limit atLevel
          split at passed
          · cases passed
          · rename_i within
            cases passed
            refine ⟨⟨row.priceDict (numbers.counts .normalShop request.shopId), row.itemId,
              row.itemCount, some limit⟩,
              by simp [Shop.article, kind, found, plain, limited, shelf, atLevel], ?_⟩
            refine ⟨shelf.symm, rfl, rfl, rfl, rfl, rfl, row.addable, row.positive, keys,
              fun entry mem => (discounted entry mem).2, fun _ entry mem => (discounted entry mem).1,
              fun negative => absurd negative.le more, ?_⟩
            intro other same
            cases same
            exact not_lt.mp fun above => within (.inr above)

theorem check_fits (passed : check shop buyer numbers request = .sells sale) :
    ∃ article, Shop.article shop buyer (numbers.counts (shelfOf numbers request) request.shopId)
      request = some article ∧ Fits data numbers request article sale := by
  rw [check] at passed
  cases kind : request.kind with
  | crystal => exact crystal_fits kind (by rwa [kind] at passed)
  | vip => exact vip_fits kind (by rwa [kind] at passed)
  | normal => exact normal_fits kind (by rwa [kind] at passed)
  | integral => exact integral_fits kind (by rwa [kind] at passed)

def Book.Sound (book : Book) : Prop := book.numbers.counts = book.bought

variable {book : Book} {article : Article}

theorem Fits.counts_written (fits : Fits data numbers request article sale) :
    (numbers.write sale.shelf request.shopId sale.newNum).counts =
      addTo numbers.counts (shelfOf numbers request) request.shopId request.shopNum := by
  rw [counts_write, fits.new, fits.old, fits.shelf]
  rfl

/-- A sale of at least nothing takes its price and adds its goods, or it changes nothing. -/
theorem Fits.right (sound : book.Sound) (fits : Fits data book.numbers request article sale)
    (passed : check shop buyer book.numbers request = .sells sale)
    (asked : Shop.article shop buyer
      (book.numbers.counts (shelfOf book.numbers request) request.shopId) request = some article)
    (nonneg : 0 ≤ request.shopNum) : Right shop book (.buy buyer names request) := by
  rw [Right, buy, passed]
  dsimp only
  rw [sell, fits.price]
  rcases consume_price buyer fits.keys fits.stored (fits.nonneg nonneg) with
    refused | ⟨taken, consumed, inBounds, held⟩
  · rw [refused]
    exact ⟨rfl, counts_write_self fits.old⟩
  · rw [consumed, fits.itemId, fits.count]
    dsimp only
    obtain ⟨added, adds, gained⟩ := @addNewItem_held data
      { buyer.toComposeRole with toRole := taken } names inBounds _ fits.addable
      (article.count * request.shopNum) (Int.mul_nonneg fits.positive.le nonneg)
    rw [adds]
    refine ⟨article, asked, fun id => ?_, fits.counts_written, fun limit same => ?_⟩
    · rw [gained, held]
    · have within := fits.limited limit same
      rw [fits.new, fits.old, fits.shelf] at within
      rw [← sound]
      exact within

theorem Fits.not_right (fits : Fits data book.numbers request article sale)
    (passed : check shop buyer book.numbers request = .sells sale) (negative : request.shopNum < 0) :
    ¬ Right shop book (.buy buyer names request) := by
  have lowered : (book.numbers.write sale.shelf request.shopId sale.newNum).counts ≠
      book.numbers.counts := by
    intro same
    have here := congrFun (congrFun same sale.shelf) request.shopId
    rw [counts_write, Function.update_self, Function.update_self, fits.new, fits.old] at here
    omega
  rw [Right, buy, passed]
  dsimp only
  rw [sell, fits.price]
  rcases consume_negative buyer fits.stored (fits.nonpos negative) with raised | ⟨taken, consumed⟩
  · rw [raised]
    exact fun right => lowered right.2
  · have less : sale.count < 0 := by
      rw [fits.count]
      exact Int.mul_neg_of_pos_of_neg fits.positive negative
    have raises : addNewItem data { buyer.toComposeRole with toRole := taken } sale.itemId sale.count
        names = none := by
      rw [addNewItem, if_neg less.ne, if_pos less.le]
    rw [consumed]
    dsimp only
    rw [raises]
    exact fun right => lowered right.2

theorem check_counts : (∀ left, check shop buyer numbers request = .refused left →
      left.counts = numbers.counts) ∧
    ∀ left, check shop buyer numbers request = .raised left → left.counts = numbers.counts := by
  have written : ∀ shelf, (numbers.write shelf request.shopId
      ((numbers shelf request.shopId).getD 0)).counts = numbers.counts :=
    fun shelf => counts_write_self rfl
  rw [check]
  constructor
  all_goals
    intro left ended
    cases kind : request.kind with
    | crystal =>
        rw [kind] at ended
        dsimp only [crystalCheck] at ended
        repeat' split at ended
        all_goals cases ended
        all_goals rfl
    | integral =>
        rw [kind] at ended
        dsimp only [integralCheck] at ended
        repeat' split at ended
        all_goals cases ended
        all_goals rfl
    | vip =>
        rw [kind] at ended
        dsimp only [vipCheck] at ended
        repeat' split at ended
        all_goals cases ended
        all_goals first | rfl | exact written _
    | normal =>
        rw [kind] at ended
        dsimp only [normalCheck] at ended
        repeat' split at ended
        all_goals cases ended
        all_goals first | rfl | exact written _

theorem right_iff (sound : book.Sound) (event : Event data) :
    Right shop book event ↔ Permitted shop book event := by
  cases event with
  | reset shelf shopId listed => exact Iff.rfl
  | buy buyer names request =>
      cases ended : check shop buyer book.numbers request with
      | refused left =>
          refine iff_of_true ?_ fun _ sale => by rw [ended]; nofun
          rw [Right, buy, ended]
          exact ⟨rfl, check_counts.1 left ended⟩
      | raised left =>
          refine iff_of_true ?_ fun _ sale => by rw [ended]; nofun
          rw [Right, buy, ended]
          exact ⟨rfl, check_counts.2 left ended⟩
      | sells sale =>
          obtain ⟨article, asked, fits⟩ := check_fits ended
          rcases lt_or_ge request.shopNum 0 with negative | nonneg
          · refine iff_of_false (fits.not_right ended negative) fun permitted => ?_
            exact permitted negative sale ended
          · exact iff_of_true (fits.right sound ended asked nonneg)
              fun negative => absurd nonneg (not_le.mpr negative)

theorem step_sound {event : Event data} {next : Book} (sound : book.Sound)
    (right : Right shop book event) (taken : step shop book event = some next) : next.Sound := by
  cases event with
  | reset shelf shopId listed =>
      cases taken
      change Numbers.counts (Function.update book.numbers shelf _) = Function.update book.bought _ _
      rw [counts_update, sound]
      cases listed <;> rfl
  | buy buyer names request =>
      rw [Right] at right
      rw [step] at taken
      rcases ended : Shop.buy shop buyer book.numbers names request with ⟨reply, after, numbers⟩
      rw [ended] at right taken
      cases taken
      cases reply with
      | done =>
          obtain ⟨article, buys⟩ := right
          have counted := buys.counted
          rw [sound] at counted
          exact counted
      | refused => exact right.2.trans sound
      | raised => exact right.2.trans sound

end

/-- A crystal shop with one article, of which one may be bought. -/
def ringShop : ShopData composeData where
  crystalShopData _ := some {
    costs := [(501010, 100)]
    nodup := by decide
    proper := fun cost mem => by
      obtain rfl := List.mem_singleton.mp mem
      exact ⟨by decide, _, rfl, by decide, by decide, by decide⟩
    itemId := 602000
    addable := ⟨rfl, _, rfl, .inr (.inl ⟨rfl, rfl⟩)⟩
    weekLimitNum := none
    requireLevel := [0]
    requireVip := [0]
    itemCount := [5]
    positive := by decide }
  vipShopData _ := none
  normalShopData _ := none
  drawShopData _ := none

def emptyBuyer : Buyer composeData where
  toComposeRole := ringRole
  level := 1
  vip := 0
  activityId := none
  canReceive := false
  inBounds _ mem := absurd mem List.not_mem_nil
  valid := ⟨fun _ mem => absurd mem List.not_mem_nil, fun _ mem => absurd mem List.not_mem_nil⟩
  nonneg _ := le_rfl

/-- The article is listed, and none has been bought. -/
def listedBook : Book where
  numbers shelf shopId := if shelf = .dailyItem ∧ shopId = 1 then some 0 else none
  bought _ _ := 0

theorem listedBook_sound : listedBook.Sound := by
  funext shelf shopId
  rw [Numbers.counts, listedBook]
  dsimp only
  split <;> rfl

def ringRequest (shopNum : ℤ) : Event composeData :=
  .buy emptyBuyer (fun i => toString i) { kind := .crystal, shopId := 1, shopNum }

end UEServer.Shop
