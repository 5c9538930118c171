import UEServer.Bag.Compose
import UEServer.Shop.Price

/-!
# Four shops

`buy_crystal_shop_item`, `buy_vip_shop_item`, `buy_normal_shop_item` and `buy_integral_shop` make their
own checks and then do the same: they raise the number that is bought, consume the price, and add the goods
or restore the number.  `add_item` and `consume_item_dict` are those of the bag.
-/

namespace UEServer.Shop

open Bag

/-- What a shop can sell: currencies, equipment, and props or stuff in stacks. -/
def Addable (data : ComposeData) (itemId : ℕ) : Prop :=
  data.fragmentOf itemId = none ∧ ∃ config, data.config itemId = some config ∧
    (config.itemType = .virtual ∧ config.subType = .currency ∨
      config.itemType = .equip ∧ data.unit itemId = none ∨
        (config.itemType = .prop ∨ config.itemType = .stuff) ∧ data.Stackable itemId)

/-- `cost_item_list` with `cost_item_value`, and `item_id`. -/
structure Row (data : ComposeData) where
  costs : List (ℕ × ℤ)
  nodup : (costs.map Prod.fst).Nodup
  proper : ∀ cost ∈ costs, 0 ≤ cost.2 ∧ data.Stored cost.1
  itemId : ℕ
  addable : Addable data itemId

/-- A row of `CrystalShopData`. -/
structure CrystalRow (data : ComposeData) extends Row data where
  weekLimitNum : Option ℤ
  requireLevel : List ℤ
  requireVip : List ℕ
  itemCount : List ℤ
  positive : ∀ count ∈ itemCount, 0 < count

/-- A row of `VIPShopData`. -/
structure VipRow (data : ComposeData) extends Row data where
  buyNum : List ℤ
  discount : List ℚ
  itemCount : ℤ
  positive : 0 < itemCount
  aligned : buyNum.length = discount.length
  whole : ∀ cost ∈ costs, ∀ rate ∈ discount, 0 ≤ rate ∧ (⌊cost.2 * rate⌋ : ℚ) = cost.2 * rate

/-- A row of `NormalShopData`. -/
structure NormalRow (data : ComposeData) extends Row data where
  vipBuyNum : Option (List ℤ)
  discountNum : List ℕ
  discount : List ℚ
  giftLimitNum : Option ℤ
  vipRequireLevel : ℕ
  itemCount : ℤ
  positive : 0 < itemCount
  nonneg : ∀ rate ∈ discount, 0 ≤ rate

/-- A row of `DrawShopData`. -/
structure DrawRow (data : ComposeData) extends Row data where
  activityId : ℕ
  foreverNum : Option ℤ
  itemCount : ℤ
  positive : 0 < itemCount

structure ShopData (data : ComposeData) where
  crystalShopData : ℕ → Option (CrystalRow data)
  vipShopData : ℕ → Option (VipRow data)
  normalShopData : ℕ → Option (NormalRow data)
  drawShopData : ℕ → Option (DrawRow data)

/-- Where the number of a bought article is kept. -/
inductive Shelf where
  | dailyItem
  | weekItem
  | vipShop
  | normalShop
  | shopDict
  deriving DecidableEq

/-- The numbers that are bought. -/
abbrev Numbers := Shelf → ℕ → Option ℤ

/-- A role that buys, with what it has in the moment. -/
structure Buyer (data : ComposeData) extends ComposeRole where
  level : ℤ
  vip : ℕ
  /-- `activity_id` of the recharge draw. -/
  activityId : Option ℕ
  /-- `can_receive_activity` for it. -/
  canReceive : Bool
  inBounds : InBounds data.toStackData items
  valid : toRole.Valid data.toItemData
  nonneg : ∀ id, 0 ≤ currency id

section
variable {data : ComposeData}

def Numbers.write (numbers : Numbers) (shelf : Shelf) (shopId : ℕ) (num : ℤ) : Numbers :=
  Function.update numbers shelf (Function.update (numbers shelf) shopId (some num))

/-- What a purchase comes to once its checks have passed. -/
structure Sale where
  shelf : Shelf
  oldNum : ℤ
  newNum : ℤ
  consumeDict : List (ℕ × ℤ)
  itemId : ℕ
  count : ℤ

/-- How the checks end, with the numbers that they leave. -/
inductive Check where
  | refused (numbers : Numbers)
  | raised (numbers : Numbers)
  | sells (sale : Sale)

/-- What a purchase does once its checks have passed. -/
def sell (data : ComposeData) (role : ComposeRole) (numbers : Numbers) (names : ℕ → String) (shopId : ℕ)
    (sale : Sale) : Reply × ComposeRole × Numbers :=
  let written := numbers.write sale.shelf shopId sale.newNum
  match consumeItemDict data.toItemData false role.toRole sale.consumeDict with
  | none => (.raised, role, written)
  | some (false, kept) =>
      (.refused, { role with toRole := kept }, numbers.write sale.shelf shopId sale.oldNum)
  | some (true, taken) =>
      match addNewItem data { role with toRole := taken } sale.itemId sale.count names with
      | none => (.raised, { role with toRole := taken }, written)
      | some added => (.done, added, written)

/-- The last tier whose level or vip level the role has. -/
def CrystalRow.canBuyItem (row : CrystalRow data) (level : ℤ) (vip : ℕ) : Option ℤ :=
  (((row.itemCount.zip (row.requireLevel.zip row.requireVip)).reverse).find? fun tier =>
    tier.2.1 ≤ level ∨ tier.2.2 ≤ vip).map Prod.fst

def times (costs : List (ℕ × ℤ)) (num : ℤ) : List (ℕ × ℤ) :=
  costs.map fun cost => (cost.1, cost.2 * num)

/-- The table that lists an article of the crystal shop: the weekly one goes first. -/
def crystalShelf (numbers : Numbers) (shopId : ℕ) : Option Shelf :=
  if (numbers .weekItem shopId).isSome then some .weekItem
  else if (numbers .dailyItem shopId).isSome then some .dailyItem
  else none

/-- The checks of `buy_crystal_shop_item`. -/
def crystalCheck (shop : ShopData data) (role : Buyer data) (numbers : Numbers) (shopId : ℕ)
    (shopNum : ℤ) : Check :=
  match crystalShelf numbers shopId, shop.crystalShopData shopId with
  | none, _ => .refused numbers
  | some _, none => .raised numbers
  | some shelf, some row =>
      let oldNum := (numbers shelf shopId).getD 0
      if oldNum + shopNum > row.weekLimitNum.getD 1 then .refused numbers
      else
        match row.canBuyItem role.level role.vip with
        | none => .refused numbers
        | some count => .sells {
            shelf, oldNum
            newNum := oldNum + shopNum
            consumeDict := times row.costs shopNum
            itemId := row.itemId
            count := count * shopNum }

/-- The checks of `buy_integral_shop`. -/
def integralCheck (shop : ShopData data) (role : Buyer data) (numbers : Numbers) (shopId : ℕ)
    (shopNum : ℤ) : Check :=
  if role.canReceive = false then .refused numbers
  else
    match shop.drawShopData shopId with
    | none => .raised numbers
    | some row =>
        if role.activityId ≠ some row.activityId then .refused numbers
        else
          let oldNum := (numbers .shopDict shopId).getD 0
          if row.foreverNum.any fun limit => oldNum + shopNum > limit then .refused numbers
          else .sells {
            shelf := .shopDict
            oldNum
            newNum := oldNum + shopNum
            consumeDict := times row.costs shopNum
            itemId := row.itemId
            count := row.itemCount * shopNum }

def VipRow.discounted (row : VipRow data) (rate : ℚ) : List (ℕ × ℤ) :=
  row.costs.map fun cost => (cost.1, ⌊cost.2 * rate⌋)

/-- The checks of `buy_vip_shop_item`. -/
def vipCheck (shop : ShopData data) (role : Buyer data) (numbers : Numbers) (shopId : ℕ)
    (shopNum : ℤ) : Check :=
  if shopNum ≤ 0 then .refused numbers
  else
    match shop.vipShopData shopId with
    | none => .refused numbers
    | some row =>
        let oldNum := (numbers .vipShop shopId).getD 0
        let numbers := numbers.write .vipShop shopId oldNum
        match row.buyNum[role.vip]?, row.discount[role.vip]? with
        | some limit, some rate =>
            if oldNum + shopNum > limit then .refused numbers
            else .sells {
              shelf := .vipShop
              oldNum
              newNum := oldNum + shopNum
              consumeDict := times (row.discounted rate) shopNum
              itemId := row.itemId
              count := row.itemCount * shopNum }
        -- without a limit there is no discount either
        | _, _ => .refused numbers

/-- The prices of an article of the normal shop. -/
def NormalRow.prices (row : NormalRow data) : PriceData where
  costItemList := row.costs.map Prod.fst
  costItemValue := row.costs.map fun cost => (cost.2 : ℚ)
  discountNum := row.discountNum
  discount := row.discount

def NormalRow.priceDict (row : NormalRow data) (oldNum shopNum : ℤ) : List (ℕ × ℤ) :=
  row.costs.map fun cost => (cost.1, Shop.priceDict row.prices oldNum.toNat shopNum.toNat cost.1)

/-- The checks of `buy_normal_shop_item`. -/
def normalCheck (shop : ShopData data) (role : Buyer data) (numbers : Numbers) (shopId : ℕ)
    (shopNum : ℤ) : Check :=
  if shopNum ≤ 0 then .refused numbers
  else
    match shop.normalShopData shopId with
    | none => .refused numbers
    | some row =>
        let oldNum := (numbers .normalShop shopId).getD 0
        let numbers := numbers.write .normalShop shopId oldNum
        let sale : Sale := {
          shelf := .normalShop
          oldNum
          newNum := oldNum + shopNum
          consumeDict := row.priceDict oldNum shopNum
          itemId := row.itemId
          count := row.itemCount * shopNum }
        match row.giftLimitNum, row.vipBuyNum with
        | some limit, _ =>
            if role.vip < row.vipRequireLevel ∨ oldNum ≥ limit ∨ oldNum + shopNum > limit then
              .refused numbers
            else .sells { sale with consumeDict := times row.costs shopNum }
        | none, none => .sells sale
        | none, some vipBuyNum =>
            match vipBuyNum[role.vip]? with
            | none => .raised numbers
            | some limit =>
                if limit ≤ 0 ∨ oldNum + shopNum > limit then .refused numbers else .sells sale

inductive Kind where
  | crystal
  | vip
  | normal
  | integral
  deriving DecidableEq

structure Request where
  kind : Kind
  shopId : ℕ
  shopNum : ℤ

/-- The checks of a shop. -/
def check (shop : ShopData data) (role : Buyer data) (numbers : Numbers) (request : Request) : Check :=
  match request.kind with
  | .crystal => crystalCheck shop role numbers request.shopId request.shopNum
  | .vip => vipCheck shop role numbers request.shopId request.shopNum
  | .normal => normalCheck shop role numbers request.shopId request.shopNum
  | .integral => integralCheck shop role numbers request.shopId request.shopNum

/-- A purchase: how it ends, the role and the numbers after it. -/
def buy (shop : ShopData data) (role : Buyer data) (numbers : Numbers) (names : ℕ → String)
    (request : Request) : Reply × ComposeRole × Numbers :=
  match check shop role numbers request with
  | .refused numbers => (.refused, role.toComposeRole, numbers)
  | .raised numbers => (.raised, role.toComposeRole, numbers)
  | .sells sale => sell data role.toComposeRole numbers names request.shopId sale

/-- The numbers, and what has been bought since the article was reset. -/
structure Book where
  numbers : Numbers
  bought : Shelf → ℕ → ℤ

/-- A purchase, or the reset of an article, which may stay listed. -/
inductive Event (data : ComposeData) where
  | buy (role : Buyer data) (names : ℕ → String) (request : Request)
  | reset (shelf : Shelf) (shopId : ℕ) (listed : Bool)

/-- The table in which a purchase is counted. -/
def shelfOf (numbers : Numbers) (request : Request) : Shelf :=
  match request.kind with
  | .crystal => (crystalShelf numbers request.shopId).getD .dailyItem
  | .vip => .vipShop
  | .normal => .normalShop
  | .integral => .shopDict

/-- Add to what has been bought of an article. -/
def addTo (counts : Shelf → ℕ → ℤ) (shelf : Shelf) (shopId : ℕ) (num : ℤ) : Shelf → ℕ → ℤ :=
  Function.update counts shelf (Function.update (counts shelf) shopId (counts shelf shopId + num))

/-- What an event does to the numbers. -/
def step (shop : ShopData data) (book : Book) : Event data → Option Book
  | .buy role names request =>
      let (reply, _, numbers) := Shop.buy shop role book.numbers names request
      some {
        numbers
        bought := if reply = .done then
            addTo book.bought (shelfOf book.numbers request) request.shopId request.shopNum
          else book.bought }
  | .reset shelf shopId listed => some {
      numbers := Function.update book.numbers shelf
        (Function.update (book.numbers shelf) shopId (if listed then some 0 else none))
      bought := Function.update book.bought shelf (Function.update (book.bought shelf) shopId 0) }

/-- An article: the price of a number of units, the goods of one unit, and the limit. -/
structure Article where
  price : ℤ → List (ℕ × ℤ)
  itemId : ℕ
  count : ℤ
  limit : Option ℤ

/-- The article that a request is about, for a role that has bought some of it. -/
def article (shop : ShopData data) (role : Buyer data) (oldNum : ℤ) (request : Request) :
    Option Article :=
  match request.kind with
  | .crystal => (shop.crystalShopData request.shopId).map fun row => {
      price := times row.costs
      itemId := row.itemId
      count := (row.canBuyItem role.level role.vip).getD 0
      limit := some (row.weekLimitNum.getD 1) }
  | .vip => (shop.vipShopData request.shopId).map fun row => {
      price := times (row.discounted ((row.discount[role.vip]?).getD 1))
      itemId := row.itemId
      count := row.itemCount
      limit := row.buyNum[role.vip]? }
  | .normal => (shop.normalShopData request.shopId).map fun row => {
      price := if row.giftLimitNum.isSome then times row.costs else row.priceDict oldNum
      itemId := row.itemId
      count := row.itemCount
      limit := row.giftLimitNum <|> row.vipBuyNum.bind fun limits => limits[role.vip]? }
  | .integral => (shop.drawShopData request.shopId).map fun row => {
      price := times row.costs
      itemId := row.itemId
      count := row.itemCount
      limit := row.foreverNum }

def Numbers.counts (numbers : Numbers) : Shelf → ℕ → ℤ :=
  fun shelf shopId => (numbers shelf shopId).getD 0

/-- Units of an article have been bought. -/
structure Buys (shop : ShopData data) (role : Buyer data) (book : Book) (request : Request)
    (after : ComposeRole) (numbers : Numbers) (article : Article) : Prop where
  asked : Shop.article shop role
    (book.numbers.counts (shelfOf book.numbers request) request.shopId) request = some article
  held : ∀ id, after.toRole.held data.toItemData id = role.toRole.held data.toItemData id -
    ((article.price request.shopNum).lookup id).getD 0 +
      if id = article.itemId then article.count * request.shopNum else 0
  counted : numbers.counts =
    addTo book.numbers.counts (shelfOf book.numbers request) request.shopId request.shopNum
  limited : ∀ limit, article.limit = some limit →
    book.bought (shelfOf book.numbers request) request.shopId + request.shopNum ≤ limit

/-- A purchase succeeds, or it changes nothing. -/
def Right (shop : ShopData data) (book : Book) : Event data → Prop
  | .buy role names request =>
      match Shop.buy shop role book.numbers names request with
      | (.done, after, numbers) => ∃ article, Buys shop role book request after numbers article
      | (_, after, numbers) =>
          after = role.toComposeRole ∧ numbers.counts = book.numbers.counts
  | .reset _ _ _ => True

/-- A request for less than nothing does not pass the checks. -/
def Permitted (shop : ShopData data) (book : Book) : Event data → Prop
  | .buy role _ request =>
      request.shopNum < 0 → ∀ sale, check shop role book.numbers request ≠ .sells sale
  | .reset _ _ _ => True

end

end UEServer.Shop
