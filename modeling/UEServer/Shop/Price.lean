import Mathlib.Data.Rat.Floor

/-!
# Prices of the normal shop

`buy_normal_shop_item` of `meta_table/normal_shop.lua` counts the units of the day from the first one, to
find the discount of each unit, and adds up the rounded prices of those that are bought now.  Arithmetic is
exact here.
-/

namespace UEServer.Shop

/-- A row of `excel_data.NormalShopData`, as far as its prices go. -/
structure PriceData where
  costItemList : List ℕ
  costItemValue : List ℚ
  discountNum : List ℕ
  discount : List ℚ

/-- What the loop over the units keeps. -/
structure PriceLoop where
  cal : ℕ := 0
  discountIndex : ℕ := 0
  priceDict : ℕ → ℤ := fun _ => 0

/-- The next unit: the next tier begins if the current one is full. -/
def advance (discountNum : List ℕ) (place : ℕ × ℕ) : ℕ × ℕ :=
  match discountNum[place.2]? with
  | some size => if place.1 + 1 > size then (1, place.2 + 1) else (place.1 + 1, place.2)
  | none => (place.1 + 1, place.2)

/-- The loop over the costs, which adds the price of a unit to each. -/
def addPrice (rate : ℚ) (costs : List (ℕ × ℚ)) (priceDict : ℕ → ℤ) : ℕ → ℤ :=
  costs.foldl
    (fun priceDict cost =>
      Function.update priceDict cost.1 ⌈(priceDict cost.1 : ℚ) + rate * cost.2⌉) priceDict

/-- The loop over the units from `i` on, as many as are left. -/
def priceLoop (data : PriceData) (oldNum : ℕ) : ℕ → ℕ → PriceLoop → PriceLoop
  | 0, _, loop => loop
  | left + 1, i, loop =>
      let (cal, discountIndex) := advance data.discountNum (loop.cal, loop.discountIndex)
      let discount := (data.discount[discountIndex]?).getD 1
      let priceDict := if i > oldNum then
          addPrice discount (data.costItemList.zip data.costItemValue) loop.priceDict
        else loop.priceDict
      priceLoop data oldNum left (i + 1) { cal, discountIndex, priceDict }

/-- `price_dict`: what units cost when some have been bought already. -/
def priceDict (data : PriceData) (oldNum shopNum : ℕ) : ℕ → ℤ :=
  (priceLoop data oldNum (oldNum + shopNum) 1 {}).priceDict

/-- The rounded-up price of a unit at a rate. -/
def unitPrice (data : PriceData) (rate : ℚ) (id : ℕ) : ℤ :=
  (((data.costItemList.zip data.costItemValue).filter fun cost => cost.1 = id).map fun cost =>
    ⌈rate * cost.2⌉).sum

/-- The place that the loop has reached after some units, and its tier. -/
def placeAfter (discountNum : List ℕ) : ℕ → ℕ × ℕ
  | 0 => (0, 0)
  | units + 1 => advance discountNum (placeAfter discountNum units)

def PriceData.rate (data : PriceData) (tier : ℕ) : ℚ := (data.discount[tier]?).getD 1

section
variable {data : PriceData}

theorem addPrice_apply (rate : ℚ) (costs : List (ℕ × ℚ)) (priceDict : ℕ → ℤ) (id : ℕ) :
    addPrice rate costs priceDict id = priceDict id +
      ((costs.filter fun cost => cost.1 = id).map fun cost => ⌈rate * cost.2⌉).sum := by
  induction costs generalizing priceDict with
  | nil => exact (Int.add_zero _).symm
  | cons cost costs ih =>
      have rest := ih (Function.update priceDict cost.1 ⌈(priceDict cost.1 : ℚ) + rate * cost.2⌉)
      rw [addPrice, List.foldl_cons]
      rw [addPrice] at rest
      rw [rest]
      by_cases here : cost.1 = id
      · subst here
        rw [Function.update_self, List.filter_cons_of_pos (by simp), List.map_cons, List.sum_cons,
          Int.ceil_intCast_add, Int.add_assoc]
      · rw [Function.update_of_ne (Ne.symm here), List.filter_cons_of_neg (by simpa using here)]

theorem priceLoop_priceDict (oldNum : ℕ) (id : ℕ) (left units : ℕ) (priceDict : ℕ → ℤ) :
    (priceLoop data oldNum left (units + 1)
      { cal := (placeAfter data.discountNum units).1
        discountIndex := (placeAfter data.discountNum units).2
        priceDict }).priceDict id = priceDict id +
      ((List.range' units left).map fun unit => if oldNum ≤ unit then
        unitPrice data (data.rate (placeAfter data.discountNum (unit + 1)).2) id else 0).sum := by
  induction left generalizing units priceDict with
  | zero => exact (Int.add_zero _).symm
  | succ left ih =>
      change (priceLoop data oldNum left (units + 1 + 1)
        { cal := (placeAfter data.discountNum (units + 1)).1
          discountIndex := (placeAfter data.discountNum (units + 1)).2
          priceDict := _ }).priceDict id = _
      rw [ih, List.range'_succ, List.map_cons, List.sum_cons, ← Int.add_assoc]
      by_cases new : oldNum ≤ units
      · rw [if_pos (Nat.lt_succ_of_le new), if_pos new, addPrice_apply]
        rfl
      · rw [if_neg (by omega), if_neg new, Int.add_zero]

theorem priceDict_eq (oldNum shopNum id : ℕ) :
    priceDict data oldNum shopNum id = ((List.range' oldNum shopNum).map fun unit =>
      unitPrice data (data.rate (placeAfter data.discountNum (unit + 1)).2) id).sum := by
  have loop := @priceLoop_priceDict data oldNum id (oldNum + shopNum) 0 fun _ => 0
  have both : List.range' 0 (oldNum + shopNum) =
      List.range' 0 oldNum ++ List.range' oldNum shopNum := by
    have append := @List.range'_append_1 0 oldNum shopNum
    rw [Nat.zero_add] at append
    exact append.symm
  have before : ∀ unit ∈ List.range' 0 oldNum, (if oldNum ≤ unit then
      unitPrice data (data.rate (placeAfter data.discountNum (unit + 1)).2) id else 0) = 0 := by
    intro unit mem
    obtain ⟨-, less⟩ := List.mem_range'_1.mp mem
    rw [if_neg (by omega)]
  have now : ∀ unit ∈ List.range' oldNum shopNum, (if oldNum ≤ unit then
      unitPrice data (data.rate (placeAfter data.discountNum (unit + 1)).2) id else 0) =
      unitPrice data (data.rate (placeAfter data.discountNum (unit + 1)).2) id := by
    intro unit mem
    rw [if_pos (List.mem_range'_1.mp mem).1]
  rw [Int.zero_add, both, List.map_append, List.sum_append, List.map_congr_left before,
    List.map_congr_left now] at loop
  have nothing : ((List.range' 0 oldNum).map fun _ => (0 : ℤ)).sum = 0 := by simp
  rw [nothing, Int.zero_add] at loop
  exact loop

/-- The place of a unit in its tier, and the tier, when consecutive units fill the tiers in order. -/
def fill : List ℕ → ℕ → ℕ × ℕ
  | [], unit => (unit, 0)
  | size :: sizes, unit =>
      if unit ≤ size then (unit, 0)
      else ((fill sizes (unit - size)).1, (fill sizes (unit - size)).2 + 1)

theorem advance_fill {sizes : List ℕ} (nonempty : ∀ size ∈ sizes.tail, 0 < size) (unit : ℕ) :
    advance sizes (fill sizes unit) = fill sizes (unit + 1) := by
  induction sizes generalizing unit with
  | nil => rfl
  | cons size sizes ih =>
      rw [fill]
      by_cases here : unit ≤ size
      · rw [if_pos here, advance]
        change (if unit + 1 > size then (1, 1) else (unit + 1, 0)) = _
        by_cases full : unit + 1 > size
        · rw [if_pos full, fill, if_neg (not_le.mpr full)]
          have first : unit + 1 - size = 1 := by omega
          rw [first]
          cases sizes with
          | nil => rfl
          | cons next sizes =>
              have first_here : 1 ≤ next := nonempty next List.mem_cons_self
              rw [fill, if_pos first_here]
        · rw [if_neg full, fill, if_pos (not_lt.mp full)]
      · have rest := ih (fun next mem => nonempty next (List.mem_of_mem_tail mem)) (unit - size)
        have later : unit + 1 - size = unit - size + 1 := by omega
        rw [if_neg here, fill, if_neg (by omega), later, ← rest, advance, advance]
        rw [List.getElem?_cons_succ]
        cases sizes[(fill sizes (unit - size)).2]? with
        | none => rfl
        | some next =>
            dsimp only
            split <;> rfl

theorem fill_zero (sizes : List ℕ) : fill sizes 0 = (0, 0) := by
  cases sizes with
  | nil => rfl
  | cons size sizes => rw [fill, if_pos (Nat.zero_le size)]

theorem placeAfter_eq {sizes : List ℕ} (nonempty : ∀ size ∈ sizes.tail, 0 < size) (units : ℕ) :
    placeAfter sizes units = fill sizes units := by
  induction units with
  | zero => exact (fill_zero sizes).symm
  | succ units ih => rw [placeAfter, ih, advance_fill nonempty]

/-- Two purchases cost what one of all their units costs. -/
def PathIndependent (data : PriceData) : Prop :=
  ∀ oldNum n m id, priceDict data oldNum n id + priceDict data (oldNum + n) m id =
    priceDict data oldNum (n + m) id

/-- A unit costs its rounded-up price, at the rate of the tier in which it falls. -/
def PricedByTier (data : PriceData) : Prop :=
  ∀ unit id, 0 < unit → priceDict data (unit - 1) 1 id =
    unitPrice data (data.rate (fill data.discountNum unit).2) id

theorem pathIndependent (data : PriceData) : PathIndependent data := by
  intro oldNum n m id
  rw [priceDict_eq, priceDict_eq, priceDict_eq, ← List.range'_append_1, List.map_append,
    List.sum_append]

/-- The prices of the normal shop do not depend on how a purchase is split, and each unit is priced by its
tier if no tier but the first is empty. -/
theorem prices_right (data : PriceData) : PathIndependent data ∧
    ((∀ size ∈ data.discountNum.tail, 0 < size) → PricedByTier data) := by
  refine ⟨pathIndependent data, fun nonempty unit id positive => ?_⟩
  have here : unit - 1 + 1 = unit := by omega
  rw [priceDict_eq, List.range'_one, List.map_singleton, List.sum_singleton, here,
    placeAfter_eq nonempty]

end

/-- An article of the normal shop: the first three units have the first discount. -/
def energyPrice : PriceData where
  costItemList := [101005]
  costItemValue := [100]
  discountNum := [3, 3, 9, 5, 5, 5]
  discount := [1 / 10, 1 / 5, 3 / 10, 2 / 5, 1 / 2, 4 / 5]

theorem prices_right_energyPrice : PricedByTier energyPrice :=
  (prices_right energyPrice).2 (by decide)

/-- The same article, where the second discount is for no units. -/
def emptyTierPrice : PriceData where
  costItemList := [101005]
  costItemValue := [100]
  discountNum := [3, 0, 9]
  discount := [1 / 10, 1 / 5, 3 / 10]

/-- The fourth unit gets the second discount, but it falls in the third tier. -/
theorem emptyTierPrice_not_pricedByTier : ¬ PricedByTier emptyTierPrice := by
  intro priced
  have fourth := priced 4 101005 (by decide)
  have charged : priceDict emptyTierPrice (4 - 1) 1 101005 = 20 := by decide +kernel
  have due : unitPrice emptyTierPrice (emptyTierPrice.rate (fill emptyTierPrice.discountNum 4).2)
      101005 = 30 := by decide +kernel
  rw [charged, due] at fourth
  cases fourth

end UEServer.Shop
