import Mathlib.Tactic.Ring.Basic

/-!
# Draws earned by recharging

`get_addition_draw_num` of `meta_table/recharge_draw.lua` spends a recharge draw by draw, and the price of
a draw depends on the total recharged so far.  What is left of a recharge stays in the total, but the next
recharge begins a new draw there.
-/

namespace UEServer.RechargeDraw

/-- The tiers in a row of `RechargeActivityData`. -/
structure TierTable where
  rechargeCountList : List ℕ
  drawDiffCount : List ℕ
  aligned : rechargeCountList.length = drawDiffCount.length
  ascending : rechargeCountList.Pairwise (· < ·)
  zero : rechargeCountList.head? = some 0
  positive : ∀ diff ∈ drawDiffCount, 0 < diff

/-- What recharging changes in `role.db.recharge_draw`. -/
structure DrawInfo where
  rechargeCount : ℕ
  additionNum : ℤ
  deriving DecidableEq

/-- The loop over the tiers, from the last one to the first: the price of the tier that is reached. -/
def TierTable.reached (table : TierTable) (rechargeCount : ℕ) : Option ℕ :=
  (((table.rechargeCountList.zip table.drawDiffCount).reverse).find? fun tier =>
    tier.1 ≤ rechargeCount).map Prod.snd

/-- The loop of `get_addition_draw_num`, for the rounds that are left and the amount that is left. -/
def drawLoop (table : TierTable) : ℕ → ℤ → DrawInfo → DrawInfo
  | 0, _, drawInfo => drawInfo
  | rounds + 1, rechargeCount, drawInfo =>
      let (rechargeCount, drawInfo) : ℤ × DrawInfo := match table.reached drawInfo.rechargeCount with
        | some diff => (rechargeCount - diff,
            { rechargeCount := drawInfo.rechargeCount + diff
              additionNum := drawInfo.additionNum + 1 })
        | none => (rechargeCount, drawInfo)
      if rechargeCount < 0 then
        -- the last step is taken back
        { rechargeCount := (drawInfo.rechargeCount + rechargeCount).toNat
          additionNum := drawInfo.additionNum - 1 }
      else drawLoop table rounds rechargeCount drawInfo

/-- `get_addition_draw_num`, with the tiers of the activity if it can be received. -/
def getAdditionDrawNum (activity : Option TierTable) (drawInfo : DrawInfo) (rechargeCount : ℕ) :
    DrawInfo :=
  match activity with
  | none => drawInfo
  | some table => drawLoop table rechargeCount rechargeCount drawInfo

/-- How many whole draws an amount pays for, where a draw at each total has its price. -/
def draws (price : ℕ → ℕ) (total amount : ℕ) : ℕ :=
  if 0 < price total ∧ price total ≤ amount then
    draws price (total + price total) (amount - price total) + 1
  else 0
termination_by amount

section
variable {price : ℕ → ℕ}

theorem draws_of_le {total amount : ℕ} (positive : 0 < price total) (enough : price total ≤ amount) :
    draws price total amount =
      draws price (total + price total) (amount - price total) + 1 := by
  rw [draws, if_pos ⟨positive, enough⟩]

theorem draws_of_lt {total amount : ℕ} (short : amount < price total) :
    draws price total amount = 0 := by
  rw [draws, if_neg fun both => absurd both.2 (not_le.mpr short)]

/-- What one recharge pays for and what the next one pays for add up. -/
def Additive (price : ℕ → ℕ) (total : ℕ) : Prop :=
  ∀ a b, 0 < a → 0 < b →
    draws price total (a + b) = draws price total a + draws price (total + a) b

/-- From a total on, every unit is worth a draw or brings the end of the draw one unit nearer. -/
def Steady (price : ℕ → ℕ) (total : ℕ) : Prop :=
  ∀ count, total ≤ count → price count = 1 ∨ price (count + 1) + 1 = price count

theorem draws_zero (positive : ∀ count, 0 < price count) (total : ℕ) : draws price total 0 = 0 :=
  draws_of_lt (positive total)

theorem Steady.draws_one_add (positive : ∀ count, 0 < price count) {total : ℕ}
    (steady : Steady price total) (b : ℕ) :
    draws price total (1 + b) = draws price total 1 + draws price (total + 1) b := by
  rcases steady total le_rfl with one | nearer
  · rw [draws_of_le (positive total) (by omega), draws_of_le (positive total) one.le, one,
      Nat.sub_self, draws_zero positive, Nat.add_sub_cancel_left, Nat.zero_add, Nat.add_comm]
  · have next := positive (total + 1)
    rw [draws_of_lt (show 1 < price total by omega), Nat.zero_add]
    by_cases enough : price total ≤ 1 + b
    · rw [draws_of_le (positive total) enough, draws_of_le next (by omega)]
      have same_total : total + price total = total + 1 + price (total + 1) := by omega
      have same_left : 1 + b - price total = b - price (total + 1) := by omega
      rw [same_total, same_left]
    · rw [draws_of_lt (by omega), draws_of_lt (by omega)]

theorem Steady.additive (positive : ∀ count, 0 < price count) {total : ℕ}
    (steady : Steady price total) : Additive price total := by
  intro a b _ _
  induction a generalizing total with
  | zero => rw [Nat.zero_add, draws_zero positive, Nat.zero_add, Nat.add_zero]
  | succ a ih =>
      have later : Steady price (total + 1) := fun count reached => steady count (by omega)
      have whole := steady.draws_one_add positive (a + b)
      have first := steady.draws_one_add positive a
      have rest : draws price (total + 1) (a + b) =
          draws price (total + 1) a + draws price (total + 1 + a) b := by
        rcases Nat.eq_zero_or_pos a with rfl | more
        · rw [Nat.zero_add, draws_zero positive, Nat.zero_add, Nat.add_zero]
        · exact ih later more
      rw [Nat.add_comm a 1, Nat.add_assoc, whole, first, rest, Nat.add_assoc, Nat.add_assoc]

theorem Additive.later {total : ℕ} (additive : Additive price total) (gone : ℕ) :
    Additive price (total + gone) := by
  intro a b a_pos b_pos
  rcases Nat.eq_zero_or_pos gone with rfl | gone_pos
  · exact additive a b a_pos b_pos
  · have both := additive gone (a + b) gone_pos (by omega)
    have front := additive (gone + a) b (by omega) b_pos
    have first := additive gone a gone_pos a_pos
    rw [← Nat.add_assoc, front, first, ← Nat.add_assoc] at both
    omega

theorem Additive.steady (positive : ∀ count, 0 < price count) {total : ℕ}
    (additive : Additive price total) : Steady price total := by
  intro count reached
  obtain ⟨gone, rfl⟩ := Nat.exists_eq_add_of_le reached
  have here := additive.later gone
  generalize total + gone = count at here ⊢
  by_cases one : price count = 1
  · exact .inl one
  · have more : 1 < price count := by
      have := positive count
      omega
    have next := positive (count + 1)
    -- the unit alone pays for nothing
    have split : ∀ b, 0 < b → draws price count (1 + b) = draws price (count + 1) b := by
      intro b b_pos
      rw [here 1 b Nat.one_pos b_pos, draws_of_lt more, Nat.zero_add]
    have not_later : price (count + 1) ≤ price count - 1 := by
      by_contra later
      have whole := split (price count - 1) (by omega)
      rw [draws_of_le (positive count) (by omega), draws_of_lt (not_le.mp later)] at whole
      exact absurd whole (Nat.succ_ne_zero _)
    have not_sooner : price count ≤ 1 + price (count + 1) := by
      by_contra sooner
      have whole := split (price (count + 1)) next
      rw [draws_of_lt (not_le.mp sooner), draws_of_le next le_rfl] at whole
      exact absurd whole.symm (Nat.succ_ne_zero _)
    omega

end

def TierTable.price (table : TierTable) (total : ℕ) : ℕ := (table.reached total).getD 0

section
variable (table : TierTable)

theorem TierTable.reached_eq (total : ℕ) :
    table.reached total = some (table.price total) ∧ 0 < table.price total := by
  have found : ∃ tier, ((table.rechargeCountList.zip table.drawDiffCount).reverse).find?
      (fun tier => tier.1 ≤ total) = some tier := by
    apply Option.isSome_iff_exists.mp
    rw [List.find?_isSome]
    have start := table.zero
    have aligned := table.aligned
    cases counts : table.rechargeCountList with
    | nil => rw [counts] at start; cases start
    | cons count counts_left =>
        cases diffs : table.drawDiffCount with
        | nil => rw [counts, diffs] at aligned; cases aligned
        | cons diff diffs_left =>
            rw [counts] at start
            obtain rfl : count = 0 := Option.some.inj start
            exact ⟨(0, diff), by simp, by simp⟩
  obtain ⟨tier, found⟩ := found
  have reached : table.reached total = some tier.2 := by
    rw [TierTable.reached, found, Option.map_some]
  have price : table.price total = tier.2 := by rw [TierTable.price, reached, Option.getD_some]
  have mem : tier ∈ table.rechargeCountList.zip table.drawDiffCount :=
    List.mem_reverse.mp (List.mem_of_find?_eq_some found)
  rw [price]
  exact ⟨reached, table.positive tier.2 (List.of_mem_zip mem).2⟩

/-- The loop adds the amount to the total, and the whole draws to the draws. -/
theorem drawLoop_eq {rounds amount : ℕ} (enough : amount ≤ rounds) (drawInfo : DrawInfo) :
    drawLoop table rounds amount drawInfo =
      { rechargeCount := drawInfo.rechargeCount + amount
        additionNum := drawInfo.additionNum + draws table.price drawInfo.rechargeCount amount } := by
  induction rounds generalizing amount drawInfo with
  | zero =>
      obtain rfl : amount = 0 := Nat.le_zero.mp enough
      rw [drawLoop, draws_of_lt (table.reached_eq _).2]
      simp
  | succ rounds ih =>
      obtain ⟨reached, positive⟩ := table.reached_eq drawInfo.rechargeCount
      rw [drawLoop, reached]
      dsimp only
      by_cases whole : table.price drawInfo.rechargeCount ≤ amount
      · have left : (amount : ℤ) - table.price drawInfo.rechargeCount =
            ((amount - table.price drawInfo.rechargeCount : ℕ) : ℤ) := by omega
        rw [left, if_neg (by omega), ih (by omega), draws_of_le positive whole]
        congr 1
        · dsimp only
          omega
        · dsimp only
          omega
      · rw [if_pos (by omega), draws_of_lt (not_le.mp whole)]
        congr 1
        · omega
        · omega

theorem getAdditionDrawNum_eq (drawInfo : DrawInfo) (amount : ℕ) :
    getAdditionDrawNum (some table) drawInfo amount =
      { rechargeCount := drawInfo.rechargeCount + amount
        additionNum := drawInfo.additionNum + draws table.price drawInfo.rechargeCount amount } :=
  drawLoop_eq table le_rfl drawInfo

/-- What recharging is to be: only the total matters, the total grows by the amount, and no draw is
lost. -/
structure DependsOnTotal (drawInfo : DrawInfo) : Prop where
  sum : ∀ a b, 0 < a → 0 < b →
    getAdditionDrawNum (some table) (getAdditionDrawNum (some table) drawInfo a) b =
      getAdditionDrawNum (some table) drawInfo (a + b)
  grows : ∀ a, 0 < a →
    (getAdditionDrawNum (some table) drawInfo a).rechargeCount = drawInfo.rechargeCount + a
  kept : ∀ a, 0 < a → drawInfo.additionNum ≤ (getAdditionDrawNum (some table) drawInfo a).additionNum

/-- Two recharges earn what one of their sum earns, for all amounts, exactly if from the total on every
unit is worth a draw or brings the end of the draw one unit nearer. -/
theorem dependsOnTotal_iff (drawInfo : DrawInfo) :
    DependsOnTotal table drawInfo ↔ Steady table.price drawInfo.rechargeCount := by
  have positive : ∀ count, 0 < table.price count := fun count => (table.reached_eq count).2
  have sums : ∀ a b,
      (getAdditionDrawNum (some table) (getAdditionDrawNum (some table) drawInfo a) b =
        getAdditionDrawNum (some table) drawInfo (a + b)) ↔
      draws table.price drawInfo.rechargeCount (a + b) =
        draws table.price drawInfo.rechargeCount a +
          draws table.price (drawInfo.rechargeCount + a) b := by
    intro a b
    simp only [getAdditionDrawNum_eq, DrawInfo.mk.injEq]
    constructor
    · omega
    · intro same
      exact ⟨Nat.add_assoc _ _ _, by omega⟩
  constructor
  · intro depends
    have additive : Additive table.price drawInfo.rechargeCount :=
      fun a b a_pos b_pos => (sums a b).mp (depends.sum a b a_pos b_pos)
    exact additive.steady positive
  · intro steady
    refine ⟨fun a b a_pos b_pos => ?_, fun a _ => ?_, fun a _ => ?_⟩
    · exact (sums a b).mpr (steady.additive positive a b a_pos b_pos)
    · rw [getAdditionDrawNum_eq]
    · rw [getAdditionDrawNum_eq]
      exact Int.le_add_of_nonneg_right (Int.natCast_nonneg _)

end

/-- The tiers of one of the game's activities. -/
def activityTable : TierTable where
  rechargeCountList := [0, 102, 202]
  drawDiffCount := [6, 5, 4]
  aligned := rfl
  ascending := by decide
  zero := rfl
  positive := by decide

/-- A recharge of 68 and then one of 198 earn 52 draws, and one of 266 earns 53. -/
theorem activityTable_not_dependsOnTotal : ¬ DependsOnTotal activityTable ⟨0, 0⟩ := by
  intro depends
  have same := depends.sum 68 198 (by decide) (by decide)
  have parts : getAdditionDrawNum (some activityTable)
      (getAdditionDrawNum (some activityTable) ⟨0, 0⟩ 68) 198 = ⟨266, 52⟩ := by decide +kernel
  have whole : getAdditionDrawNum (some activityTable) ⟨0, 0⟩ (68 + 198) = ⟨266, 53⟩ := by
    decide +kernel
  rw [parts, whole] at same
  cases same

end UEServer.RechargeDraw
