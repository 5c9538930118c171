import Mathlib.Data.List.GetD
import Mathlib.Data.List.Intervals
import Mathlib.Data.Rat.Floor
import UEServer.Library.Execution

/-!
# Level and experience

`set_level`, `add_exp` and `delete_exp` in `meta_table/base.lua`.  `_check_lvlup` climbs one level at a
time and runs `_on_lvlup` at each, which may add experience itself and so climb further before the first
climb goes on.  The amounts are any numbers.
-/

namespace UEServer.RoleBase

/-- `LevelData` and what `_on_lvlup` adds. -/
structure Game where
  /-- `exp` of the levels, whose keys count from 1. -/
  exps : List ℚ
  zero : exps.head? = some 0
  increasing : exps.Pairwise (· < ·)
  /-- The experience that a level-up hook adds, each amount with its addition by dynasty spells, after the
  hooks that have been run so far. -/
  onLvlup : List ℚ → List (ℚ × ℚ)

/-- The level and the experience of a role. -/
structure Base where
  level : ℚ
  exp : ℚ
  /-- The levels for which `_on_lvlup` was called so far. -/
  hooks : List ℚ
  deriving DecidableEq

namespace Game

/-- `#LevelData`. -/
def maxLevel (game : Game) : ℕ := game.exps.length

/-- `LevelData[level].exp`; nothing where it raises. -/
def levelExp (game : Game) (level : ℚ) : Option ℚ :=
  if level.den = 1 ∧ 1 ≤ level then game.exps[level.num.toNat - 1]? else none

end Game

/-- `add_exp` without its end, with the climb that it calls.  The result is the role and whether it
returns; nothing if the climb does not end. -/
def addExpWith (climb : Base → Option (Base × Bool)) (base : Base) (amount addition : ℚ) :
    Option (Base × Bool) :=
  let exp := ⌊amount + addition⌋
  if exp ≤ 0 then some (base, true) else climb { base with exp := base.exp + exp }

def runHook (climb : Base → Option (Base × Bool)) : List (ℚ × ℚ) → Base → Option (Base × Bool)
  | [], base => some (base, true)
  | add :: rest, base =>
      match addExpWith climb base add.1 add.2 with
      | none => none
      | some (after, true) => runHook climb rest after
      | some (after, false) => some (after, false)

/-- `_check_lvlup`, at most so many calls deep. -/
def checkLvlup (game : Game) : ℕ → Base → Option (Base × Bool)
  | 0, _ => none
  | fuel + 1, base =>
      if (game.maxLevel : ℚ) ≤ base.level then some (base, true)
      else
        match game.levelExp (base.level + 1) with
        | none => some (base, false)
        | some threshold =>
            if base.exp < threshold then some (base, true)
            else
              let entered : Base :=
                { base with level := base.level + 1, hooks := base.hooks ++ [base.level + 1] }
              match runHook (checkLvlup game fuel) (game.onLvlup entered.hooks) entered with
              | none => none
              | some (after, true) => checkLvlup game fuel after
              | some (after, false) => some (after, false)

def addExp (game : Game) (base : Base) (amount addition : ℚ) : Option (Base × Bool) :=
  addExpWith (checkLvlup game (game.maxLevel + 1)) base amount addition

/-- The loop of `delete_exp` over the levels, from the role's own one down; nothing if it raises. -/
def scanDown (game : Game) (newExp : ℚ) : List ℚ → Option ℚ → Option (Option ℚ)
  | [], newLevel => some newLevel
  | level :: rest, newLevel =>
      match game.levelExp level with
      | none => none
      | some threshold =>
          if threshold ≤ newExp then some newLevel else scanDown game newExp rest (some (level - 1))

/-- The levels over which `delete_exp` loops. -/
def levelsDown (level : ℚ) : List ℚ :=
  (List.range ⌊level⌋₊).map fun steps : ℕ => level - steps

def deleteExp (game : Game) (base : Base) (exp : ℚ) : Base × Bool :=
  if exp ≤ 0 then (base, true)
  else if base.exp ≤ 0 then (base, true)
  else
    let newExp := base.exp - min exp base.exp
    let deleted := { base with exp := newExp }
    if 1 < base.level then
      match scanDown game newExp (levelsDown base.level) none with
      | none => (deleted, false)
      | some none => (deleted, true)
      | some (some newLevel) => ({ deleted with level := newLevel }, true)
    else (deleted, true)

def setLevel (game : Game) (base : Base) (level addition : ℚ) : Option (Base × Bool) :=
  let newLevel := if (game.maxLevel : ℚ) ≤ level then (game.maxLevel : ℚ) else level
  if newLevel ≤ base.level then
    -- The level is set before its experience is looked up.
    match game.levelExp newLevel with
    | none => some ({ base with level := newLevel }, false)
    | some threshold => some ({ base with level := newLevel, exp := threshold }, true)
  else
    match game.levelExp newLevel with
    | none => some (base, false)
    | some threshold => addExp game base (threshold - base.exp) addition

/-- An operation on the level of a role. -/
inductive Operation where
  /-- `add_exp`, with the addition by dynasty spells. -/
  | addExp (amount addition : ℚ)
  | deleteExp (exp : ℚ)
  /-- `set_level`, with the addition by dynasty spells. -/
  | setLevel (level addition : ℚ)

def perform (game : Game) (base : Base) : Operation → Option (Base × Bool)
  | .addExp amount addition => addExp game base amount addition
  | .deleteExp exp => some (deleteExp game base exp)
  | .setLevel level addition => setLevel game base level addition

def operate (game : Game) (base : Base) (operation : Operation) : Option Base :=
  (perform game base operation).map Prod.fst

namespace Game

variable (game : Game)

def threshold (level : ℕ) : ℚ := game.exps.getD (level - 1) 0

theorem maxLevel_pos : 1 ≤ game.maxLevel := by
  have first := game.zero
  cases listed : game.exps with
  | nil =>
      rw [listed] at first
      cases first
  | cons exp exps =>
      rw [maxLevel, listed]
      exact Nat.le_add_left 1 exps.length

variable {game}

theorem levelExp_natCast {level : ℕ} (first : 1 ≤ level) (last : level ≤ game.maxLevel) :
    game.levelExp level = some (game.threshold level) := by
  have inside : level - 1 < game.exps.length := by
    unfold maxLevel at last
    omega
  have number : (level : ℚ).den = 1 ∧ 1 ≤ (level : ℚ) := ⟨rfl, by exact_mod_cast first⟩
  have position : (level : ℚ).num.toNat = level := rfl
  rw [levelExp, if_pos number, position, threshold, List.getElem?_eq_getElem inside,
    List.getD_eq_getElem _ 0 inside]

theorem threshold_one : game.threshold 1 = 0 := by
  have first := game.zero
  unfold threshold
  cases listed : game.exps with
  | nil =>
      rw [listed] at first
      cases first
  | cons exp exps =>
      rw [listed] at first
      exact Option.some.inj first

theorem threshold_lt {low high : ℕ} (first : 1 ≤ low) (less : low < high)
    (last : high ≤ game.maxLevel) : game.threshold low < game.threshold high := by
  unfold maxLevel at last
  have low_inside : low - 1 < game.exps.length := by omega
  have high_inside : high - 1 < game.exps.length := by omega
  have below : low - 1 < high - 1 := by omega
  rw [threshold, threshold, List.getD_eq_getElem _ 0 low_inside,
    List.getD_eq_getElem _ 0 high_inside]
  exact List.pairwise_iff_getElem.mp game.increasing _ _ low_inside high_inside below

theorem threshold_le {low high : ℕ} (first : 1 ≤ low) (less : low ≤ high)
    (last : high ≤ game.maxLevel) : game.threshold low ≤ game.threshold high := by
  rcases less.eq_or_lt with rfl | less
  · exact le_rfl
  · exact (threshold_lt first less last).le

theorem threshold_nonneg {level : ℕ} (first : 1 ≤ level) (last : level ≤ game.maxLevel) :
    0 ≤ game.threshold level :=
  threshold_one.ge.trans (threshold_le le_rfl first last)

end Game

/-- The level of a role is one of the table that its experience reaches. -/
structure Standing (game : Game) (base : Base) (level : ℕ) : Prop where
  level_eq : base.level = level
  first : 1 ≤ level
  last : level ≤ game.maxLevel
  reached : game.threshold level ≤ base.exp

/-- The level follows the experience: it is the largest one whose threshold the experience reaches, and
the experience is not negative. -/
structure Fits (game : Game) (base : Base) : Prop where
  greatest : ∃ level : ℕ, base.level = level ∧
    IsGreatest { level | 1 ≤ level ∧ level ≤ game.maxLevel ∧ game.threshold level ≤ base.exp } level
  nonneg : 0 ≤ base.exp

variable {game : Game} {base : Base}

theorem Standing.fits {level : ℕ} (standing : Standing game base level)
    (full : level < game.maxLevel → base.exp < game.threshold (level + 1)) : Fits game base where
  greatest := by
    refine ⟨level, standing.level_eq, ⟨standing.first, standing.last, standing.reached⟩, ?_⟩
    rintro other ⟨-, last, reached⟩
    by_contra above
    have higher : level + 1 ≤ other := Nat.lt_of_not_le above
    have next := Game.threshold_le (Nat.le_add_left 1 level) higher last
    exact absurd (next.trans reached) (not_le.mpr (full (Nat.lt_of_lt_of_le higher last)))
  nonneg := (Game.threshold_nonneg standing.first standing.last).trans standing.reached

theorem Fits.standing (fits : Fits game base) :
    ∃ level, Standing game base level ∧
      (level < game.maxLevel → base.exp < game.threshold (level + 1)) := by
  obtain ⟨level, level_eq, ⟨first, last, reached⟩, above⟩ := fits.greatest
  refine ⟨level, ⟨level_eq, first, last, reached⟩, fun less => ?_⟩
  by_contra more
  have higher := above ⟨Nat.le_add_left 1 level, less, not_lt.mp more⟩
  exact Nat.not_succ_le_self level higher

/-- The levels from one above `low` to `high`. -/
def entered (low high : ℕ) : List ℚ :=
  (List.Ico (low + 1) (high + 1)).map Nat.cast

theorem entered_self (level : ℕ) : entered level level = [] := by
  rw [entered, List.Ico.self_empty]
  rfl

theorem entered_append {low middle high : ℕ} (below : low ≤ middle) (above : middle ≤ high) :
    entered low middle ++ entered middle high = entered low high := by
  rw [entered, entered, entered, ← List.map_append,
    List.Ico.append_consecutive (Nat.succ_le_succ below) (Nat.succ_le_succ above)]

theorem entered_succ (level : ℕ) : entered level (level + 1) = [(level : ℚ) + 1] := by
  rw [entered, List.Ico.succ_singleton, List.map_singleton, Nat.cast_succ]

/-- A climb goes from one level to another, and runs the hook of each level that it enters, once. -/
structure Climbed (game : Game) (before after : Base) (low high : ℕ) : Prop where
  standing : Standing game after high
  up : low ≤ high
  exp : before.exp ≤ after.exp
  hooks : after.hooks = before.hooks ++ entered low high

theorem Climbed.refl {level : ℕ} (standing : Standing game base level) :
    Climbed game base base level level where
  standing := standing
  up := le_rfl
  exp := le_rfl
  hooks := by rw [entered_self, List.append_nil]

theorem Climbed.trans {before between after : Base} {low middle high : ℕ}
    (first : Climbed game before between low middle)
    (second : Climbed game between after middle high) : Climbed game before after low high where
  standing := second.standing
  up := first.up.trans second.up
  exp := first.exp.trans second.exp
  hooks := by
    rw [second.hooks, first.hooks, List.append_assoc, entered_append first.up second.up]

/-- What is known of a climb: it ends, at a level whose next one is not reached. -/
def Climbs (game : Game) (climb : Base → Option (Base × Bool)) (low : ℕ) : Prop :=
  ∀ base level, low ≤ level → Standing game base level →
    ∃ after high, climb base = some (after, true) ∧ Climbed game base after level high ∧
      (high < game.maxLevel → after.exp < game.threshold (high + 1))

variable {climb : Base → Option (Base × Bool)}

theorem Climbs.addExp {low level : ℕ}
    (climbs : Climbs game climb low) (above : low ≤ level) (standing : Standing game base level)
    (amount addition : ℚ) :
    ∃ after high, addExpWith climb base amount addition = some (after, true) ∧
      Climbed game base after level high ∧ (after = base ∨
        (high < game.maxLevel → after.exp < game.threshold (high + 1))) := by
  unfold addExpWith
  simp only
  split
  · exact ⟨base, level, rfl, .refl standing, .inl rfl⟩
  · rename_i positive
    have more : base.exp ≤ base.exp + (⌊amount + addition⌋ : ℚ) :=
      le_add_of_nonneg_right (by exact_mod_cast (not_le.mp positive).le)
    have raised : Standing game { base with exp := base.exp + ⌊amount + addition⌋ } level :=
      { standing with reached := standing.reached.trans more }
    obtain ⟨after, high, ran, climbed, full⟩ := climbs _ level above raised
    exact ⟨after, high, ran, { climbed with exp := more.trans climbed.exp },
      .inr full⟩

theorem Climbs.runHook {low level : ℕ}
    (climbs : Climbs game climb low) (above : low ≤ level) (standing : Standing game base level)
    (adds : List (ℚ × ℚ)) :
    ∃ after high, runHook climb adds base = some (after, true) ∧
      Climbed game base after level high := by
  induction adds generalizing base level with
  | nil => exact ⟨base, level, rfl, .refl standing⟩
  | cons add adds induction =>
      obtain ⟨between, middle, added, first, -⟩ := climbs.addExp above standing add.1 add.2
      obtain ⟨after, high, ran, second⟩ := induction (above.trans first.up) first.standing
      refine ⟨after, high, ?_, first.trans second⟩
      rw [RoleBase.runHook, added]
      exact ran

/-- `_check_lvlup` ends, no deeper than there are levels above the role's own one. -/
theorem checkLvlup_climbs (game : Game) (fuel low : ℕ) (enough : game.maxLevel - low < fuel) :
    Climbs game (checkLvlup game fuel) low := by
  induction fuel generalizing low with
  | zero => exact absurd enough (Nat.not_lt_zero _)
  | succ fuel induction =>
      intro base level above standing
      rw [checkLvlup, standing.level_eq]
      split
      · rename_i top
        have highest : game.maxLevel ≤ level := by exact_mod_cast top
        exact ⟨base, level, rfl, .refl standing, fun less => absurd less (Nat.not_lt.mpr highest)⟩
      · rename_i not_top
        have less : level < game.maxLevel := by
          by_contra top
          exact not_top (by exact_mod_cast Nat.not_lt.mp top)
        have next := Game.levelExp_natCast (Nat.le_add_left 1 level) less
        push_cast at next
        rw [next]
        simp only
        split
        · rename_i short
          exact ⟨base, level, rfl, .refl standing, fun _ => short⟩
        · rename_i reached
          have next_enough : game.maxLevel - (level + 1) < fuel := by omega
          have deeper := induction (level + 1) next_enough
          have next_standing : Standing game
              { base with level := (level : ℚ) + 1, hooks := base.hooks ++ [(level : ℚ) + 1] }
              (level + 1) :=
            ⟨(Nat.cast_succ level).symm, Nat.le_add_left 1 level, less, not_lt.mp reached⟩
          have step : Climbed game base
              { base with level := (level : ℚ) + 1, hooks := base.hooks ++ [(level : ℚ) + 1] }
              level (level + 1) :=
            ⟨next_standing, Nat.le_succ level, le_rfl, by rw [entered_succ]⟩
          obtain ⟨between, middle, hooked, first⟩ := deeper.runHook le_rfl next_standing
            (game.onLvlup (base.hooks ++ [(level : ℚ) + 1]))
          obtain ⟨after, high, ran, second, full⟩ := deeper between middle first.up first.standing
          refine ⟨after, high, ?_, (step.trans first).trans second, full⟩
          rw [hooked]
          exact ran

/-- A climb ends wherever it starts from a level or above, and does not go down. -/
def Ends (climb : Base → Option (Base × Bool)) (low : ℚ) : Prop :=
  ∀ base : Base, low ≤ base.level →
    ∃ after returned, climb base = some (after, returned) ∧ base.level ≤ after.level

theorem Ends.addExp {low : ℚ} (ends : Ends climb low)
    (above : low ≤ base.level) (amount addition : ℚ) :
    ∃ after returned, addExpWith climb base amount addition = some (after, returned) ∧
      base.level ≤ after.level := by
  unfold addExpWith
  simp only
  split
  · exact ⟨base, true, rfl, le_rfl⟩
  · exact ends _ above

theorem Ends.runHook {low : ℚ} (ends : Ends climb low)
    (above : low ≤ base.level) (adds : List (ℚ × ℚ)) :
    ∃ after returned, RoleBase.runHook climb adds base = some (after, returned) ∧
      base.level ≤ after.level := by
  induction adds generalizing base with
  | nil => exact ⟨base, true, rfl, le_rfl⟩
  | cons add adds induction =>
      obtain ⟨between, returned, added, up⟩ := ends.addExp above add.1 add.2
      rw [RoleBase.runHook, added]
      cases returned with
      | false => exact ⟨between, false, rfl, up⟩
      | true =>
          obtain ⟨after, returned, ran, later⟩ := induction (above.trans up)
          exact ⟨after, returned, ran, up.trans later⟩

theorem Game.le_maxLevel {level threshold : ℚ} (found : game.levelExp level = some threshold) :
    level ≤ game.maxLevel := by
  unfold Game.levelExp at found
  split at found
  · rename_i number
    have level_eq : ((level.num : ℤ) : ℚ) = level := Rat.coe_int_num_of_den_eq_one number.1
    have inside := (List.getElem?_eq_some_iff.mp found).1
    have num_le : level.num ≤ (game.maxLevel : ℤ) := by
      unfold Game.maxLevel
      omega
    rw [← level_eq]
    exact_mod_cast num_le
  · cases found

theorem checkLvlup_ends (game : Game) (fuel : ℕ) (low : ℚ)
    (enough : (game.maxLevel : ℚ) - low < fuel) (some_fuel : 0 < fuel) :
    Ends (checkLvlup game fuel) low := by
  induction fuel generalizing low with
  | zero => exact absurd some_fuel (lt_irrefl 0)
  | succ fuel induction =>
      intro base above
      rw [checkLvlup]
      split
      · exact ⟨base, true, rfl, le_rfl⟩
      split
      · exact ⟨base, false, rfl, le_rfl⟩
      rename_i threshold found
      split
      · exact ⟨base, true, rfl, le_rfl⟩
      have up : base.level ≤ base.level + 1 := le_add_of_nonneg_right zero_le_one
      have next_enough : (game.maxLevel : ℚ) - (base.level + 1) < fuel := by
        push_cast at enough
        linarith
      have more_fuel : 0 < fuel := by
        have inside := Game.le_maxLevel found
        have positive : (0 : ℚ) < fuel := (sub_nonneg.mpr inside).trans_lt next_enough
        exact_mod_cast positive
      have deeper := induction (base.level + 1) next_enough more_fuel
      have entered_level : base.level + 1 ≤
          (Base.level { base with level := base.level + 1, hooks := base.hooks ++ [base.level + 1] }) :=
        le_rfl
      obtain ⟨between, returned, hooked, first⟩ :=
        deeper.runHook entered_level (game.onLvlup (base.hooks ++ [base.level + 1]))
      simp only [hooked]
      cases returned with
      | false => exact ⟨between, false, rfl, up.trans first⟩
      | true =>
          obtain ⟨after, returned, ran, second⟩ := deeper between first
          exact ⟨after, returned, ran, (up.trans first).trans second⟩

theorem addExp_ends (game : Game) (base : Base) (amount addition : ℚ) :
    ∃ after returned, addExp game base amount addition = some (after, returned) := by
  by_cases above : 0 ≤ base.level
  · have enough : (game.maxLevel : ℚ) - 0 < (game.maxLevel + 1 : ℕ) := by
      push_cast
      linarith
    obtain ⟨after, returned, added, -⟩ :=
      (checkLvlup_ends game _ 0 enough (Nat.succ_pos _)).addExp above amount addition
    exact ⟨after, returned, added⟩
  · have missing : game.levelExp (base.level + 1) = none := by
      rw [Game.levelExp, if_neg]
      rintro ⟨-, first⟩
      exact above (by linarith)
    unfold addExp addExpWith
    simp only
    split
    · exact ⟨base, true, rfl⟩
    · rw [checkLvlup]
      split
      · exact ⟨_, true, rfl⟩
      · simp only [missing]
        exact ⟨_, false, rfl⟩

theorem operate_ends (game : Game) (base : Base) (operation : Operation) :
    ∃ after, operate game base operation = some after := by
  cases operation with
  | addExp amount addition =>
      obtain ⟨after, returned, added⟩ := addExp_ends game base amount addition
      exact ⟨after, by simp only [operate, perform, added, Option.map_some]⟩
  | deleteExp exp => exact ⟨_, rfl⟩
  | setLevel level addition =>
      simp only [operate, perform, setLevel]
      generalize (if (game.maxLevel : ℚ) ≤ level then (game.maxLevel : ℚ) else level) = newLevel
      split
      · cases game.levelExp newLevel with
        | none => exact ⟨_, rfl⟩
        | some threshold => exact ⟨_, rfl⟩
      · cases game.levelExp newLevel with
        | none => exact ⟨_, rfl⟩
        | some threshold =>
            obtain ⟨after, returned, added⟩ :=
              addExp_ends game base (threshold - base.exp) addition
            exact ⟨after, by simp only [added, Option.map_some]⟩

/-- The operation sets a level of the table, or one above the role's own. -/
def Named (base : Base) : Operation → Prop
  | .setLevel level _ => base.level < level ∨ level.den = 1 ∧ 1 ≤ level
  | _ => True

/-- An operation that adds experience returns, and runs the hook of each level that it enters, once. -/
def HooksOnce (game : Game) (base : Base) : Operation → Prop
  | .addExp amount addition => ∀ low, Standing game base low →
      ∃ after high, addExp game base amount addition = some (after, true) ∧
        Climbed game base after low high
  | _ => True

theorem addExp_spec (fits : Fits game base) (amount addition : ℚ) :
    ∃ after, addExp game base amount addition = some (after, true) ∧ Fits game after := by
  obtain ⟨level, standing, full⟩ := fits.standing
  have enough : game.maxLevel - 0 < game.maxLevel + 1 := Nat.lt_succ_self _
  obtain ⟨after, high, added, climbed, ended⟩ :=
    (checkLvlup_climbs game _ 0 enough).addExp (Nat.zero_le level) standing amount addition
  refine ⟨after, added, ?_⟩
  rcases ended with rfl | ended
  · exact fits
  · exact climbed.standing.fits ended

theorem addExp_hooksOnce (game : Game) (base : Base) (amount addition : ℚ) :
    HooksOnce game base (.addExp amount addition) := by
  intro low standing
  have enough : game.maxLevel - 0 < game.maxLevel + 1 := Nat.lt_succ_self _
  obtain ⟨after, high, added, climbed, -⟩ :=
    (checkLvlup_climbs game _ 0 enough).addExp (Nat.zero_le low) standing amount addition
  exact ⟨after, high, added, climbed⟩

theorem levelsDown_natCast (level : ℕ) :
    levelsDown level = (List.range level).map fun steps : ℕ => (level : ℚ) - steps := by
  rw [levelsDown, Nat.floor_natCast]

theorem scanDown_spec {newExp : ℚ} (nonneg : 0 ≤ newExp) {level : ℕ} (first : 1 ≤ level)
    (last : level ≤ game.maxLevel) (newLevel : Option ℚ) :
    ∃ found : ℕ, 1 ≤ found ∧ found ≤ level ∧ game.threshold found ≤ newExp ∧
      (found < level → newExp < game.threshold (found + 1)) ∧
      scanDown game newExp ((List.range level).map fun steps : ℕ => (level : ℚ) - steps) newLevel =
        some (if found = level then newLevel else some (found : ℚ)) := by
  induction level generalizing newLevel with
  | zero => exact absurd first (Nat.not_succ_le_zero 0)
  | succ level induction =>
      have levels : (List.range (level + 1)).map (fun steps : ℕ => ((level + 1 : ℕ) : ℚ) - steps) =
          ((level + 1 : ℕ) : ℚ) :: (List.range level).map fun steps : ℕ => (level : ℚ) - steps := by
        rw [List.range_succ_eq_map, List.map_cons, List.map_map, Nat.cast_zero, sub_zero]
        congr 1
        apply List.map_congr_left
        intro steps _
        simp only [Function.comp_apply, Nat.cast_succ]
        ring
      rw [levels, scanDown, Game.levelExp_natCast first last]
      simp only
      split
      · rename_i reached
        exact ⟨level + 1, first, le_rfl, reached, fun less => absurd less (lt_irrefl _), by simp⟩
      · rename_i short
        have lower : 1 ≤ level := by
          by_contra zero
          obtain rfl : level = 0 := by omega
          exact short (Game.threshold_one.le.trans nonneg)
        obtain ⟨found, found_first, found_last, reached, next, scanned⟩ :=
          induction lower (Nat.le_of_succ_le last) (some (((level + 1 : ℕ) : ℚ) - 1))
        have different : found ≠ level + 1 := by omega
        refine ⟨found, found_first, Nat.le_succ_of_le found_last, reached, fun _ => ?_, ?_⟩
        · rcases found_last.eq_or_lt with rfl | less
          · exact not_le.mp short
          · exact next less
        · rw [scanned, if_neg different]
          split
          · rename_i same
            rw [same, Nat.cast_succ, add_sub_cancel_right]
          · rfl

theorem deleteExp_spec (fits : Fits game base) (exp : ℚ) :
    Fits game (deleteExp game base exp).1 := by
  unfold deleteExp
  split
  · exact fits
  split
  · exact fits
  rename_i positive some_exp
  obtain ⟨level, standing, full⟩ := fits.standing
  have less : base.exp - min exp base.exp ≤ base.exp :=
    sub_le_self _ (le_min (not_le.mp positive).le (not_le.mp some_exp).le)
  have left : 0 ≤ base.exp - min exp base.exp := sub_nonneg.mpr (min_le_right exp base.exp)
  simp only
  split
  · obtain ⟨found, found_first, found_last, reached, next, scanned⟩ :=
      scanDown_spec left standing.first standing.last none
    rw [standing.level_eq, levelsDown_natCast, scanned]
    by_cases same : found = level
    · subst same
      rw [if_pos rfl]
      have kept : (({ base with exp := base.exp - min exp base.exp } : Base)).level = (found : ℚ) :=
        standing.level_eq
      rw [← standing.level_eq]
      refine Standing.fits ⟨kept, found_first, standing.last, reached⟩ fun lower => ?_
      exact less.trans_lt (full lower)
    · rw [if_neg same]
      have lower := Nat.lt_of_le_of_ne found_last same
      refine Standing.fits ⟨rfl, found_first, found_last.trans standing.last, reached⟩ fun _ => ?_
      exact next lower
  · rename_i lowest
    rw [standing.level_eq] at lowest
    have first : level = 1 := by
      apply Nat.le_antisymm _ standing.first
      exact_mod_cast not_lt.mp lowest
    subst first
    refine Standing.fits { standing with reached := ?_ } fun lower => ?_
    · exact Game.threshold_one.le.trans left
    · exact less.trans_lt (full lower)

theorem natCast_of_whole {level : ℚ} (whole : level.den = 1) (first : 1 ≤ level) :
    ∃ number : ℕ, 1 ≤ number ∧ level = number := by
  have level_eq : ((level.num : ℤ) : ℚ) = level := Rat.coe_int_num_of_den_eq_one whole
  have num_pos : 1 ≤ level.num := by
    rw [← level_eq] at first
    exact_mod_cast first
  refine ⟨level.num.toNat, by omega, ?_⟩
  rw [← level_eq]
  have number : ((level.num.toNat : ℕ) : ℤ) = level.num := Int.toNat_of_nonneg (by omega)
  exact_mod_cast number.symm

theorem setLevel_spec (fits : Fits game base) {level : ℚ}
    (named : base.level < level ∨ level.den = 1 ∧ 1 ≤ level) (addition : ℚ) :
    ∃ after returned, setLevel game base level addition = some (after, returned) ∧
      Fits game after := by
  obtain ⟨own, standing, full⟩ := fits.standing
  unfold setLevel
  simp only
  generalize clipped : (if (game.maxLevel : ℚ) ≤ level then (game.maxLevel : ℚ) else level) = newLevel
  split
  · rename_i below
    -- The new level is one of the table, whether it was clipped or not.
    have of_table : ∃ number : ℕ, 1 ≤ number ∧ number ≤ game.maxLevel ∧ newLevel = number := by
      split at clipped
      · exact ⟨game.maxLevel, game.maxLevel_pos, le_rfl, clipped.symm⟩
      · subst clipped
        obtain ⟨whole, first⟩ := named.resolve_left (not_lt.mpr below)
        obtain ⟨number, number_first, rfl⟩ := natCast_of_whole whole first
        rw [standing.level_eq] at below
        exact ⟨number, number_first, (Nat.cast_le.mp below).trans standing.last, rfl⟩
    obtain ⟨number, first, last, rfl⟩ := of_table
    rw [Game.levelExp_natCast first last]
    refine ⟨_, true, rfl, Standing.fits ⟨rfl, first, last, le_rfl⟩ fun higher => ?_⟩
    exact Game.threshold_lt first (Nat.lt_succ_self number) higher
  · cases game.levelExp newLevel with
    | none => exact ⟨base, false, rfl, fits⟩
    | some threshold =>
        obtain ⟨after, added, after_fits⟩ := addExp_spec fits (threshold - base.exp) addition
        exact ⟨after, true, added, after_fits⟩

/-- `set_level` below the role's own level on a number that is no level breaks the level. -/
theorem setLevel_breaks (fits : Fits game base) {level : ℚ}
    (unnamed : ¬ (base.level < level ∨ level.den = 1 ∧ 1 ≤ level)) (addition : ℚ) {after : Base}
    (taken : operate game base (.setLevel level addition) = some after) : ¬ Fits game after := by
  obtain ⟨own, standing, full⟩ := fits.standing
  obtain ⟨not_above, no_level⟩ := not_or.mp unnamed
  have below : level ≤ base.level := not_lt.mp not_above
  have under : ¬ (game.maxLevel : ℚ) ≤ level := by
    intro top
    have highest : level = game.maxLevel := by
      apply le_antisymm _ top
      rw [standing.level_eq] at below
      exact below.trans (by exact_mod_cast standing.last)
    exact no_level ⟨by rw [highest]; rfl, by rw [highest]; exact_mod_cast game.maxLevel_pos⟩
  have missing : game.levelExp level = none := by
    rw [Game.levelExp, if_neg no_level]
  simp only [operate, perform, setLevel, if_neg under, if_pos below, missing, Option.map_some,
    Option.some.injEq] at taken
  subst taken
  intro after_fits
  obtain ⟨number, after_standing, -⟩ := after_fits.standing
  have number_eq : level = number := after_standing.level_eq
  exact no_level ⟨by rw [number_eq]; rfl, by rw [number_eq]; exact_mod_cast after_standing.first⟩

theorem operate_spec (fits : Fits game base) {operation : Operation} (named : Named base operation)
    {after : Base} (taken : operate game base operation = some after) : Fits game after := by
  cases operation with
  | addExp amount addition =>
      obtain ⟨other, added, other_fits⟩ := addExp_spec fits amount addition
      simp only [operate, perform, added, Option.map_some, Option.some.injEq] at taken
      exact taken ▸ other_fits
  | deleteExp exp =>
      simp only [operate, perform, Option.map_some, Option.some.injEq] at taken
      exact taken ▸ deleteExp_spec fits exp
  | setLevel level addition =>
      obtain ⟨other, returned, set, other_fits⟩ := setLevel_spec fits named addition
      simp only [operate, perform, set, Option.map_some, Option.some.injEq] at taken
      exact taken ▸ other_fits

/-- What a sequence of operations does: the level follows the experience after each of them, and each
level entered by adding experience runs its hook once. -/
def Follows (game : Game) (base : Base) (operations : List Operation) : Prop :=
  Execution.Always (operate game) (Fits game) base operations ∧
    Execution.Guarded (operate game) (HooksOnce game) base operations

theorem hooksOnce (game : Game) (base : Base) (operations : List Operation) :
    Execution.Guarded (operate game) (HooksOnce game) base operations := by
  induction operations generalizing base with
  | nil => trivial
  | cons operation operations induction =>
      refine ⟨?_, fun next _ => induction next⟩
      cases operation with
      | addExp amount addition => exact addExp_hooksOnce game base amount addition
      | deleteExp exp => trivial
      | setLevel level addition => trivial

/-- The first levels of the game, with a hook at the second one that adds experience. -/
def firstLevels : Game where
  exps := [0, 30, 86]
  zero := rfl
  increasing := by decide +kernel
  onLvlup hooks := if hooks.length = 1 then [(60, 0)] else []

def newRole : Base where
  level := 1
  exp := 0
  hooks := []

theorem newRole_fits : Fits firstLevels newRole :=
  Standing.fits ⟨by simp [newRole], le_rfl, by decide, by decide +kernel⟩
    fun _ => by decide +kernel

end UEServer.RoleBase
