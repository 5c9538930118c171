import UEServer.Fight.Choice
import UEServer.Fight.Game

/-!
# The targets with the most anger

`GetAttackTargetAngerNum` goes through the angers from the highest one down to zero in steps of
one, and takes the units of an anger together if there is room for all of them, dead ones included.
It is right if and only if no dead unit is taken that way, and no living unit is left out whose
anger lies between the steps.
-/

namespace UEServer.Fight

variable {fight : FightData} {game : Game} {side : Side}

def Game.living (game : Game) (fight : FightData) (side : Side) : List Place :=
  game.aliveOf fight side positions

/-- As many targets as there should be, and no living unit that is left out has more anger than a
target. -/
structure HighestAnger (game : Game) (fight : FightData) (side : Side) (targets : List Place) :
    Prop where
  /-- There are three, or all living units if there are fewer. -/
  length : targets.length = min maxAngerNum (game.living fight side).length
  highest : ∀ place ∈ game.living fight side, place ∉ targets → ∀ target ∈ targets,
    (game.units place).anger ≤ (game.units target).anger

def Game.ladder (game : Game) (fight : FightData) (side : Side) : List ℚ :=
  let maxAnger := game.maxAnger fight side
  (List.range (⌊maxAnger⌋.toNat + 1)).map fun (step : Nat) => maxAnger - step

def Game.group (game : Game) (fight : FightData) (side : Side) (anger : ℚ) : List Place :=
  (fight.units side).filter fun place => (game.units place).anger = anger

/-- The living units with more anger whose anger the loop goes through. -/
def Game.above (game : Game) (fight : FightData) (side : Side) (anger : ℚ) : List Place :=
  (game.living fight side).filter fun place =>
    (game.units place).anger ∈ game.ladder fight side ∧ anger < (game.units place).anger

/-- If a dead unit has the anger, the units with it are more than there is room for after the living
units with more anger. -/
def Game.Undisturbed (game : Game) (fight : FightData) (side : Side) (anger : ℚ) : Prop :=
  (∃ place ∈ fight.units side, (game.units place).isDeath ∧ (game.units place).anger = anger) →
    maxAngerNum < (game.above fight side anger).length + (game.group fight side anger).length

/-- The loop finds the units with the most anger. -/
structure Game.AngerReached (game : Game) (fight : FightData) (side : Side) : Prop where
  /-- A living unit whose anger the loop does not go through has less anger than three units whose
  anger it goes through. -/
  covered : ∀ place ∈ game.living fight side,
    (game.units place).anger ∉ game.ladder fight side →
      maxAngerNum ≤ (game.above fight side (game.units place).anger).length
  undisturbed : ∀ anger ∈ game.ladder fight side, game.Undisturbed fight side anger

variable {place : Place}

theorem Game.mem_living :
    place ∈ game.living fight side ↔ place.side = side ∧ game.alive fight place := by
  unfold Game.living
  rw [Game.mem_aliveOf]
  constructor
  · exact And.right
  · exact fun living =>
      ⟨FightData.inside_of_occupied (Game.occupied_of_alive living.2), living⟩

theorem Game.living_nodup (game : Game) : (game.living fight side).Nodup :=
  game.aliveOf_nodup side positions_nodup

theorem Game.mem_living_iff_units :
    place ∈ game.living fight side ↔
      place ∈ fight.units side ∧ (game.units place).isDeath = false := by
  rw [Game.mem_living, FightData.mem_units]
  unfold Game.alive
  simp only [Bool.and_eq_true, Bool.not_eq_true', and_assoc]

variable {anger : ℚ}

theorem Game.mem_group :
    place ∈ game.group fight side anger ↔
      place ∈ fight.units side ∧ (game.units place).anger = anger := by
  unfold Game.group
  rw [List.mem_filter, decide_eq_true_iff]

theorem Game.mem_above :
    place ∈ game.above fight side anger ↔
      place ∈ game.living fight side ∧ (game.units place).anger ∈ game.ladder fight side ∧
        anger < (game.units place).anger := by
  unfold Game.above
  rw [List.mem_filter, decide_eq_true_iff]

theorem Game.above_nodup (game : Game) (anger : ℚ) : (game.above fight side anger).Nodup :=
  (Game.living_nodup game).filter _

theorem FightData.units_nodup (fight : FightData) (side : Side) : (fight.units side).Nodup :=
  (positions_nodup.map fun _ _ same => congrArg Place.pos same).filter _

theorem Game.ladder_pairwise (game : Game) (fight : FightData) (side : Side) :
    (game.ladder fight side).Pairwise fun higher lower => lower < higher := by
  refine List.Pairwise.map _ (fun first second earlier => ?_) List.pairwise_lt_range
  have steps : (first : ℚ) < second := Nat.cast_lt.mpr earlier
  exact sub_lt_sub_left steps _

theorem length_le_of_subset {few many : List Place} (distinct : few.Nodup)
    (subset : ∀ place ∈ few, place ∈ many) : few.length ≤ many.length :=
  (List.subperm_of_subset distinct subset).length_le

/-- The living units at positions that have an anger. -/
def Game.angry (game : Game) (fight : FightData) (side : Side) (anger : ℚ) (list : List Nat) :
    List Place :=
  (game.aliveOf fight side list).filter fun place => (game.units place).anger = anger

/-- The loop takes the living units with the anger as long as there is room. -/
theorem takeAnger_run {list : List Nat} {targets : List Place}
    (inside : ∀ pos ∈ list, pos ∈ positions) (room : targets.length < maxAngerNum) :
    takeAnger fight side anger list targets game =
      .ok (targets ++ (game.angry fight side anger list).take (maxAngerNum - targets.length))
        game := by
  induction list generalizing targets with
  | nil =>
      rw [show game.angry fight side anger [] = [] from rfl, List.take_nil, List.append_nil]
      rfl
  | cons pos rest ih =>
      obtain ⟨first, others⟩ := List.forall_mem_cons.mp inside
      change EStateM.bind _ _ game = _
      unfold EStateM.bind
      rw [aliveAt_run first]
      unfold Game.angry Game.aliveOf
      rw [List.map_cons, List.filter_cons]
      cases alive : game.alive fight { side, pos } with
      | false => exact ih others room
      | true =>
          by_cases same : (game.units { side, pos }).anger = anger
          · have one_more : (targets ++ [({ side, pos } : Place)]).length = targets.length + 1 := by
              simp
            have left : maxAngerNum - targets.length =
                maxAngerNum - (targets.length + 1) + 1 := by omega
            simp only [if_true, List.filter_cons, same, decide_true, left, List.take_succ_cons]
            change (if (game.units { side, pos }).anger = anger then _ else _ : M _) game = _
            rw [if_pos same]
            split
            · rw [show maxAngerNum - (targets.length + 1) = 0 by omega, List.take_zero]
              rfl
            · rw [ih others (by omega), one_more, List.append_assoc]
              rfl
          · simp only [if_true, List.filter_cons, same, decide_false]
            change (if (game.units { side, pos }).anger = anger then _ else _ : M _) game = _
            rw [if_neg same]
            exact ih others room

/-- The targets are the living units with the angers that the loop has gone through, and there is
room for more. -/
structure Collected (game : Game) (fight : FightData) (side : Side) (angers : List ℚ)
    (targets : List Place) : Prop where
  nodup : targets.Nodup
  mem : ∀ place, place ∈ targets ↔
    place ∈ game.living fight side ∧ (game.units place).anger ∈ angers
  room : targets.length < maxAngerNum
  undisturbed : ∀ anger ∈ angers, game.Undisturbed fight side anger

def Best (game : Game) (fight : FightData) (side : Side) (targets : List Place) : Prop :=
  Targets game fight side targets ∧ HighestAnger game fight side targets

theorem Collected.best_iff (many : maxAngerNum < (game.living fight side).length)
    {targets : List Place} (collected : Collected game fight side (game.ladder fight side) targets) :
    Best game fight side targets ↔ game.AngerReached fight side := by
  refine iff_of_false (fun best => ?_) fun reached => ?_
  · have length := best.2.length
    have room := collected.room
    omega
  · have not_all : ¬ ∀ place ∈ game.living fight side,
        (game.units place).anger ∈ game.ladder fight side := fun all => by
      have everyone := length_le_of_subset game.living_nodup fun place mem =>
        (collected.mem place).mpr ⟨mem, all place mem⟩
      have room := collected.room
      omega
    simp only [not_forall] at not_all
    obtain ⟨place, living, off⟩ := not_all
    have enough := reached.covered place living off
    have above_le := length_le_of_subset (game.above_nodup (game.units place).anger)
      fun other mem => (collected.mem other).mpr
        ⟨(Game.mem_above.mp mem).1, (Game.mem_above.mp mem).2.1⟩
    have room := collected.room
    omega

theorem mem_before_iff {angers rest : List ℚ}
    (ladder : game.ladder fight side = angers ++ anger :: rest) (other : ℚ) :
    other ∈ angers ↔ other ∈ game.ladder fight side ∧ anger < other := by
  have sorted := game.ladder_pairwise fight side
  rw [ladder] at sorted ⊢
  obtain ⟨-, rest_sorted, before⟩ := List.pairwise_append.mp sorted
  constructor
  · exact fun mem => ⟨List.mem_append_left _ mem, before other mem anger List.mem_cons_self⟩
  · rintro ⟨mem, higher⟩
    rcases List.mem_append.mp mem with mem | mem
    · exact mem
    · rcases List.mem_cons.mp mem with rfl | later
      · exact absurd higher (lt_irrefl _)
      · exact absurd (List.rel_of_pairwise_cons rest_sorted later) higher.not_gt

/-- The living units with an anger, in some order. -/
structure WithAnger (game : Game) (fight : FightData) (side : Side) (anger : ℚ)
    (units : List Place) : Prop where
  nodup : units.Nodup
  mem : ∀ place, place ∈ units ↔
    place ∈ game.living fight side ∧ (game.units place).anger = anger

section
variable {angers rest : List ℚ} {anger : ℚ} {targets units : List Place}
  (ladder : game.ladder fight side = angers ++ anger :: rest)
  (collected : Collected game fight side angers targets)
include ladder collected

theorem Collected.above_length : (game.above fight side anger).length = targets.length := by
  have same : ∀ place, place ∈ game.above fight side anger ↔ place ∈ targets := fun place => by
    rw [Game.mem_above, collected.mem, mem_before_iff ladder]
  exact ((List.perm_ext_iff_of_nodup (game.above_nodup anger) collected.nodup).mpr same).length_eq

variable (with_anger : WithAnger game fight side anger units)
include with_anger

theorem Collected.append_nodup (num : Nat) : (targets ++ units.take num).Nodup := by
  refine List.Nodup.append collected.nodup (with_anger.nodup.sublist (List.take_sublist _ _)) ?_
  intro place collected_mem taken_mem
  have before := ((collected.mem place).mp collected_mem).2
  have same := ((with_anger.mem place).mp (List.mem_of_mem_take taken_mem)).2
  have higher := ((mem_before_iff ladder _).mp before).2
  exact absurd same higher.ne'

theorem Collected.append
    (undisturbed : game.Undisturbed fight side anger)
    (room : (targets ++ units.take (maxAngerNum - targets.length)).length < maxAngerNum) :
    Collected game fight side (angers ++ [anger])
      (targets ++ units.take (maxAngerNum - targets.length)) := by
  have all : units.take (maxAngerNum - targets.length) = units := by
    refine List.take_of_length_le ?_
    rw [List.length_append, List.length_take] at room
    omega
  refine ⟨collected.append_nodup ladder with_anger _, fun place => ?_, room, ?_⟩
  · rw [all, List.mem_append, List.mem_append, List.mem_singleton, collected.mem, with_anger.mem,
      and_or_left]
  · intro other passed
    rcases List.mem_append.mp passed with before | now
    · exact collected.undisturbed other before
    · exact List.mem_singleton.mp now ▸ undisturbed

theorem Collected.full_best_iff (many : maxAngerNum < (game.living fight side).length)
    (undisturbed : game.Undisturbed fight side anger)
    (full : maxAngerNum ≤ (targets ++ units.take (maxAngerNum - targets.length)).length) :
    Best game fight side (targets ++ units.take (maxAngerNum - targets.length)) ↔
      game.AngerReached fight side := by
  have distinct := collected.append_nodup ladder with_anger (maxAngerNum - targets.length)
  have three : (targets ++ units.take (maxAngerNum - targets.length)).length = maxAngerNum := by
    have room := collected.room
    rw [List.length_append, List.length_take] at full ⊢
    omega
  have taken_living : ∀ place ∈ targets ++ units.take (maxAngerNum - targets.length),
      place ∈ game.living fight side ∧ (game.units place).anger ∈ game.ladder fight side ∧
        anger ≤ (game.units place).anger := by
    intro place mem
    rcases List.mem_append.mp mem with mem | mem
    · obtain ⟨living, before⟩ := (collected.mem place).mp mem
      obtain ⟨on, higher⟩ := (mem_before_iff ladder _).mp before
      exact ⟨living, on, higher.le⟩
    · obtain ⟨living, same⟩ := (with_anger.mem place).mp (List.mem_of_mem_take mem)
      refine ⟨living, ?_, same.ge⟩
      rw [ladder, same]
      exact List.mem_append_right _ List.mem_cons_self
  have higher_taken : ∀ place ∈ game.above fight side anger,
      place ∈ targets ++ units.take (maxAngerNum - targets.length) := by
    intro place mem
    obtain ⟨living, on_ladder⟩ := Game.mem_above.mp mem
    exact List.mem_append_left _
      ((collected.mem place).mpr ⟨living, (mem_before_iff ladder _).mpr on_ladder⟩)
  generalize targets ++ units.take (maxAngerNum - targets.length) = taken at *
  constructor
  · intro best
    refine ⟨fun place living off => ?_, fun other on => ?_⟩
    · have left_out : place ∉ taken := fun mem => off (taken_living place mem).2.1
      rw [← three]
      refine length_le_of_subset distinct fun target mem => Game.mem_above.mpr ?_
      obtain ⟨target_living, target_on, -⟩ := taken_living target mem
      have at_most := best.2.highest place living left_out target mem
      exact ⟨target_living, target_on, at_most.lt_of_ne fun same => off (same ▸ target_on)⟩
    · rw [ladder] at on
      rcases List.mem_append.mp on with before | on
      · exact collected.undisturbed other before
      rcases List.mem_cons.mp on with rfl | later
      · exact undisturbed
      · rintro ⟨place, unit, -, same⟩
        have lower : other < anger := by
          have sorted := game.ladder_pairwise fight side
          rw [ladder] at sorted
          exact List.rel_of_pairwise_cons (List.pairwise_append.mp sorted).2.1 later
        have above := length_le_of_subset distinct fun target mem =>
          Game.mem_above.mpr ⟨(taken_living target mem).1, (taken_living target mem).2.1,
            lower.trans_le (taken_living target mem).2.2⟩
        have itself : place ∈ game.group fight side other := Game.mem_group.mpr ⟨unit, same⟩
        have some_unit := List.length_pos_of_mem itself
        omega
  · intro reached
    refine ⟨⟨?_, distinct, fun target mem => ?_⟩, by omega, fun place living left_out target mem => ?_⟩
    · exact List.ne_nil_of_length_pos (three ▸ by decide)
    · exact Game.mem_living.mp (taken_living target mem).1
    · by_contra more
      have more := not_le.mp more
      obtain ⟨-, -, at_least⟩ := taken_living target mem
      have off : (game.units place).anger ∉ game.ladder fight side := fun on =>
        left_out (higher_taken place (Game.mem_above.mpr ⟨living, on, at_least.trans_lt more⟩))
      have enough := reached.covered place living off
      -- the three units above the one that is left out are targets, and so is the target below it
      have above_subset : ∀ other ∈ target :: game.above fight side (game.units place).anger,
          other ∈ taken := by
        intro other other_mem
        rcases List.mem_cons.mp other_mem with rfl | above
        · exact mem
        · obtain ⟨other_living, on, higher⟩ := Game.mem_above.mp above
          exact higher_taken other (Game.mem_above.mpr
            ⟨other_living, on, at_least.trans_lt (more.trans higher)⟩)
      have above_distinct : (target :: game.above fight side (game.units place).anger).Nodup :=
        List.nodup_cons.mpr ⟨fun above => absurd (Game.mem_above.mp above).2.2 more.not_gt,
          game.above_nodup _⟩
      have too_many := length_le_of_subset above_distinct above_subset
      rw [List.length_cons] at too_many
      omega

end

theorem not_best_of_dead {targets : List Place} (mem : place ∈ targets)
    (dead : (game.units place).isDeath) : ¬ Best game fight side targets := by
  intro best
  have alive := (best.1.alive place mem).2
  unfold Game.alive at alive
  simp [dead] at alive

/-- What one round of the loop makes of the targets, if there is a unit with the anger. -/
inductive Taken (game : Game) (fight : FightData) (side : Side) (anger : ℚ)
    (targets : List Place) : List Place → Prop where
  | together (fits : targets.length + (game.group fight side anger).length ≤ maxAngerNum) :
      Taken game fight side anger targets (targets ++ game.group fight side anger)
  | inTurn {units : List Place}
      (crowded : maxAngerNum < targets.length + (game.group fight side anger).length)
      (with_anger : WithAnger game fight side anger units) :
      Taken game fight side anger targets
        (targets ++ units.take (maxAngerNum - targets.length))

theorem Taken.keeps {targets taken : List Place}
    (round : Taken game fight side anger targets taken) : ∀ place ∈ targets, place ∈ taken := by
  cases round <;> exact fun place mem => List.mem_append_left _ mem

theorem withAnger_angry {list : List Nat} (all : list.Perm positions) :
    WithAnger game fight side anger (game.angry fight side anger list) := by
  refine ⟨(game.aliveOf_nodup side (all.nodup_iff.mpr positions_nodup)).filter _, fun place => ?_⟩
  unfold Game.angry Game.living
  rw [List.mem_filter, decide_eq_true_iff, Game.mem_aliveOf, Game.mem_aliveOf, all.mem_iff]

section
variable {self : Place} (inside : self.pos ∈ positions)
include inside

theorem angerLoop_cons {state : Game} {anger : ℚ} {angers : List ℚ} {targets : List Place}
    {post : List Place → Prop} (same : state.units = game.units)
    (room : targets.length < maxAngerNum)
    (nobody : game.group fight side anger = [] →
      Chooses (angerLoop fight self side angers targets) state post)
    (somebody : ∀ taken after, after.units = game.units →
      Taken game fight side anger targets taken →
        Chooses
          (if maxAngerNum ≤ taken.length then pure taken
          else angerLoop fight self side angers taken) after post) :
    Chooses (angerLoop fight self side (anger :: angers) targets) state post := by
  have same_group : ((fight.units side).filter fun place => (state.units place).anger = anger) =
      game.group fight side anger := by
    rw [same]
    rfl
  refine Follows.bind_read rfl ?_
  dsimp only
  rw [same_group]
  split
  · rename_i empty
    exact nobody empty
  · split
    · rename_i crowded
      refine Chooses.bind (getColumnAttackPos_follows sameUnits_draws inside)
        fun list after after_same all => ?_
      have runs := @takeAnger_run fight after side anger list targets
        (fun _ mem => all.mem_iff.mp mem) room
      refine Follows.bind_read runs (somebody _ after (after_same.trans same) ?_)
      have angry : after.angry fight side anger list = game.angry fight side anger list := by
        unfold Game.angry
        rw [Game.aliveOf_congr (after_same.trans same), after_same.trans same]
      rw [angry]
      exact .inTurn crowded (withAnger_angry all)
    · rename_i fits
      exact Follows.bind_read rfl (somebody _ state same (.together (not_lt.mp fits)))

theorem angerLoop_keeps {state : Game} {angers : List ℚ} {targets : List Place}
    (same : state.units = game.units) (room : targets.length < maxAngerNum) :
    Chooses (angerLoop fight self side angers targets) state fun taken =>
      ∀ place ∈ targets, place ∈ taken := by
  induction angers generalizing state targets with
  | nil => exact Follows.pure fun _ mem => mem
  | cons anger angers ih =>
      refine angerLoop_cons inside same room (fun _ => ih same room) ?_
      intro taken after after_same round
      split
      · exact Follows.pure round.keeps
      · rename_i more
        refine Follows.mono (ih after_same (not_le.mp more)) fun _ _ _ later => ?_
        exact fun place mem => later place (round.keeps place mem)

/-- From the living units with the higher angers, the loop finds the right targets if and only if
the angers let it. -/
theorem angerLoop_chooses (many : maxAngerNum < (game.living fight side).length) {state : Game}
    {before angers : List ℚ} {targets : List Place} (same : state.units = game.units)
    (ladder : game.ladder fight side = before ++ angers)
    (collected : Collected game fight side before targets) :
    Chooses (angerLoop fight self side angers targets) state fun taken =>
      (Best game fight side taken ↔ game.AngerReached fight side) := by
  induction angers generalizing state before targets with
  | nil =>
      rw [List.append_nil] at ladder
      exact Follows.pure ((ladder ▸ collected).best_iff many)
  | cons anger angers ih =>
      have next : game.ladder fight side = (before ++ [anger]) ++ angers := by
        rw [ladder, List.append_assoc, List.singleton_append]
      -- the targets with the units of this anger that are alive, if no dead unit is taken
      have go_on : ∀ units after, after.units = game.units →
          WithAnger game fight side anger units → game.Undisturbed fight side anger →
          Chooses
            (if maxAngerNum ≤ (targets ++ units.take (maxAngerNum - targets.length)).length then
              pure (targets ++ units.take (maxAngerNum - targets.length))
            else angerLoop fight self side angers
              (targets ++ units.take (maxAngerNum - targets.length))) after fun taken =>
            (Best game fight side taken ↔ game.AngerReached fight side) := by
        intro units after after_same with_anger undisturbed
        split
        · rename_i full
          exact Follows.pure (collected.full_best_iff ladder with_anger many undisturbed full)
        · rename_i more
          exact ih after_same next (collected.append ladder with_anger undisturbed (not_le.mp more))
      refine angerLoop_cons inside same collected.room (fun empty => ?_) ?_
      · have nobody : ∀ place ∈ fight.units side, (game.units place).anger ≠ anger :=
          fun place unit equal => List.not_mem_nil (empty ▸ Game.mem_group.mpr ⟨unit, equal⟩)
        refine ih same next ⟨collected.nodup, fun place => ?_, collected.room, fun other passed => ?_⟩
        · rw [collected.mem, List.mem_append, List.mem_singleton]
          refine and_congr_right fun living => (or_iff_left ?_).symm
          exact nobody place (Game.mem_living_iff_units.mp living).1
        · rcases List.mem_append.mp passed with passed | now
          · exact collected.undisturbed other passed
          · rintro ⟨place, unit, -, equal⟩
            exact absurd (equal.trans (List.mem_singleton.mp now)) (nobody place unit)
      · intro taken after after_same round
        cases round with
        | inTurn crowded with_anger =>
            refine go_on _ after after_same with_anger fun _ => ?_
            rw [collected.above_length ladder]
            exact crowded
        | together fits =>
            by_cases dead : ∃ place ∈ fight.units side,
                (game.units place).isDeath ∧ (game.units place).anger = anger
            · obtain ⟨place, unit, is_dead, equal⟩ := dead
              have disturbed : ¬ game.AngerReached fight side := fun reached => by
                have on : anger ∈ game.ladder fight side :=
                  ladder ▸ List.mem_append_right _ List.mem_cons_self
                have crowded := reached.undisturbed anger on ⟨place, unit, is_dead, equal⟩
                rw [collected.above_length ladder] at crowded
                omega
              have mem : place ∈ targets ++ game.group fight side anger :=
                List.mem_append_right _ (Game.mem_group.mpr ⟨unit, equal⟩)
              split
              · exact Follows.pure (iff_of_false (not_best_of_dead mem is_dead) disturbed)
              · rename_i more
                refine Follows.mono (angerLoop_keeps inside after_same (not_le.mp more))
                  fun taken _ _ keeps => ?_
                exact iff_of_false (not_best_of_dead (keeps place mem) is_dead) disturbed
            · have all_alive : WithAnger game fight side anger (game.group fight side anger) := by
                refine ⟨(fight.units_nodup side).filter _, fun place => ?_⟩
                rw [Game.mem_group, Game.mem_living_iff_units]
                refine ⟨fun ⟨unit, equal⟩ => ⟨⟨unit, ?_⟩, equal⟩, fun ⟨⟨unit, _⟩, equal⟩ => ⟨unit, equal⟩⟩
                exact Bool.eq_false_iff.mpr fun is_dead => dead ⟨place, unit, is_dead, equal⟩
              have whole : (game.group fight side anger).take (maxAngerNum - targets.length) =
                  game.group fight side anger := List.take_of_length_le (by omega)
              have rest := go_on _ after after_same all_alive fun is_dead => absurd is_dead dead
              rw [whole] at rest
              exact rest

/-- With more living units than targets, the choice is right if and only if the angers let it. -/
theorem getAttackTargetAngerNum_chooses (someone : game.living fight side ≠ []) :
    Chooses (getAttackTargetAngerNum fight self side) game fun taken =>
      (Best game fight side taken ↔
        (maxAngerNum < (game.living fight side).length → game.AngerReached fight side)) := by
  refine Follows.bind_read getAttackTargetAll_run ?_
  split
  · rename_i few
    refine Follows.pure (iff_of_true ⟨targets_aliveOf positions_nodup someone, ?_, ?_⟩ fun many => ?_)
    · exact (min_eq_right few).symm
    · exact fun place living left_out => absurd living left_out
    · exact absurd few (not_le.mpr many)
  · rename_i many
    have collected : Collected game fight side [] [] :=
      ⟨List.nodup_nil, fun _ => by simp, by decide, fun _ mem => nomatch mem⟩
    refine Follows.mono (angerLoop_chooses inside (not_le.mp many) rfl rfl collected)
      fun taken _ _ best => ?_
    exact Iff.trans best ⟨fun reached _ => reached, fun reached => reached (not_le.mp many)⟩

end

/-- Different living units of the side are chosen, and if they are chosen by their anger, those with
the most anger. -/
def Selects (fight : FightData) (self : Place) (side : Side) (attackType : AttackType)
    (game : Game) : Prop :=
  ∃ targets after, getAttackTarget fight self side attackType game = .ok targets after ∧
    Targets game fight side targets ∧
    (attackType = .angerNum → HighestAnger game fight side targets)

theorem Chooses.selects {self : Place} {attackType : AttackType} (other : attackType ≠ .angerNum)
    (chooses : Chooses (getAttackTarget fight self side attackType) game
      (Targets game fight side)) : Selects fight self side attackType game := by
  obtain ⟨targets, after, runs, right⟩ := chooses.result
  exact ⟨targets, after, runs, right, fun angerNum => absurd angerNum other⟩

/-- The targets by anger are right if and only if the angers let the loop find them. -/
theorem selects_angerNum_iff {self : Place} (inside : self.pos ∈ positions)
    (someone : game.living fight side ≠ []) :
    Selects fight self side .angerNum game ↔
      (maxAngerNum < (game.living fight side).length → game.AngerReached fight side) := by
  obtain ⟨targets, after, runs, best⟩ :=
    (getAttackTargetAngerNum_chooses inside someone).result
  rw [← best]
  constructor
  · rintro ⟨targets', after', runs', right, highest⟩
    cases runs.symm.trans runs'
    exact ⟨right, highest rfl⟩
  · exact fun best => ⟨targets, after, runs, best.1, fun _ => best.2⟩

/-- Whatever units a side has, whatever their hit points and angers are, and wherever the attacker
is: if one is alive, every way to choose targets gives different living ones of them, without an
error, and the way by anger those with the most anger, if and only if it is not the way by anger, or
there is room for all living units, or the angers let the loop find the right ones. -/
theorem getAttackTarget_selects_iff (fight : FightData) (game : Game) (self : Place) (side : Side)
    (attackType : AttackType) (inside : self.pos ∈ positions)
    (someone : game.living fight side ≠ []) :
    Selects fight self side attackType game ↔
      (attackType = .angerNum → maxAngerNum < (game.living fight side).length →
        game.AngerReached fight side) := by
  cases attackType with
  | angerNum => simpa using selects_angerNum_iff inside someone
  | all =>
      exact iff_of_true ((getAttackTargetAll_chooses someone).selects nofun) nofun
  | column =>
      exact iff_of_true ((getAttackTargetColumn_chooses inside someone).selects nofun) nofun
  | frontRow =>
      have rows : (positions.take columnNum ++ positions.drop columnNum).Perm positions := by decide
      exact iff_of_true (Chooses.selects nofun (allAlive_or_chooses someone rows)) nofun
  | backRow =>
      have rows : (positions.drop columnNum ++ positions.take columnNum).Perm positions := by decide
      exact iff_of_true (Chooses.selects nofun (allAlive_or_chooses someone rows)) nofun
  | backOne =>
      have chooses := @getOneAttackPos_chooses fight game side self inside someone
        (fun rows => rows.2 ++ rows.1) fun _ all => List.perm_append_comm.trans all
      exact iff_of_true (Chooses.selects nofun chooses) nofun
  | frontOne =>
      have chooses := @getOneAttackPos_chooses fight game side self inside someone
        (fun rows => rows.1 ++ rows.2) fun _ all => all
      exact iff_of_true (Chooses.selects nofun chooses) nofun
  | randomNum =>
      exact iff_of_true ((getAttackTargetRandomNum_chooses someone).selects nofun) nofun
  | columnOne =>
      exact iff_of_true ((getAttackTargetColumnOne_chooses inside someone).selects nofun) nofun
  | neighbor =>
      exact iff_of_true ((getAttackTargetNeighbor_chooses inside someone).selects nofun) nofun
  | cureOne =>
      exact iff_of_true ((getAttackTargetCureOne_chooses someone).selects nofun) nofun
  | extraCure below extra =>
      exact iff_of_true (Chooses.selects nofun (getAttackTargetAll_chooses someone)) nofun

/-- A buff that takes a tenth of the attack of its caster at the begin of a round. -/
def poison : BuffData where
  isSub := true
  keepRound := 2
  overrideId := none
  clearLevel := 1
  doAndRemove := false
  triggerRate := 1
  objectType := none
  beginRoundDo := some
    { attrName := some .hp
      attPctHurt := some 10
      attrValue := none
      attrValuePct := none
      state := none }
  endRoundDo := none
  beginBuffDo := none
  endBuffDo := none
  beginAttackDo := none
  attackedDo := none

/-- A spell that hits a unit of the front row and poisons it. -/
def poisonDart : Spell where
  data :=
    { spellType := 1
      costAnger := 0
      addAnger := 2
      spellUnitList := none
      isOwn := false
      attackType := .frontOne
      buffClearLevel := none
      buffClearRatio := none
      modifyAttrDict := fun _ => 0
      spellHurtPct := 50
      hurtGrowRate := 0
      fixedHurt := 0
      hitTb := [1]
      isSecondKill := false
      addBuffList := [{ buffId := 1, object := .attackTarget, ratio := 1 }]
      reduceAnger := none }
  level := 1

/-- A spell that hits the units with the most anger. -/
def angerSpell : Spell :=
  { poisonDart with
    data := { poisonDart.data with attackType := .angerNum, addBuffList := [] } }

def recruit (spells : List Spell) (hp angerRecover : ℚ) : UnitData where
  unitId := 1
  addAnger := 0
  score := 0
  hp := some hp
  fightAttrDict
    | .maxHp | .att | .hit => 100
    | .angerRecover => angerRecover
    | _ => 0
  spells := spells
  buffList := []
  monster := none

/-- A battle of two units against five. -/
def poisonFight : FightData where
  seed := 1
  lineUp
    | ⟨.own, 1⟩ => some (recruit [poisonDart] 100 2)
    | ⟨.own, 2⟩ => some (recruit [angerSpell] 100 2)
    | ⟨.enemy, 1⟩ => some (recruit [] 60 3)
    | ⟨.enemy, 2⟩ | ⟨.enemy, 3⟩ | ⟨.enemy, 4⟩ | ⟨.enemy, 5⟩ => some (recruit [] 100 2)
    | _ => none
  isPvp := false
  victory := none
  getBuffData _ := poison

/-- The first two turns: a unit is poisoned, and dies of it at the begin of its round. -/
def poisonTurns : M Bool := do
  newGame poisonFight
  startLoop poisonFight [{ side := .own, pos := 1 }, { side := .enemy, pos := 1 }]

theorem getAttackTarget_selects_iff_poisonFight :
    Selects poisonFight { side := .own, pos := 1 } .enemy .frontOne poisonFight.start :=
  (getAttackTarget_selects_iff poisonFight poisonFight.start { side := .own, pos := 1 } .enemy
    .frontOne (by decide) (by decide +kernel)).mpr nofun

/-- The unit has died in its own round, at whose end it recovers its anger, and so has the most anger
when the next unit chooses. -/
theorem poisonTurns_disturbed :
    (match poisonTurns poisonFight.start with
    | .ok ended game =>
        !ended && decide
          (maxAngerNum < (game.living poisonFight .enemy).length ∧
            3 ∈ game.ladder poisonFight .enemy ∧
            (∃ place ∈ poisonFight.units .enemy,
              (game.units place).isDeath = true ∧ (game.units place).anger = 3) ∧
            (game.above poisonFight .enemy 3).length + (game.group poisonFight .enemy 3).length ≤
              maxAngerNum)
    | .error _ _ => false) = true := by
  decide +kernel

/-- The next attack on the units with the most anger does not choose right. -/
theorem poisonTurns_not_selects :
    ∃ game, poisonTurns poisonFight.start = .ok false game ∧
      game.living poisonFight .enemy ≠ [] ∧
      ¬ Selects poisonFight { side := .own, pos := 2 } .enemy .angerNum game := by
  have disturbed := poisonTurns_disturbed
  cases runs : poisonTurns poisonFight.start with
  | error err game => simp [runs] at disturbed
  | ok ended game =>
      simp only [runs, Bool.and_eq_true, Bool.not_eq_true', decide_eq_true_eq] at disturbed
      obtain ⟨rfl, many, on, dead, fits⟩ := disturbed
      have someone : game.living poisonFight .enemy ≠ [] :=
        List.ne_nil_of_length_pos (Nat.zero_lt_of_lt many)
      refine ⟨game, rfl, someone, fun selects => ?_⟩
      have reached := (selects_angerNum_iff (by decide) someone).mp selects many
      exact absurd (reached.undisturbed 3 on dead) fits.not_gt

end UEServer.Fight
