import Mathlib.Tactic.Positivity
import UEServer.Fight.Draw

/-!
# The targets are living units

Every way to choose targets but that by anger gives, if a unit of the side is alive, different
living units of the side.  A choice raises no error and changes no unit; it draws random numbers.
-/

namespace UEServer.Fight

variable {fight : FightData} {game : Game} {side : Side} {α : Type}

def SameUnits (before after : Game) : Prop :=
  after.units = before.units

/-- No error is raised, and no unit changes. -/
abbrev Chooses (program : M α) (game : Game) (post : α → Prop) : Prop :=
  Follows SameUnits (fun _ _ => False) program game fun value _ => post value

theorem sameUnits_draws : Draws SameUnits := fun _ _ => rfl

theorem Chooses.result {program : M α} {post : α → Prop} (chooses : Chooses program game post) :
    ∃ value after, program game = .ok value after ∧ post value := by
  unfold Chooses Follows at chooses
  split at chooses
  · rename_i value after runs
    exact ⟨value, after, runs, chooses.2⟩
  · obtain ⟨_, _, failed⟩ := chooses
    exact failed.elim

theorem sameUnits_path {after : Game} (path : Relation.ReflTransGen SameUnits game after) :
    after.units = game.units :=
  path.invariant (fun state => state.units = game.units) (fun _ _ same taken => taken.trans same)
    rfl

theorem Chooses.bind {β : Type} {first : M α} {next : α → M β} {middle : α → Prop} {post : β → Prop}
    (first_chooses : Chooses first game middle)
    (next_chooses : ∀ value state, state.units = game.units → middle value →
      Chooses (next value) state post) :
    Chooses (first >>= next) game post :=
  Follows.bind first_chooses fun value state path holds =>
    next_chooses value state (sameUnits_path path) holds

theorem Game.alive_congr {state : Game} (same : state.units = game.units) (place : Place) :
    state.alive fight place = game.alive fight place := by
  unfold Game.alive
  rw [same]

theorem Game.aliveOf_congr {state : Game} (same : state.units = game.units) (side : Side)
    (list : List Nat) : state.aliveOf fight side list = game.aliveOf fight side list :=
  List.filter_congr fun place _ => Game.alive_congr same place

/-- The targets are different living units of a side, and there are some. -/
structure Targets (game : Game) (fight : FightData) (side : Side) (targets : List Place) : Prop where
  nonempty : targets ≠ []
  nodup : targets.Nodup
  alive : ∀ target ∈ targets, target.side = side ∧ game.alive fight target

theorem Targets.congr {state : Game} (same : state.units = game.units) {targets : List Place}
    (right : Targets state fight side targets) : Targets game fight side targets := by
  refine ⟨right.nonempty, right.nodup, fun target mem => ?_⟩
  rw [← Game.alive_congr same]
  exact right.alive target mem

variable {list : List Nat}

theorem Game.aliveOf_nodup (game : Game) (side : Side) (distinct : list.Nodup) :
    (game.aliveOf fight side list).Nodup :=
  (distinct.map fun _ _ same => congrArg Place.pos same).filter _

theorem targets_aliveOf (distinct : list.Nodup)
    (someone : game.aliveOf fight side list ≠ []) :
    Targets game fight side (game.aliveOf fight side list) :=
  ⟨someone, game.aliveOf_nodup side distinct, fun _ mem => (Game.mem_aliveOf.mp mem).2⟩

theorem Targets.subperm {targets some : List Place} (right : Targets game fight side targets)
    (nonempty : some ≠ []) (subperm : List.Subperm some targets) :
    Targets game fight side some := by
  refine ⟨nonempty, ?_, fun target mem => right.alive target (subperm.subset mem)⟩
  obtain ⟨sub, perm, sublist⟩ := subperm
  exact perm.nodup_iff.mp (right.nodup.sublist sublist)

theorem targets_take_one (distinct : list.Nodup)
    (someone : game.aliveOf fight side list ≠ []) :
    Targets game fight side ((game.aliveOf fight side list).take 1) :=
  (targets_aliveOf distinct someone).subperm (by simpa using someone) (List.take_sublist _ _).subperm

theorem aliveOf_ne_nil_of_mem {place : Place} (mem : place.pos ∈ list)
    (of_side : place.side = side) (alive : game.alive fight place) :
    game.aliveOf fight side list ≠ [] :=
  List.ne_nil_of_mem (Game.mem_aliveOf.mpr ⟨mem, of_side, alive⟩)

theorem exists_alive (someone : game.aliveOf fight side positions ≠ []) :
    ∃ place, place.pos ∈ positions ∧ place.side = side ∧ game.alive fight place := by
  obtain ⟨place, mem⟩ := List.exists_mem_of_ne_nil _ someone
  exact ⟨place, Game.mem_aliveOf.mp mem⟩

theorem positions_nodup : positions.Nodup := by
  decide

section
variable (someone : game.aliveOf fight side positions ≠ [])
include someone

theorem aliveOf_ne_nil_of_perm {list : List Nat} (all : list.Perm positions) :
    game.aliveOf fight side list ≠ [] := by
  obtain ⟨place, inside, of_side, alive⟩ := exists_alive someone
  exact aliveOf_ne_nil_of_mem (all.mem_iff.mpr inside) of_side alive

theorem getAttackTargetAll_chooses :
    Chooses (getAttackTargetAll fight side) game (Targets game fight side) :=
  Follows.of_read getAttackTargetAll_run (targets_aliveOf positions_nodup someone)

/-- The living units of one row, or those of the other if there are none. -/
theorem allAlive_or_chooses {first second : List Nat} (all : (first ++ second).Perm positions) :
    Chooses
      (do
        let units ← allAlive fight side first
        if units ≠ [] then return units
        else allAlive fight side second) game (Targets game fight side) := by
  have inside : ∀ pos ∈ first ++ second, pos ∈ positions := fun pos mem => all.mem_iff.mp mem
  obtain ⟨first_inside, second_inside⟩ := List.forall_mem_append.mp inside
  have distinct := (all.nodup_iff.mpr positions_nodup)
  refine Follows.bind_read (allAlive_run first_inside) ?_
  split
  · rename_i found
    exact Follows.pure (targets_aliveOf distinct.of_append_left found)
  · rename_i none_found
    refine Follows.of_read (allAlive_run second_inside)
      (targets_aliveOf distinct.of_append_right ?_)
    have everyone := aliveOf_ne_nil_of_perm someone all
    unfold Game.aliveOf at everyone none_found ⊢
    rw [List.map_append, List.filter_append, not_not.mp none_found, List.nil_append] at everyone
    exact everyone

theorem firstAlive_chooses {list : List Nat} (all : list.Perm positions) :
    Chooses (firstAlive fight side list) game (Targets game fight side) :=
  Follows.of_read (firstAlive_run fun _ mem => all.mem_iff.mp mem)
    (targets_take_one (all.nodup_iff.mpr positions_nodup) (aliveOf_ne_nil_of_perm someone all))

end

theorem getTheSameColumn_nodup : ∀ pos ∈ positions, (getTheSameColumn pos).Nodup := by
  decide

section
variable {self : Place} (inside : self.pos ∈ positions)
  (someone : game.aliveOf fight side positions ≠ [])
include inside someone

theorem getAttackTargetColumn_chooses :
    Chooses (getAttackTargetColumn fight self side) game (Targets game fight side) := by
  refine Follows.bind_read (allAlive_run (getTheSameColumn_mem self.pos inside)) ?_
  split
  · rename_i found
    exact Follows.pure (targets_aliveOf (getTheSameColumn_nodup self.pos inside) found)
  · refine Chooses.bind (Follows.mono (getNeighborColumn_follows sameUnits_draws inside)
      fun _ _ _ neighbor => neighbor) fun column state same neighbor => ?_
    obtain ⟨next, next_inside, -, rfl⟩ := neighbor
    refine Follows.bind_read (allAlive_run (getTheSameColumn_mem next next_inside)) ?_
    split
    · rename_i found
      exact Follows.pure ((targets_aliveOf (getTheSameColumn_nodup next next_inside) found).congr same)
    · rw [← Game.aliveOf_congr same] at someone
      exact Follows.mono (getAttackTargetAll_chooses someone) fun _ _ _ right => right.congr same

theorem getAttackTargetColumnOne_chooses :
    Chooses (getAttackTargetColumnOne fight self side) game (Targets game fight side) := by
  refine Chooses.bind (getColumnAttackPos_follows sameUnits_draws inside) fun list state same all => ?_
  rw [← Game.aliveOf_congr same] at someone
  exact Follows.mono (firstAlive_chooses someone all) fun _ _ _ right => right.congr same

theorem getOneAttackPos_chooses {order : List Nat × List Nat → List Nat}
    (all : ∀ rows, (rows.1 ++ rows.2).Perm positions → (order rows).Perm positions) :
    Chooses (getOneAttackPos self.pos >>= fun rows => firstAlive fight side (order rows)) game
      (Targets game fight side) := by
  refine Chooses.bind (getOneAttackPos_follows sameUnits_draws inside) fun rows state same perm => ?_
  rw [← Game.aliveOf_congr same] at someone
  exact Follows.mono (firstAlive_chooses someone (all rows perm)) fun _ _ _ right => right.congr same

end

theorem getAttackTargetRandomNum_chooses (someone : game.aliveOf fight side positions ≠ []) :
    Chooses (getAttackTargetRandomNum fight side) game (Targets game fight side) := by
  have all := targets_aliveOf positions_nodup someone
  refine Follows.bind_read getAttackTargetAll_run ?_
  split
  · exact Follows.pure all
  · rename_i enough
    refine Follows.mono (pick_follows sameUnits_draws (not_le.mp enough).le)
      fun picked _ _ ⟨length, subperm⟩ => all.subperm ?_ subperm
    exact List.ne_nil_of_length_pos (length ▸ by decide)

theorem getNeighborPos_nodup : ∀ pos ∈ positions,
    (getNeighborPos pos).Nodup ∧ pos ∈ getNeighborPos pos := by
  decide

theorem neighbor_chooses {units : List Place} (right : Targets game fight side units) :
    Chooses
      (do
        note (.neighbor units)
        match units with
        | [] => raise
        | place :: _ => allAlive fight side (getNeighborPos place.pos)) game
      (Targets game fight side) := by
  cases units with
  | nil => exact absurd rfl right.nonempty
  | cons place others =>
      obtain ⟨of_side, alive⟩ := right.alive place List.mem_cons_self
      have inside := FightData.inside_of_occupied (Game.occupied_of_alive alive)
      obtain ⟨distinct, itself⟩ := getNeighborPos_nodup place.pos inside
      have noted : Chooses (note (.neighbor (place :: others))) game fun _ => True :=
        Follows.of_step rfl rfl trivial
      refine Chooses.bind noted fun _ state same _ => ?_
      refine Follows.of_read (allAlive_run (getNeighborPos_mem place.pos inside)) ?_
      rw [Game.aliveOf_congr same]
      exact targets_aliveOf distinct (aliveOf_ne_nil_of_mem itself of_side alive)

theorem getAttackTargetNeighbor_chooses {self : Place} (inside : self.pos ∈ positions)
    (someone : game.aliveOf fight side positions ≠ []) :
    Chooses (getAttackTargetNeighbor fight self side) game (Targets game fight side) := by
  have front : (if columnNum < self.pos then self.pos - columnNum else self.pos) ∈ positions := by
    revert inside
    generalize self.pos = pos
    revert pos
    decide
  unfold getAttackTargetNeighbor
  generalize (if columnNum < self.pos then self.pos - columnNum else self.pos) = pos at front
  have rows_distinct := (List.take_append_drop pos positions) ▸ positions_nodup
  refine Follows.bind_read (allAlive_run (getNeighborPos_mem pos front)) ?_
  split
  · rename_i found
    exact Follows.pure (targets_aliveOf (getNeighborPos_nodup pos front).1 found)
  · refine Follows.bind_read (firstAlive_run (rows_inside pos).2) ?_
    split
    · rename_i found
      refine Follows.bind_read rfl (neighbor_chooses ?_)
      rw [List.append_nil]
      have after : game.aliveOf fight side (positions.drop pos) ≠ [] := fun none_found =>
        found (by rw [none_found, List.take_nil])
      exact targets_take_one rows_distinct.of_append_right after
    · rename_i none_found
      refine Follows.bind_read (firstAlive_run (rows_inside pos).1) (neighbor_chooses ?_)
      rw [not_not.mp none_found, List.nil_append]
      refine targets_take_one rows_distinct.of_append_left ?_
      obtain ⟨place, place_inside, of_side, alive⟩ := exists_alive someone
      rw [← List.take_append_drop pos positions] at place_inside
      refine aliveOf_ne_nil_of_mem ((List.mem_append.mp place_inside).resolve_right ?_) of_side alive
      intro later
      refine aliveOf_ne_nil_of_mem later of_side alive ?_
      simpa using none_found

theorem getAttackTargetCureOne_chooses (someone : game.aliveOf fight side positions ≠ []) :
    Chooses (getAttackTargetCureOne fight side) game (Targets game fight side) := by
  have all := targets_aliveOf positions_nodup someone
  refine Follows.bind_read getAttackTargetAll_run (Follows.bind_read rfl ?_)
  split
  · rename_i target chosen
    refine Follows.pure (all.subperm (List.cons_ne_nil _ _) ?_)
    exact List.singleton_subperm_iff.mpr (cureOne_mem chosen)
  · exact Follows.pure (targets_take_one positions_nodup someone)

end UEServer.Fight
