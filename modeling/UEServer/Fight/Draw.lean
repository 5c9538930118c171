import UEServer.Fight.Target
import UEServer.Library.Follows

/-!
# Random numbers and positions

What is drawn at random, and the positions that an attack goes through, in any transition system
in which a random number may be drawn.  The choices among the living units draw nothing.
-/

namespace UEServer.Fight

variable {step fault : Game → Game → Prop} {game : Game} {α : Type}

def Draws (step : Game → Game → Prop) : Prop :=
  ∀ game seed, step game { game with seed }

theorem random_follows (draws : Draws step) : Follows step fault random game fun value after =>
    (0 ≤ value ∧ value < 1) ∧ after.units = game.units := by
  refine Follows.of_step rfl (draws _ _) ⟨⟨?_, ?_⟩, rfl⟩
  · positivity
  · rw [div_lt_one (by norm_num)]
    have small : (22695477 * game.seed + 1) % 0x10000000 < 0x10000000 :=
      Nat.mod_lt _ (by decide)
    exact_mod_cast small

theorem randomInt_follows (draws : Draws step) {first last : Int} (ordered : first ≤ last) :
    Follows step fault (randomInt first last) game fun value _ =>
      first ≤ value ∧ value ≤ last := by
  refine Follows.bind (random_follows draws) fun chance _ _ ⟨bounds, _⟩ => Follows.pure ⟨?_, ?_⟩
  · have wide : (0 : ℚ) ≤ last + 1 - first := by
      have ordered : (first : ℚ) ≤ last := by exact_mod_cast ordered
      linarith
    refine Int.le_floor.mpr ?_
    have product := mul_nonneg bounds.1 wide
    linarith
  · have wide : (0 : ℚ) < last + 1 - first := by
      have ordered : (first : ℚ) ≤ last := by exact_mod_cast ordered
      linarith
    refine Int.lt_add_one_iff.mp (Int.floor_lt.mpr ?_)
    have product := mul_lt_mul_of_pos_right bounds.2 wide
    push_cast
    linarith

theorem entry_run {list : List α} {index : Int} (first : 1 ≤ index) (last : index ≤ list.length) :
    ∃ inside : index.toNat - 1 < list.length,
      entry list index game = .ok list[index.toNat - 1] game := by
  have inside : index.toNat - 1 < list.length := by omega
  refine ⟨inside, ?_⟩
  unfold entry
  rw [if_pos first, List.getElem?_eq_getElem inside]
  rfl

/-- The entries that are picked are entries of the list, as many as there should be, each at most as
often as in the list. -/
theorem pick_follows (draws : Draws step) {num : Nat} {list : List α} (enough : num ≤ list.length) :
    Follows step fault (pick num list) game fun picked _ =>
      picked.length = num ∧ List.Subperm picked list := by
  induction num generalizing game list with
  | zero => exact Follows.pure ⟨rfl, List.nil_subperm⟩
  | succ num ih =>
      have nonempty : (1 : Int) ≤ list.length := by omega
      refine Follows.bind (randomInt_follows draws nonempty) fun index state _ bounds => ?_
      obtain ⟨inside, runs⟩ := @entry_run state α list index bounds.1 bounds.2
      refine Follows.bind_read runs ?_
      have shorter : num ≤ (list.eraseIdx (index.toNat - 1)).length := by
        rw [List.length_eraseIdx_of_lt inside]
        omega
      refine Follows.bind (ih shorter) fun others _ _ ⟨length, subperm⟩ => Follows.pure ⟨?_, ?_⟩
      · rw [List.length_cons, length]
      · exact ((List.subperm_cons _).mpr subperm).trans
          (List.getElem_cons_eraseIdx_perm inside).subperm

section
variable (draws : Draws step) {pos : Nat} (inside : pos ∈ positions)
include draws inside

theorem getNeighborColumn_follows :
    Follows step fault (getNeighborColumn pos) game fun column _ =>
      ∃ other ∈ positions, other % columnNum ≠ pos % columnNum ∧
        column = getTheSameColumn other := by
  have neighbors :
      (pos % columnNum = 0 → pos - 1 ∈ positions ∧ (pos - 1) % columnNum ≠ pos % columnNum) ∧
      (pos % columnNum = 1 → pos + 1 ∈ positions ∧ (pos + 1) % columnNum ≠ pos % columnNum) ∧
      (pos % columnNum = 2 →
        (pos - 1 ∈ positions ∧ (pos - 1) % columnNum ≠ pos % columnNum) ∧
        (pos + 1 ∈ positions ∧ (pos + 1) % columnNum ≠ pos % columnNum)) := by
    revert pos
    decide
  have column : pos % columnNum < 3 := Nat.mod_lt _ (by decide)
  unfold getNeighborColumn
  split
  · rename_i last
    obtain ⟨left, other_column⟩ := neighbors.1 last
    exact Follows.pure ⟨_, left, other_column, rfl⟩
  · split
    · rename_i first
      obtain ⟨right, other_column⟩ := neighbors.2.1 first
      exact Follows.pure ⟨_, right, other_column, rfl⟩
    · obtain ⟨left, right⟩ := neighbors.2.2 (by omega)
      refine Follows.bind (randomInt_follows draws (by decide)) fun index state _ bounds => ?_
      obtain ⟨within, runs⟩ := @entry_run state Nat [pos - 1, pos + 1] index bounds.1 bounds.2
      have either := List.getElem_mem within
      generalize [pos - 1, pos + 1][index.toNat - 1] = other at runs either
      refine Follows.bind_read runs (Follows.pure ?_)
      rcases List.mem_cons.mp either with rfl | mem
      · exact ⟨_, left.1, left.2, rfl⟩
      · cases List.mem_singleton.mp mem
        exact ⟨_, right.1, right.2, rfl⟩

theorem getColumnAttackPos_follows :
    Follows step fault (getColumnAttackPos pos) game fun list _ => list.Perm positions := by
  refine Follows.bind (getNeighborColumn_follows draws inside) fun column _ _ neighbor =>
    Follows.pure ?_
  obtain ⟨next, next_inside, other_column, rfl⟩ := neighbor
  revert pos next
  decide

theorem getOneAttackPos_follows :
    Follows step fault (getOneAttackPos pos) game fun rows _ =>
      (rows.1 ++ rows.2).Perm positions := by
  refine Follows.bind (getNeighborColumn_follows draws inside) fun column _ _ neighbor =>
    Follows.pure ?_
  obtain ⟨next, next_inside, other_column, rfl⟩ := neighbor
  revert pos next
  decide

end

variable {fight : FightData}

theorem getTheSameColumn_mem : ∀ pos ∈ positions, ∀ other ∈ getTheSameColumn pos,
    other ∈ positions := by
  decide

theorem getNeighborPos_mem : ∀ pos ∈ positions, ∀ other ∈ getNeighborPos pos,
    other ∈ positions := by
  decide

variable {side : Side}

theorem aliveAt_run {pos : Nat} (inside : pos ∈ positions) :
    aliveAt fight side pos game = .ok (game.alive fight { side, pos }) game := by
  unfold aliveAt
  rw [if_pos inside]
  rfl

def Game.aliveOf (game : Game) (fight : FightData) (side : Side) (list : List Nat) : List Place :=
  (list.map fun pos => { side, pos }).filter fun place => game.alive fight place

theorem allAlive_run {list : List Nat} (inside : ∀ pos ∈ list, pos ∈ positions) :
    allAlive fight side list game = .ok (game.aliveOf fight side list) game := by
  induction list with
  | nil => rfl
  | cons pos rest ih =>
      obtain ⟨first, others⟩ := List.forall_mem_cons.mp inside
      change EStateM.bind _ _ game = _
      unfold EStateM.bind
      rw [aliveAt_run first]
      change EStateM.bind _ _ game = _
      unfold EStateM.bind
      rw [ih others]
      change EStateM.Result.ok _ game = _
      unfold Game.aliveOf
      rw [List.map_cons, List.filter_cons]

theorem firstAlive_run {list : List Nat} (inside : ∀ pos ∈ list, pos ∈ positions) :
    firstAlive fight side list game = .ok ((game.aliveOf fight side list).take 1) game := by
  induction list with
  | nil => rfl
  | cons pos rest ih =>
      obtain ⟨first, others⟩ := List.forall_mem_cons.mp inside
      change EStateM.bind _ _ game = _
      unfold EStateM.bind
      rw [aliveAt_run first]
      unfold Game.aliveOf
      rw [List.map_cons, List.filter_cons]
      cases alive : game.alive fight { side, pos } with
      | true => rfl
      | false => exact ih others

theorem Game.mem_aliveOf {list : List Nat} {place : Place} :
    place ∈ game.aliveOf fight side list ↔
      place.pos ∈ list ∧ place.side = side ∧ game.alive fight place := by
  unfold Game.aliveOf
  rw [List.mem_filter, List.mem_map]
  constructor
  · rintro ⟨⟨pos, mem, rfl⟩, alive⟩
    exact ⟨mem, rfl, alive⟩
  · rintro ⟨mem, rfl, alive⟩
    exact ⟨⟨place.pos, mem, rfl⟩, alive⟩

theorem Game.occupied_of_alive {place : Place} (alive : game.alive fight place) :
    fight.occupied place :=
  (Bool.and_eq_true_iff.mp alive).1

theorem FightData.inside_of_occupied {place : Place} (occupied : fight.occupied place) :
    place.pos ∈ positions :=
  (of_decide_eq_true occupied).1

theorem FightData.mem_units {place : Place} :
    place ∈ fight.units side ↔ place.side = side ∧ fight.occupied place := by
  unfold FightData.units
  rw [List.mem_filter, List.mem_map]
  constructor
  · rintro ⟨⟨pos, mem, rfl⟩, occupied⟩
    exact ⟨rfl, occupied⟩
  · rintro ⟨rfl, occupied⟩
    exact ⟨⟨place.pos, inside_of_occupied occupied, rfl⟩, occupied⟩

theorem getAttackTargetAll_run :
    getAttackTargetAll fight side game = .ok (game.aliveOf fight side positions) game :=
  allAlive_run fun _ mem => mem

theorem rows_inside (count : Nat) :
    (∀ pos ∈ positions.take count, pos ∈ positions) ∧
      ∀ pos ∈ positions.drop count, pos ∈ positions :=
  ⟨fun _ => List.mem_of_mem_take, fun _ => List.mem_of_mem_drop⟩

theorem cureOne_mem {places : List Place} {target : Place}
    (chosen : cureOne game places = some target) : target ∈ places := by
  unfold cureOne at chosen
  refine List.foldlRecOn (motive := fun choice => ∀ target, choice = some target → target ∈ places)
    places _ (by rintro _ ⟨⟩) (fun first before place inside next chosen => ?_) target chosen
  have either : some place = some next ∨ first = some next := by
    grind
  rcases either with same | same
  · cases same
    exact inside
  · exact before next same

end UEServer.Fight
