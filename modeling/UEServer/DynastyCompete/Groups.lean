import UEServer.DynastyCompete.Basic
import UEServer.Library.Draw

/-!
# The groups of a dynasty war

`set_dynasty_compete_group` of `dynasty_compete.lua` draws the registered dynasties into groups and sends
each of them the others of its group; `set_dynasty_compete_enemy` of `dynasty_utils.lua` records them.
-/

namespace UEServer.CrossCompete

open DynastyCompete (BuildingData SavedBuilding)
open Execution

section
variable {δ υ ν : Type*} [DecidableEq δ] [DecidableEq υ]

def dynastyCompeteNum : ℕ := 4

structure Grouping (δ : Type*) where
  dynastyList : List δ
  /-- The groups before `group_id`. -/
  full : List (List δ)
  /-- The group at `group_id`. -/
  group : List δ

omit [DecidableEq δ] in
def Grouping.groupDict (grouping : Grouping δ) : List (List δ) :=
  grouping.full ++ [grouping.group]

/-- Draw the next dynasty, by the index that `math.random` gives. -/
def takeDynasty (grouping : Grouping δ) (index : ℕ) : Option (Grouping δ) :=
  (Draw.draw grouping.dynastyList index).map fun (dynastyId, dynastyList) =>
    let group := grouping.group ++ [dynastyId]
    if group.length = dynastyCompeteNum then ⟨dynastyList, grouping.full ++ [group], []⟩
    else ⟨dynastyList, grouping.full, group⟩

/-- The loop over all of them, with its draws. -/
def setGroups (dynastyList : List δ) (draws : List ℕ) : Option (Grouping δ) :=
  if draws.length = dynastyList.length then run takeDynasty ⟨dynastyList, [], []⟩ draws else none

/-- Groups that part the dynasties; all but the last one are full. -/
structure Partitioned (dynastyList : List δ) (groupDict : List (List δ)) : Prop where
  all : groupDict.flatten.Perm dynastyList
  atMost : ∀ group ∈ groupDict, group.length ≤ dynastyCompeteNum
  full : ∀ group ∈ groupDict.dropLast, group.length = dynastyCompeteNum

structure Filling (start : List δ) (grouping : Grouping δ) : Prop where
  all : (grouping.groupDict.flatten ++ grouping.dynastyList).Perm start
  full : ∀ group ∈ grouping.full, group.length = dynastyCompeteNum
  room : grouping.group.length < dynastyCompeteNum

section
omit [DecidableEq δ]

theorem filling_step {start : List δ} {grouping next : Grouping δ} {index : ℕ}
    (filling : Filling start grouping) (taken : takeDynasty grouping index = some next) :
    Filling start next := by
  obtain ⟨⟨dynastyId, rest⟩, drawn, rfl⟩ := Option.map_eq_some_iff.mp taken
  have perm : ((grouping.full.flatten ++ (grouping.group ++ [dynastyId])) ++ rest).Perm start := by
    refine List.Perm.trans ?_ filling.all
    have parted := (Draw.draw_perm drawn).append_left (grouping.full.flatten ++ grouping.group)
    rw [Grouping.groupDict, List.flatten_append, List.flatten_singleton]
    simpa only [List.append_assoc, List.singleton_append] using parted
  dsimp only
  split
  · rename_i complete
    refine ⟨?_, fun group mem => ?_, Nat.succ_pos 3⟩
    · simpa [Grouping.groupDict] using perm
    · rcases List.mem_append.mp mem with mem | mem
      · exact filling.full group mem
      · rw [List.mem_singleton.mp mem]
        exact complete
  · rename_i incomplete
    refine ⟨?_, filling.full, ?_⟩
    · simpa [Grouping.groupDict] using perm
    · have room := filling.room
      have length : (grouping.group ++ [dynastyId]).length = grouping.group.length + 1 :=
        List.length_append
      dsimp only
      omega

theorem length_takeDynasty {grouping next : Grouping δ} {index : ℕ}
    (taken : takeDynasty grouping index = some next) :
    next.dynastyList.length + 1 = grouping.dynastyList.length := by
  obtain ⟨⟨dynastyId, list⟩, drawn, rfl⟩ := Option.map_eq_some_iff.mp taken
  rw [← Draw.length_of_draw drawn]
  dsimp only
  split <;> rfl

theorem length_run {draws : List ℕ} {grouping final : Grouping δ}
    (execution : run takeDynasty grouping draws = some final) :
    final.dynastyList.length + draws.length = grouping.dynastyList.length := by
  induction draws generalizing grouping with
  | nil =>
      obtain rfl := Option.some.inj execution
      rfl
  | cons index draws ih =>
      obtain ⟨next, taken, rest⟩ := Option.bind_eq_some_iff.mp execution
      have shorter := ih rest
      have length := length_takeDynasty taken
      rw [List.length_cons]
      omega

theorem setGroups_partitioned {dynastyList : List δ} {draws : List ℕ} {final : Grouping δ}
    (grouped : setGroups dynastyList draws = some final) : Partitioned dynastyList final.groupDict := by
  rw [setGroups] at grouped
  split at grouped
  · rename_i many
    have start : Filling dynastyList ⟨dynastyList, [], []⟩ := ⟨List.Perm.refl _, nofun, Nat.succ_pos 3⟩
    have filling := run_invariant (fun kept taken => filling_step kept taken) grouped start
    have length := length_run grouped
    dsimp only at length
    have none_left : final.dynastyList = [] := List.eq_nil_of_length_eq_zero (by omega)
    have all := filling.all
    rw [none_left, List.append_nil] at all
    refine ⟨all, fun group mem => ?_, fun group mem => ?_⟩
    · rcases List.mem_append.mp mem with mem | mem
      · exact (filling.full group mem).le
      · rw [List.mem_singleton.mp mem]
        exact filling.room.le
    · rw [Grouping.groupDict, List.dropLast_concat] at mem
      exact filling.full group mem
  · exact absurd grouped nofun

end

structure Registered (υ : Type*) where
  dynastyName : String
  /-- `building_dict`: the `member_dict` of each building. -/
  buildingDict : Table ℕ (Table υ Unit)

/-- An enemy in `compete.enemy_dict`. -/
structure Enemy (υ : Type*) where
  dynastyName : String
  buildingDict : Table ℕ (SavedBuilding υ)

/-- `compete` of a dynasty. -/
structure Compete (δ υ : Type*) where
  isOpen : Bool
  enemyDict : Table δ (Enemy υ)

/-- `enemy_dict` of a dynasty, for its message. -/
def enemyDict (registered : Table δ (Registered υ)) (group : List δ) (dynastyId : δ) :
    Table δ (Registered υ) :=
  Table.collect registered.get (group.filter fun id => dynastyId ≠ id)

/-- The messages of `set_dynasty_compete_group`. -/
def enemyMessages (registered : Table δ (Registered υ)) (groupDict : List (List δ)) :
    List (δ × Table δ (Registered υ)) :=
  groupDict.flatMap fun group => group.map fun dynastyId =>
    (dynastyId, enemyDict registered group dynastyId)

/-- What is recorded of an enemy. -/
def Enemy.of (buildingData : ℕ → BuildingData) (info : Registered υ) : Enemy υ where
  dynastyName := info.dynastyName
  buildingDict := Table.collect
    (fun buildingId => (info.buildingDict.get buildingId).map fun memberDict =>
      ⟨(buildingData buildingId).buildingHp,
        Table.tabulate (fun _ => ((buildingData buildingId).defendCount : ℤ)) memberDict.keys⟩)
    info.buildingDict.keys

/-- `set_dynasty_compete_enemy`. -/
def Compete.setEnemy (buildingData : ℕ → BuildingData) (compete : Compete δ υ)
    (enemies : Table δ (Registered υ)) : Compete δ υ :=
  if compete.isOpen then compete
  else
    { compete with
      enemyDict := Table.collect
        (fun dynastyId => (enemies.get dynastyId).map (Enemy.of buildingData)) enemies.keys }

/-- A message reaches the server of its dynasty. -/
def deliver (buildingData : ℕ → BuildingData) (dynasties : Table δ (Compete δ υ))
    (message : δ × Table δ (Registered υ)) : Table δ (Compete δ υ) :=
  match dynasties.get message.1 with
  | none => dynasties
  | some compete => dynasties.set message.1 (some (compete.setEnemy buildingData message.2))

variable (buildingData : ℕ → BuildingData)

theorem get_deliver (dynasties : Table δ (Compete δ υ))
    (message : δ × Table δ (Registered υ)) (dynastyId : δ) :
    (deliver buildingData dynasties message).get dynastyId =
      if dynastyId = message.1 then
        (dynasties.get dynastyId).map fun compete => compete.setEnemy buildingData message.2
      else dynasties.get dynastyId := by
  rw [deliver]
  by_cases here : dynastyId = message.1
  · subst here
    rw [if_pos rfl]
    cases known : dynasties.get message.1 with
    | none => exact known
    | some compete => exact Table.get_set_self _ _ _
  · rw [if_neg here]
    cases dynasties.get message.1 with
    | none => rfl
    | some compete => exact Table.get_set_of_ne _ _ here

theorem get_foldl_deliver {delivered : List (δ × Table δ (Registered υ))}
    (apart : (delivered.map Prod.fst).Nodup) {dynastyId : δ} {enemies : Table δ (Registered υ)}
    (mem : (dynastyId, enemies) ∈ delivered) (dynasties : Table δ (Compete δ υ)) :
    (delivered.foldl (deliver buildingData) dynasties).get dynastyId =
      (dynasties.get dynastyId).map fun compete => compete.setEnemy buildingData enemies := by
  have others : ∀ (messages : List (δ × Table δ (Registered υ))) (start : Table δ (Compete δ υ)),
      dynastyId ∉ messages.map Prod.fst →
      (messages.foldl (deliver buildingData) start).get dynastyId = start.get dynastyId := by
    intro messages
    induction messages with
    | nil => exact fun _ _ => rfl
    | cons message messages ih =>
        intro start absent
        rw [List.map_cons, List.mem_cons, not_or] at absent
        rw [List.foldl_cons, ih _ absent.2, get_deliver, if_neg absent.1]
  obtain ⟨front, back, rfl⟩ := List.append_of_mem mem
  rw [List.map_append, List.map_cons, List.nodup_append, List.nodup_cons] at apart
  obtain ⟨-, ⟨later, -⟩, earlier⟩ := apart
  have before : dynastyId ∉ front.map Prod.fst := fun mem =>
    earlier dynastyId mem dynastyId List.mem_cons_self rfl
  rw [List.foldl_append, List.foldl_cons, others back _ later, get_deliver, if_pos rfl,
    others front _ before]

/-- The enemies of the dynasties are the others of their groups, unless a war was open already. -/
structure Recorded (buildingData : ℕ → BuildingData) (registered : Table δ (Registered υ))
    (groupDict : List (List δ)) (before after : Table δ (Compete δ υ)) : Prop where
  /-- A dynasty that takes its message has the others as enemies. -/
  enemies : ∀ group ∈ groupDict, ∀ dynastyId ∈ group, ∀ old ∈ before.get dynastyId,
    ∃ new ∈ after.get dynastyId, new.isOpen = old.isOpen ∧
      if old.isOpen then new.enemyDict = old.enemyDict
      else ∀ other, new.enemyDict.get other =
        if other ∈ group ∧ other ≠ dynastyId then (registered.get other).map (Enemy.of buildingData)
        else none
  /-- Of two that take theirs, each is an enemy of the other or neither is. -/
  symmetric : ∀ first ∈ groupDict.flatten, ∀ second ∈ groupDict.flatten,
    ∀ one ∈ after.get first, ∀ two ∈ after.get second, one.isOpen = false → two.isOpen = false →
      ((one.enemyDict.get second).isSome = true ↔ (two.enemyDict.get first).isSome = true)

omit [DecidableEq υ] in
theorem get_enemyDict (registered : Table δ (Registered υ)) (group : List δ) (dynastyId other : δ) :
    (enemyDict registered group dynastyId).get other =
      if other ∈ group ∧ other ≠ dynastyId then registered.get other else none := by
  rw [enemyDict, Table.get_collect]
  refine if_congr ?_ rfl rfl
  rw [List.mem_filter, decide_eq_true_eq, ne_comm]

theorem get_setEnemy {compete : Compete δ υ}
    (closed : compete.isOpen = false) (enemies : Table δ (Registered υ)) (other : δ) :
    (compete.setEnemy buildingData enemies).enemyDict.get other =
      (enemies.get other).map (Enemy.of buildingData) := by
  rw [Compete.setEnemy, closed]
  refine (Table.get_collect _ _ other).trans ?_
  split
  · rfl
  · rename_i absent
    have unknown : enemies.get other = none := by
      by_contra known
      exact absent ((Table.mem_keys _ _).mpr known)
    rw [unknown]
    rfl

theorem isOpen_setEnemy (compete : Compete δ υ)
    (enemies : Table δ (Registered υ)) :
    (compete.setEnemy buildingData enemies).isOpen = compete.isOpen := by
  rw [Compete.setEnemy]
  split <;> rfl

omit [DecidableEq υ] in
theorem map_fst_enemyMessages (registered : Table δ (Registered υ)) (groupDict : List (List δ)) :
    (enemyMessages registered groupDict).map Prod.fst = groupDict.flatten := by
  induction groupDict with
  | nil => rfl
  | cons group groupDict ih =>
      rw [enemyMessages, List.flatMap_cons, List.map_append, List.flatten_cons, ← ih, List.map_map]
      exact congrArg (· ++ _) (List.map_id _)

theorem recorded {registered : Table δ (Registered υ)}
    {loaded : List δ} (walked : loaded.Perm registered.keys) {groupDict : List (List δ)}
    (partitioned : Partitioned loaded groupDict) {delivered : List (δ × Table δ (Registered υ))}
    (arrived : delivered.Perm (enemyMessages registered groupDict)) (dynasties : Table δ (Compete δ υ)) :
    Recorded buildingData registered groupDict dynasties
      (delivered.foldl (deliver buildingData) dynasties) := by
  have nodup : groupDict.flatten.Nodup :=
    (partitioned.all.trans walked).nodup_iff.mpr registered.keys_nodup
  have apart : (delivered.map Prod.fst).Nodup := by
    rw [(arrived.map Prod.fst).nodup_iff, map_fst_enemyMessages]
    exact nodup
  have reached : ∀ group ∈ groupDict, ∀ dynastyId ∈ group,
      (delivered.foldl (deliver buildingData) dynasties).get dynastyId =
        (dynasties.get dynastyId).map fun compete =>
          compete.setEnemy buildingData (enemyDict registered group dynastyId) := by
    intro group grouped dynastyId mem
    refine get_foldl_deliver buildingData apart (arrived.mem_iff.mpr ?_) dynasties
    exact List.mem_flatMap.mpr ⟨group, grouped, List.mem_map.mpr ⟨dynastyId, mem, rfl⟩⟩
  -- The enemies that a dynasty has after it took its message.
  have taken : ∀ group ∈ groupDict, ∀ dynastyId ∈ group,
      ∀ new ∈ (delivered.foldl (deliver buildingData) dynasties).get dynastyId, new.isOpen = false →
        ∀ other ∈ groupDict.flatten,
          ((new.enemyDict.get other).isSome = true ↔ other ∈ group ∧ other ≠ dynastyId) := by
    intro group grouped dynastyId mem new found closed other known
    rw [reached group grouped dynastyId mem] at found
    obtain ⟨old, -, rfl⟩ := Option.map_eq_some_iff.mp found
    rw [isOpen_setEnemy] at closed
    rw [get_setEnemy buildingData closed, get_enemyDict, Option.isSome_map]
    have stored : (registered.get other).isSome = true := by
      rw [Option.isSome_iff_ne_none, ← Table.mem_keys, ← (partitioned.all.trans walked).mem_iff]
      exact known
    split
    · rename_i enemy
      exact ⟨fun _ => enemy, fun _ => stored⟩
    · rename_i friend
      exact ⟨by rintro ⟨⟩, fun enemy => absurd enemy friend⟩
  refine ⟨fun group grouped dynastyId mem old known => ?_, ?_⟩
  · refine ⟨old.setEnemy buildingData (enemyDict registered group dynastyId), ?_,
      isOpen_setEnemy _ _ _, ?_⟩
    · rw [reached group grouped dynastyId mem, known]
      rfl
    · split
      · rename_i isOpen
        rw [Compete.setEnemy, if_pos isOpen]
      · rename_i closed
        intro other
        rw [get_setEnemy buildingData (eq_false_of_ne_true closed), get_enemyDict]
        split
        · rfl
        · rfl
  · intro first mem second mem' one found two found' closed closed'
    obtain ⟨group, grouped, inside⟩ := List.mem_flatten.mp mem
    obtain ⟨group', grouped', inside'⟩ := List.mem_flatten.mp mem'
    rw [taken group grouped first inside one found closed second mem',
      taken group' grouped' second inside' two found' closed' first mem]
    have same : ∀ {id}, id ∈ group → id ∈ group' → group = group' := by
      intro id here here'
      by_contra different
      have symm : Std.Symm (@List.Disjoint δ) := ⟨fun _ _ apart _ here there => apart there here⟩
      exact (List.nodup_flatten.mp nodup).2.forall grouped grouped' different here here'
    constructor
    · rintro ⟨shared, different⟩
      exact ⟨same shared inside' ▸ inside, different.symm⟩
    · rintro ⟨shared, different⟩
      exact ⟨same inside shared ▸ inside', different.symm⟩

end

end UEServer.CrossCompete
