import UEServer.Hero.Shift
import UEServer.Library.Execution

/-!
# Positions of the line-up

The operations on the line-up keep its positions and heroes in order in every execution in which a
mapping of positions also names the slots whose positions it gives away, the hero sent to a
reinforcement place exists, and no hero is reborn while it holds one; and in no other.
-/

namespace UEServer.Hero

def Role.InSlot (role : Role) (lineupId heroId : Int) : Prop :=
  (role.lineupDict.get lineupId).bind LineupInfo.heroId = some heroId

def Role.Stands (role : Role) (lineupId posId : Int) : Prop :=
  ∃ lineupInfo, role.lineupDict.get lineupId = some lineupInfo ∧ lineupInfo.heroId.isSome ∧
    lineupInfo.posId = some posId

def Role.InPlace (role : Role) (posId heroId : Int) : Prop :=
  role.reinforcementsDict.get posId = some (some heroId)

structure Orderly (role : Role) : Prop where
  /-- An occupied slot stands at a position from 1 to `LineupMaxCount`. -/
  standing : ∀ lineupId heroId, role.InSlot lineupId heroId →
    ∃ posId, role.Stands lineupId posId ∧ 1 ≤ posId ∧ posId ≤ lineupMaxCount
  distinct : ∀ lineupId other posId, role.Stands lineupId posId → role.Stands other posId →
    lineupId = other
  once : ∀ lineupId other heroId, role.InSlot lineupId heroId → role.InSlot other heroId →
    lineupId = other
  apart : ∀ lineupId posId heroId, role.InSlot lineupId heroId → ¬ role.InPlace posId heroId
  slotted : ∀ lineupId heroId, role.InSlot lineupId heroId → (role.heroDict.get heroId).isSome
  placed : ∀ posId heroId, role.InPlace posId heroId → (role.heroDict.get heroId).isSome

/-- The slots are those from 1 to `LineupMaxCount`, and one that was never filled has no position. -/
structure Slots (role : Role) : Prop where
  within : ∀ lineupId lineupInfo, role.lineupDict.get lineupId = some lineupInfo →
    1 ≤ lineupId ∧ lineupId ≤ lineupMaxCount
  vacant : ∀ lineupId lineupInfo, role.lineupDict.get lineupId = some lineupInfo →
    lineupInfo.heroId = none → lineupInfo.posId = none

/-- A call of a client that changes the line-up, or a new hero or level. -/
inductive FormationOp where
  | addHero (heroId : Int)
  | lineupChangeHero (heroId lineupId : Int)
  | adjustPosLineup (posDict : Int → Option Int)
  | reinforcementsChange (posId : Int) (heroId : Option Int)
  | heroRecover (heroId : Int) (guids : Nat → List String)
  | onLvlup (newLevel : Nat)

section
variable (config : Config)

/-- Execute a call. -/
def formationApply (role : Role) : FormationOp → Role
  | .addHero heroId => addHero config role heroId
  | .lineupChangeHero heroId lineupId => lineupChangeHero config role heroId lineupId
  | .adjustPosLineup posDict => adjustPosLineup role posDict
  | .reinforcementsChange posId heroId => reinforcementsChange config role posId heroId
  | .heroRecover heroId guids => heroRecover config role heroId guids
  | .onLvlup newLevel => onLvlup config role newLevel

def formationStep (role : Role) (op : FormationOp) : Option Role :=
  some (formationApply config role op)

/-- What a call must find: a mapping that passes the checks names every slot whose position it gives
to another one; a hero that a reinforcement place accepts exists; a hero in a reinforcement place is
not reborn. -/
def FormationOp.Permitted (role : Role) : FormationOp → Prop
  | .adjustPosLineup posDict =>
      checkPosDict role posDict [] positions = true →
        ∀ lineupId posId, role.Stands lineupId posId → (posDict posId).isSome →
          ∃ newPosId ∈ positions, posDict newPosId = some lineupId
  | .reinforcementsChange posId (some heroId) =>
      (∃ current, role.reinforcementsDict.get posId = some current ∧ current ≠ some heroId) →
        (role.lined.length : Int) = lineupMaxCount → getHeroLineupId role heroId = none →
          (role.heroDict.get heroId).isSome
  | .heroRecover heroId _ =>
      (∃ posId, role.InPlace posId heroId) →
        (consumeItemList config false role.bag
          (costItems [config.itemParam.heroRecoverCost])).1 = false
  | _ => True

end

section
variable {config : Config} {role after : Role}

theorem mem_lined {heroId : Int} :
    heroId ∈ role.lined ↔ ∃ lineupId, role.InSlot lineupId heroId := by
  rw [Role.lined, List.mem_filterMap]
  constructor
  · rintro ⟨lineupInfo, mem, hero⟩
    obtain ⟨lineupId, found⟩ := Table.mem_values.mp mem
    exact ⟨lineupId, by rw [Role.InSlot, found]; exact hero⟩
  · rintro ⟨lineupId, inSlot⟩
    obtain ⟨lineupInfo, found, hero⟩ := Option.bind_eq_some_iff.mp inSlot
    exact ⟨lineupInfo, Table.mem_values.mpr ⟨lineupId, found⟩, hero⟩

theorem getHeroLineupId_eq_none {heroId : Int} :
    getHeroLineupId role heroId = none ↔ ∀ lineupId, ¬ role.InSlot lineupId heroId := by
  rw [getHeroLineupId, List.find?_eq_none]
  constructor
  · intro absent lineupId inSlot
    have present : lineupId ∈ role.lineupDict.keys := by
      rw [Table.mem_keys]
      intro none
      rw [Role.InSlot, none] at inSlot
      cases inSlot
    exact absent lineupId present (by simpa [Role.InSlot] using inSlot)
  · intro absent lineupId _ inSlot
    exact absent lineupId (by simpa [Role.InSlot] using inSlot)

theorem getReinforcementsPosId_eq_none {heroId : Int} :
    getReinforcementsPosId role heroId = none ↔ ∀ posId, ¬ role.InPlace posId heroId := by
  have bind_iff : ∀ posId,
      (role.reinforcementsDict.get posId).bind id = some heroId ↔ role.InPlace posId heroId := by
    intro posId
    rw [Role.InPlace]
    cases role.reinforcementsDict.get posId <;> simp
  rw [getReinforcementsPosId, List.find?_eq_none]
  constructor
  · intro absent posId inPlace
    have present : posId ∈ role.reinforcementsDict.keys := by
      rw [Table.mem_keys]
      intro none
      rw [Role.InPlace, none] at inPlace
      cases inPlace
    exact absent posId present (decide_eq_true ((bind_iff posId).mpr inPlace))
  · intro absent posId _ inPlace
    exact absent posId ((bind_iff posId).mp (of_decide_eq_true inPlace))

theorem Orderly.congr (orderly : Orderly role) (lineup : after.lineupDict = role.lineupDict)
    (places : after.reinforcementsDict = role.reinforcementsDict)
    (heroes : ∀ heroId, (after.heroDict.get heroId).isSome = (role.heroDict.get heroId).isSome) :
    Orderly after := by
  obtain ⟨standing, distinct, once, apart, slotted, placed⟩ := orderly
  constructor <;> simp only [Role.InSlot, Role.Stands, Role.InPlace, lineup, places, heroes] <;>
    assumption

theorem Slots.congr (slots : Slots role) (lineup : after.lineupDict = role.lineupDict) :
    Slots after :=
  ⟨by rw [lineup]; exact slots.within, by rw [lineup]; exact slots.vacant⟩

theorem Refreshed.orderly (refreshed : Refreshed role after) (orderly : Orderly role) :
    Orderly after :=
  orderly.congr (by rw [refreshed.stored]) (by rw [refreshed.stored]) refreshed.heroes

theorem Refreshed.slots (refreshed : Refreshed role after) (slots : Slots role) : Slots after :=
  slots.congr (by rw [refreshed.stored])

theorem Refreshed.orderly_iff (refreshed : Refreshed role after) :
    Orderly after ↔ Orderly role := by
  refine ⟨fun orderly => ?_, refreshed.orderly⟩
  exact orderly.congr (by rw [refreshed.stored]) (by rw [refreshed.stored])
    fun heroId => (refreshed.heroes heroId).symm

end

section
variable {config : Config} {role : Role}

theorem addHero_slots (slots : Slots role) (heroId : Int) :
    Slots (addHero config role heroId) := by
  unfold addHero
  split
  · exact slots
  · split
    · exact slots
    · exact slots.congr rfl

theorem addHero_orderly (orderly : Orderly role) (heroId : Int) :
    Orderly (addHero config role heroId) := by
  unfold addHero
  split
  · exact orderly
  · split
    · exact orderly
    · have more : ∀ other, (role.heroDict.get other).isSome →
          ((role.heroDict.set heroId (some {})).get other).isSome := by
        intro other present
        rw [Table.get_set]
        split
        · rfl
        · exact present
      exact ⟨orderly.standing, orderly.distinct, orderly.once, orderly.apart,
        fun lineupId other inSlot => more other (orderly.slotted lineupId other inSlot),
        fun posId other inPlace => more other (orderly.placed posId other inPlace)⟩

theorem checkLineupUnlock_get (lineupId : Int) :
    (checkLineupUnlock config role).lineupDict.get lineupId = role.lineupDict.get lineupId ∨
      role.lineupDict.get lineupId = none ∧ (1 ≤ lineupId ∧ lineupId ≤ lineupMaxCount) ∧
        (checkLineupUnlock config role).lineupDict.get lineupId = some {} := by
  rcases Table.get_foldl_open
    (fun entry : Nat × Nat => (entry.2 : Int) + 1 ≤ lineupMaxCount ∧ entry.1 ≤ role.level)
    (fun entry => (entry.2 : Int) + 1) ({} : LineupInfo) config.lineupUnlockData.zipIdx
    role.lineupDict lineupId with kept | ⟨absent, ⟨entry, -, ⟨limit, -⟩, rfl⟩, new⟩
  · exact .inl kept
  · exact .inr ⟨absent, ⟨by omega, limit⟩, new⟩

theorem checkReinforcementsUnlock_get (posId : Int) :
    (checkReinforcementsUnlock config role).reinforcementsDict.get posId =
        role.reinforcementsDict.get posId ∨
      role.reinforcementsDict.get posId = none ∧
        (checkReinforcementsUnlock config role).reinforcementsDict.get posId = some none := by
  rcases Table.get_foldl_open (fun entry : Nat × Nat => entry.1 ≤ role.level)
    (fun entry => (entry.2 : Int) + 1) (none : Option Int)
    config.reinforcementsUnlockData.zipIdx role.reinforcementsDict posId with kept | ⟨absent, -, new⟩
  · exact .inl kept
  · exact .inr ⟨absent, new⟩

theorem onLvlup_slots (slots : Slots role) (newLevel : Nat) :
    Slots (onLvlup config role newLevel) := by
  have unlocked := fun lineupId =>
    @checkLineupUnlock_get config { role with level := newLevel } lineupId
  constructor
  · intro lineupId lineupInfo found
    rcases unlocked lineupId with kept | ⟨-, range, -⟩
    · exact slots.within lineupId lineupInfo (kept.symm.trans found)
    · exact range
  · intro lineupId lineupInfo found vacant
    rcases unlocked lineupId with kept | ⟨-, -, new⟩
    · exact slots.vacant lineupId lineupInfo (kept.symm.trans found) vacant
    · cases new.symm.trans found
      rfl

theorem onLvlup_orderly (orderly : Orderly role) (newLevel : Nat) :
    Orderly (onLvlup config role newLevel) := by
  have unlocked := fun lineupId =>
    @checkLineupUnlock_get config { role with level := newLevel } lineupId
  have inSlot : ∀ lineupId heroId, (onLvlup config role newLevel).InSlot lineupId heroId ↔
      role.InSlot lineupId heroId := by
    intro lineupId heroId
    rcases unlocked lineupId with kept | ⟨absent, -, new⟩
    · exact iff_of_eq (congrArg (fun found => Option.bind found LineupInfo.heroId = some heroId) kept)
    · have before : role.lineupDict.get lineupId = none := absent
      have later : (onLvlup config role newLevel).lineupDict.get lineupId = some {} := new
      simp [Role.InSlot, before, later]
  have stands : ∀ lineupId posId, (onLvlup config role newLevel).Stands lineupId posId ↔
      role.Stands lineupId posId := by
    intro lineupId posId
    rcases unlocked lineupId with kept | ⟨absent, -, new⟩
    · exact iff_of_eq (congrArg (fun found : Option LineupInfo => ∃ lineupInfo : LineupInfo,
        found = some lineupInfo ∧ lineupInfo.heroId.isSome ∧ lineupInfo.posId = some posId) kept)
    · have before : role.lineupDict.get lineupId = none := absent
      have later : (onLvlup config role newLevel).lineupDict.get lineupId = some {} := new
      simp [Role.Stands, before, later]
  have inPlace : ∀ posId heroId, (onLvlup config role newLevel).InPlace posId heroId ↔
      role.InPlace posId heroId := by
    intro posId heroId
    rcases @checkReinforcementsUnlock_get config
      (checkLineupUnlock config { role with level := newLevel }) posId with
      kept | ⟨absent, new⟩
    · exact iff_of_eq (congrArg (fun found => found = some (some heroId)) kept)
    · have before : role.reinforcementsDict.get posId = none := absent
      have later : (onLvlup config role newLevel).reinforcementsDict.get posId = some none := new
      simp [Role.InPlace, before, later]
  obtain ⟨standing, distinct, once, apart, slotted, placed⟩ := orderly
  constructor <;> simp only [inSlot, stands, inPlace] <;> assumption

end

section
variable {role : Role} {posDict : Int → Option Int}

/-- The position of a slot after the second loop of `adjust_pos_lineup`. -/
def assignedPos (posDict : Int → Option Int) (lineupId : Int) (posIds : List Int)
    (old : Option Int) : Option Int :=
  posIds.foldl (fun pos posId => if posDict posId = some lineupId then some posId else pos) old

theorem get_setPosIds (posIds : List Int) (dict : Table Int LineupInfo) (lineupId : Int) :
    (setPosIds posDict dict posIds).get lineupId =
      (dict.get lineupId).map fun lineupInfo =>
        { lineupInfo with posId := assignedPos posDict lineupId posIds lineupInfo.posId } := by
  induction posIds generalizing dict with
  | nil => simp [setPosIds, assignedPos]
  | cons posId posIds ih =>
      cases named : posDict posId with
      | none =>
          have step : setPosIds posDict dict (posId :: posIds) = setPosIds posDict dict posIds := by
            simp [setPosIds, named]
          rw [step, ih]
          simp [assignedPos, named]
      | some target =>
          have step : setPosIds posDict dict (posId :: posIds) =
              setPosIds posDict (setPosId dict target posId) posIds := by
            simp [setPosIds, named]
          rw [step, ih]
          unfold setPosId
          cases found : dict.get target with
          | none =>
              by_cases same : target = lineupId
              · subst same
                simp [found]
              · simp [assignedPos, named, same]
          | some lineupInfo =>
              rw [Table.get_set]
              by_cases same : lineupId = target
              · subst same
                simp [found, assignedPos, named]
              · have different : ¬ target = lineupId := fun eq => same eq.symm
                simp [assignedPos, named, same, different]

theorem assignedPos_of_not_named {lineupId : Int} {posIds : List Int} (old : Option Int)
    (unnamed : ∀ posId ∈ posIds, posDict posId ≠ some lineupId) :
    assignedPos posDict lineupId posIds old = old := by
  induction posIds with
  | nil => rfl
  | cons posId posIds ih =>
      rw [assignedPos, List.foldl_cons, if_neg (unnamed posId List.mem_cons_self)]
      exact ih fun other mem => unnamed other (List.mem_cons_of_mem _ mem)

theorem assignedPos_of_named {lineupId posId : Int} {posIds : List Int} (old : Option Int)
    (named : posDict posId = some lineupId) (mem : posId ∈ posIds)
    (unique : ∀ other ∈ posIds, posDict other = some lineupId → other = posId) :
    assignedPos posDict lineupId posIds old = some posId := by
  induction posIds generalizing old with
  | nil => cases mem
  | cons first posIds ih =>
      rw [assignedPos, List.foldl_cons]
      by_cases later : posId ∈ posIds
      · exact ih _ later fun other mem => unique other (List.mem_cons_of_mem _ mem)
      · obtain rfl : posId = first := (List.mem_cons.mp mem).resolve_right later
        rw [if_pos named]
        refine assignedPos_of_not_named _ fun other mem' other_named => ?_
        exact later (unique other (List.mem_cons_of_mem _ mem') other_named ▸ mem')

/-- A mapping that passes the checks names occupied slots, each of them once. -/
theorem checkPosDict_spec {posIds signed : List Int} (nodup : posIds.Nodup)
    (passes : checkPosDict role posDict signed posIds = true) :
    (∀ posId ∈ posIds, ∀ lineupId, posDict posId = some lineupId →
      (∃ heroId, role.InSlot lineupId heroId) ∧ lineupId ∉ signed) ∧
    ∀ posId ∈ posIds, ∀ other ∈ posIds, ∀ lineupId, posDict posId = some lineupId →
      posDict other = some lineupId → posId = other := by
  induction posIds generalizing signed with
  | nil => simp
  | cons first posIds ih =>
      obtain ⟨fresh, nodup⟩ := List.nodup_cons.mp nodup
      rw [checkPosDict] at passes
      cases named : posDict first with
      | none =>
          rw [named] at passes
          obtain ⟨slots, unique⟩ := ih nodup passes
          constructor
          · intro posId mem lineupId found
            rcases List.mem_cons.mp mem with rfl | later
            · rw [named] at found
              cases found
            · exact slots posId later lineupId found
          · intro posId mem other other_mem lineupId found other_found
            rcases List.mem_cons.mp mem with rfl | later
            · rw [named] at found
              cases found
            rcases List.mem_cons.mp other_mem with rfl | other_later
            · rw [named] at other_found
              cases other_found
            exact unique posId later other other_later lineupId found other_found
      | some target =>
          rw [named] at passes
          dsimp only at passes
          split at passes
          · cases passes
          split at passes
          · cases passes
          rename_i occupied
          split at passes
          · cases passes
          rename_i unsigned
          obtain ⟨slots, unique⟩ := ih nodup passes
          have inSlot : ∃ heroId, role.InSlot target heroId := by
            rw [Option.isNone_iff_eq_none] at occupied
            exact Option.ne_none_iff_exists'.mp occupied
          have target_fresh : ∀ posId ∈ posIds, posDict posId ≠ some target := by
            intro posId mem found
            exact (slots posId mem target found).2 List.mem_cons_self
          constructor
          · intro posId mem lineupId found
            rcases List.mem_cons.mp mem with rfl | later
            · cases named.symm.trans found
              exact ⟨inSlot, by simpa using unsigned⟩
            · have := slots posId later lineupId found
              exact ⟨this.1, fun old => this.2 (List.mem_cons_of_mem _ old)⟩
          · intro posId mem other other_mem lineupId found other_found
            rcases List.mem_cons.mp mem with rfl | later
            · cases named.symm.trans found
              rcases List.mem_cons.mp other_mem with rfl | other_later
              · rfl
              · exact absurd other_found (target_fresh other other_later)
            · rcases List.mem_cons.mp other_mem with rfl | other_later
              · cases named.symm.trans other_found
                exact absurd found (target_fresh posId later)
              · exact unique posId later other other_later lineupId found other_found

theorem positions_nodup : positions.Nodup := by decide

theorem mem_positions {posId : Int} : posId ∈ positions ↔ 1 ≤ posId ∧ posId ≤ lineupMaxCount := by
  simp only [positions, List.mem_cons, List.not_mem_nil, or_false, lineupMaxCount]
  omega

theorem adjustPosLineup_slots (slots : Slots role) : Slots (adjustPosLineup role posDict) := by
  unfold adjustPosLineup
  by_cases passes : checkPosDict role posDict [] positions = true
  · rw [if_pos passes]
    have names := (checkPosDict_spec positions_nodup passes).1
    constructor
    · intro lineupId lineupInfo found
      rw [get_setPosIds] at found
      obtain ⟨before, old, -⟩ := Option.map_eq_some_iff.mp found
      exact slots.within lineupId before old
    · intro lineupId lineupInfo found vacant
      rw [get_setPosIds] at found
      obtain ⟨before, old, rfl⟩ := Option.map_eq_some_iff.mp found
      rw [assignedPos_of_not_named]
      · exact slots.vacant lineupId before old vacant
      · intro posId mem named
        obtain ⟨⟨heroId, inSlot⟩, -⟩ := names posId mem lineupId named
        rw [Role.InSlot, old, Option.bind_some] at inSlot
        cases inSlot.symm.trans vacant
  · rw [if_neg passes]
    exact slots

/-- The role after the second loop of `adjust_pos_lineup`. -/
def Role.moved (role : Role) (posDict : Int → Option Int) : Role :=
  { role with lineupDict := setPosIds posDict role.lineupDict positions }

theorem moved_get (lineupId : Int) : (role.moved posDict).lineupDict.get lineupId =
    (role.lineupDict.get lineupId).map fun lineupInfo =>
      { lineupInfo with posId := assignedPos posDict lineupId positions lineupInfo.posId } :=
  get_setPosIds positions role.lineupDict lineupId

theorem moved_inSlot (lineupId heroId : Int) :
    (role.moved posDict).InSlot lineupId heroId ↔ role.InSlot lineupId heroId := by
  rw [Role.InSlot, Role.InSlot, moved_get]
  cases role.lineupDict.get lineupId <;> rfl

theorem moved_stands_of_not_named {lineupId : Int}
    (unnamed : ∀ posId ∈ positions, posDict posId ≠ some lineupId) (posId : Int) :
    (role.moved posDict).Stands lineupId posId ↔ role.Stands lineupId posId := by
  simp only [Role.Stands, moved_get, assignedPos_of_not_named _ unnamed]
  cases role.lineupDict.get lineupId <;> simp

theorem moved_stands_of_named (passes : checkPosDict role posDict [] positions = true)
    {lineupId newPosId : Int} (mem : newPosId ∈ positions)
    (named : posDict newPosId = some lineupId) (posId : Int) :
    (role.moved posDict).Stands lineupId posId ↔ posId = newPosId := by
  obtain ⟨names, unique⟩ := checkPosDict_spec positions_nodup passes
  obtain ⟨⟨heroId, inside⟩, -⟩ := names newPosId mem lineupId named
  obtain ⟨lineupInfo, old, hero⟩ := Option.bind_eq_some_iff.mp inside
  have assigned := assignedPos_of_named lineupInfo.posId named mem
    fun other other_mem other_named =>
      (unique newPosId mem other other_mem lineupId named other_named).symm
  simp only [Role.Stands, moved_get, old, Option.map_some, Option.some.injEq, exists_eq_left',
    hero, Option.isSome_some, true_and, assigned]
  exact eq_comm

/-- Where a slot stands after the move: at the position that names it, or where it stood. -/
theorem moved_stands_cases (passes : checkPosDict role posDict [] positions = true)
    {lineupId posId : Int} (stands : (role.moved posDict).Stands lineupId posId) :
    posId ∈ positions ∧ posDict posId = some lineupId ∨
      (∀ posId ∈ positions, posDict posId ≠ some lineupId) ∧ role.Stands lineupId posId := by
  by_cases named : ∃ newPosId ∈ positions, posDict newPosId = some lineupId
  · obtain ⟨newPosId, mem, named⟩ := named
    obtain rfl := (moved_stands_of_named passes mem named posId).mp stands
    exact .inl ⟨mem, named⟩
  · push Not at named
    exact .inr ⟨named, (moved_stands_of_not_named named posId).mp stands⟩

theorem Orderly.mem_positions (orderly : Orderly role) {lineupId posId : Int}
    (stands : role.Stands lineupId posId) : posId ∈ positions := by
  obtain ⟨lineupInfo, found, occupied, pos⟩ := stands
  obtain ⟨heroId, hero⟩ := Option.isSome_iff_exists.mp occupied
  have inside : role.InSlot lineupId heroId := by
    rw [Role.InSlot, found]
    exact hero
  obtain ⟨other, ⟨lineupInfo', found', -, pos'⟩, range⟩ := orderly.standing lineupId heroId inside
  cases found.symm.trans found'
  cases pos.symm.trans pos'
  exact Hero.mem_positions.mpr range

/-- Two slots stand at one position exactly where a position is given away and its slot is not
named. -/
theorem moved_distinct (orderly : Orderly role)
    (passes : checkPosDict role posDict [] positions = true) :
    (∀ lineupId other posId, (role.moved posDict).Stands lineupId posId →
        (role.moved posDict).Stands other posId → lineupId = other) ↔
      ∀ lineupId posId, role.Stands lineupId posId → (posDict posId).isSome →
        ∃ newPosId ∈ positions, posDict newPosId = some lineupId := by
  constructor
  · intro distinct lineupId posId stands given
    by_contra unnamed
    push Not at unnamed
    obtain ⟨target, named⟩ := Option.isSome_iff_exists.mp given
    have mem := orderly.mem_positions stands
    have same := distinct lineupId target posId
      ((moved_stands_of_not_named unnamed posId).mpr stands)
      ((moved_stands_of_named passes mem named posId).mpr rfl)
    exact unnamed posId mem (same ▸ named)
  · intro covers lineupId other posId stands other_stands
    rcases moved_stands_cases passes stands with ⟨mem, named⟩ | ⟨unnamed, old⟩
    · rcases moved_stands_cases passes other_stands with ⟨-, other_named⟩ | ⟨unnamed, old⟩
      · exact Option.some.inj (named.symm.trans other_named)
      · obtain ⟨newPosId, mem, new⟩ := covers other posId old (by rw [named]; rfl)
        exact absurd new (unnamed newPosId mem)
    · rcases moved_stands_cases passes other_stands with ⟨-, other_named⟩ | ⟨-, other_old⟩
      · obtain ⟨newPosId, mem, new⟩ := covers lineupId posId old (by rw [other_named]; rfl)
        exact absurd new (unnamed newPosId mem)
      · exact orderly.distinct lineupId other posId old other_old

theorem moved_standing (orderly : Orderly role)
    (passes : checkPosDict role posDict [] positions = true) {lineupId heroId : Int}
    (inside : (role.moved posDict).InSlot lineupId heroId) :
    ∃ posId, (role.moved posDict).Stands lineupId posId ∧ 1 ≤ posId ∧ posId ≤ lineupMaxCount := by
  by_cases named : ∃ posId ∈ positions, posDict posId = some lineupId
  · obtain ⟨posId, mem, named⟩ := named
    exact ⟨posId, (moved_stands_of_named passes mem named posId).mpr rfl, mem_positions.mp mem⟩
  · push Not at named
    obtain ⟨posId, stands, range⟩ :=
      orderly.standing lineupId heroId ((moved_inSlot lineupId heroId).mp inside)
    exact ⟨posId, (moved_stands_of_not_named named posId).mpr stands, range⟩

/-- The line-up stays in order exactly if every slot whose position is given away is named. -/
theorem adjustPosLineup_orderly (config : Config) (orderly : Orderly role) :
    Orderly (adjustPosLineup role posDict) ↔
      (FormationOp.adjustPosLineup posDict).Permitted config role := by
  unfold adjustPosLineup FormationOp.Permitted
  by_cases passes : checkPosDict role posDict [] positions = true
  · rw [if_pos passes]
    change Orderly (role.moved posDict) ↔ _
    have distinct := moved_distinct orderly passes
    constructor
    · exact fun after _ => distinct.mp after.distinct
    · intro covers
      refine ⟨fun lineupId heroId => moved_standing orderly passes, distinct.mpr (covers passes),
        ?_, ?_, ?_, orderly.placed⟩
      · simp only [moved_inSlot]
        exact orderly.once
      · simp only [moved_inSlot]
        exact orderly.apart
      · simp only [moved_inSlot]
        exact orderly.slotted
  · rw [if_neg passes]
    exact ⟨fun _ passes' => absurd passes' passes, fun _ => orderly⟩

end

section
variable {config : Config} {role : Role}

theorem reinforcementsChange_slots (slots : Slots role) (posId : Int) (heroId : Option Int) :
    Slots (reinforcementsChange config role posId heroId) := by
  unfold reinforcementsChange
  split
  · exact slots
  split
  · exact slots
  split
  · exact slots
  split
  · exact (refreshFates_refreshed _).slots (slots.congr rfl)
  · split
    · exact slots
    · exact (refreshFates_refreshed _).slots (slots.congr rfl)

/-- A change of the places that brings in no hero of a slot keeps the order exactly if the heroes of
the places exist. -/
theorem orderly_of_places (orderly : Orderly role) (dict : Table Int (Option Int))
    (apart : ∀ posId heroId, dict.get posId = some (some heroId) →
      ∀ lineupId, ¬ role.InSlot lineupId heroId) :
    Orderly { role with reinforcementsDict := dict } ↔
      ∀ posId heroId, dict.get posId = some (some heroId) → (role.heroDict.get heroId).isSome :=
  ⟨fun after => after.placed, fun placed =>
    ⟨orderly.standing, orderly.distinct, orderly.once,
      fun lineupId posId heroId inSlot inPlace => apart posId heroId inPlace lineupId inSlot,
      orderly.slotted, placed⟩⟩

theorem inPlace_of_leavePlace {heroId posId other : Int}
    (placed : (leavePlace role heroId).get posId = some (some other)) :
    role.InPlace posId other := by
  unfold leavePlace at placed
  split at placed
  · rw [Table.get_set] at placed
    split at placed
    · cases placed
    · exact placed
  · exact placed

theorem reinforcementsChange_orderly (orderly : Orderly role) (posId : Int)
    (heroId : Option Int) :
    Orderly (reinforcementsChange config role posId heroId) ↔
      (FormationOp.reinforcementsChange posId heroId).Permitted config role := by
  have old_apart : ∀ posId heroId, role.InPlace posId heroId →
      ∀ lineupId, ¬ role.InSlot lineupId heroId :=
    fun posId heroId inPlace lineupId inSlot => orderly.apart lineupId posId heroId inSlot inPlace
  unfold reinforcementsChange
  cases found : role.reinforcementsDict.get posId with
  | none =>
      refine iff_of_true orderly ?_
      cases heroId with
      | none => trivial
      | some heroId =>
          rintro ⟨current, found', -⟩
          rw [found] at found'
          cases found'
  | some current =>
      dsimp only
      by_cases same : current = heroId
      · rw [if_pos same]
        refine iff_of_true orderly ?_
        cases heroId with
        | none => trivial
        | some heroId =>
            rintro ⟨other, found', different⟩
            rw [found] at found'
            exact absurd ((Option.some.inj found').symm.trans same) different
      rw [if_neg same]
      by_cases full : (role.lined.length : Int) = lineupMaxCount
      swap
      · rw [if_pos full]
        refine iff_of_true orderly ?_
        cases heroId with
        | none => trivial
        | some heroId => exact fun _ full' => absurd full' full
      rw [if_neg (not_not.mpr full)]
      cases heroId with
      | none =>
          refine iff_of_true ?_ trivial
          refine (refreshFates_refreshed _).orderly ((orderly_of_places orderly _ ?_).mpr ?_)
          · intro other heroId placed
            rw [Table.get_set] at placed
            split at placed
            · cases placed
            · exact old_apart other heroId placed
          · intro other heroId placed
            rw [Table.get_set] at placed
            split at placed
            · cases placed
            · exact orderly.placed other heroId placed
      | some heroId =>
          dsimp only
          cases lined : getHeroLineupId role heroId with
          | some lineupId =>
              refine iff_of_true orderly ?_
              intro _ _ absent
              rw [lined] at absent
              cases absent
          | none =>
              have outside := getHeroLineupId_eq_none.mp lined
              rw [Option.isSome_none, if_neg Bool.false_ne_true,
                (refreshFates_refreshed _).orderly_iff]
              have cases_new : ∀ other newHeroId,
                  ((leavePlace role heroId).set posId (some (some heroId))).get other =
                      some (some newHeroId) →
                    newHeroId = heroId ∨ role.InPlace other newHeroId := by
                intro other newHeroId placed
                rw [Table.get_set] at placed
                split at placed
                · exact .inl (Option.some.inj (Option.some.inj placed)).symm
                · exact .inr (inPlace_of_leavePlace placed)
              rw [orderly_of_places orderly]
              · constructor
                · intro placed _ _ _
                  exact placed posId heroId (Table.get_set_self _ _ _)
                · intro permitted other newHeroId placed
                  rcases cases_new other newHeroId placed with rfl | old
                  · exact permitted ⟨current, found, same⟩ full lined
                  · exact orderly.placed other newHeroId old
              · intro other newHeroId placed
                rcases cases_new other newHeroId placed with rfl | old
                · exact outside
                · exact old_apart other newHeroId old

theorem heroRecover_slots (slots : Slots role) (heroId : Int) (guids : Nat → List String) :
    Slots (heroRecover config role heroId guids) := by
  unfold heroRecover
  split
  · exact slots
  split
  · exact slots
  rw [consuming_eq]
  split
  · exact slots.congr rfl
  · exact slots.congr rfl

theorem heroRecover_orderly (orderly : Orderly role) (heroId : Int)
    (guids : Nat → List String) :
    Orderly (heroRecover config role heroId guids) ↔
      (FormationOp.heroRecover heroId guids).Permitted config role := by
  unfold heroRecover FormationOp.Permitted
  cases found : role.heroDict.get heroId with
  | none =>
      refine iff_of_true orderly ?_
      rintro ⟨posId, inPlace⟩
      have present := orderly.placed posId heroId inPlace
      rw [found] at present
      cases present
  | some heroInfo =>
      dsimp only
      cases lined : getHeroLineupId role heroId with
      | some lineupId =>
          refine iff_of_true orderly ?_
          rintro ⟨posId, inPlace⟩
          have outside : getHeroLineupId role heroId = none :=
            getHeroLineupId_eq_none.mpr fun lineupId inSlot =>
              orderly.apart lineupId posId heroId inSlot inPlace
          rw [lined] at outside
          cases outside
      | none =>
          have outside := getHeroLineupId_eq_none.mp lined
          rw [Option.isSome_none, if_neg Bool.false_ne_true, consuming_eq]
          by_cases consumed : (consumeItemList config false role.bag
              (costItems [config.itemParam.heroRecoverCost])).1 = true
          · rw [if_pos consumed]
            have kept : ∀ other, other ≠ heroId → (role.heroDict.get other).isSome →
                ((role.heroDict.set heroId none).get other).isSome := by
              intro other different present
              rw [Table.get_set_of_ne _ _ different]
              exact present
            constructor
            · rintro after ⟨posId, inPlace⟩
              have present := after.placed posId heroId inPlace
              rw [Table.get_set_self] at present
              cases present
            · intro permitted
              refine { orderly with slotted := ?_, placed := ?_ }
              · intro lineupId other inSlot
                refine kept other ?_ (orderly.slotted lineupId other inSlot)
                rintro rfl
                exact outside lineupId inSlot
              · intro posId other inPlace
                refine kept other ?_ (orderly.placed posId other inPlace)
                rintro rfl
                rw [permitted ⟨posId, inPlace⟩] at consumed
                cases consumed
          · rw [if_neg consumed]
            exact iff_of_true (orderly.congr rfl rfl fun _ => rfl)
              fun _ => Bool.eq_false_iff.mpr consumed

end

section
variable {config : Config} {role : Role}

theorem getLineupNewPosId_isSome (slots : Slots role) {lineupId : Int} {lineupInfo : LineupInfo}
    (found : role.lineupDict.get lineupId = some lineupInfo) (unset : lineupInfo.posId = none) :
    ∃ posId, getLineupNewPosId role = some posId := by
  by_contra none_free
  have full := List.find?_eq_none.mp (Option.eq_none_iff_forall_ne_some.mpr
    fun posId some => none_free ⟨posId, some⟩)
  -- Every position is that of another slot.
  have taken : ∀ posId ∈ positions, ∃ other ∈ (Finset.Icc 1 lineupMaxCount).erase lineupId,
      (role.lineupDict.get other).bind LineupInfo.posId = some posId := by
    intro posId mem
    have not_free := full posId mem
    rw [List.all_eq_true] at not_free
    push Not at not_free
    obtain ⟨info, info_mem, pos⟩ := not_free
    obtain ⟨other, other_found⟩ := Table.mem_values.mp info_mem
    have pos : info.posId = some posId := by simpa using pos
    refine ⟨other, Finset.mem_erase.mpr ⟨?_, ?_⟩, by rw [other_found]; exact pos⟩
    · rintro rfl
      cases found.symm.trans other_found
      rw [unset] at pos
      cases pos
    · exact Finset.mem_Icc.mpr (slots.within other info other_found)
  have few : ((Finset.Icc 1 lineupMaxCount).erase lineupId).card = 5 := by
    rw [Finset.card_erase_of_mem (Finset.mem_Icc.mpr (slots.within lineupId lineupInfo found))]
    decide
  have covered : (positions.map some).toFinset ⊆
      ((Finset.Icc 1 lineupMaxCount).erase lineupId).image
        fun other => (role.lineupDict.get other).bind LineupInfo.posId := by
    intro pos mem
    obtain ⟨posId, posId_mem, rfl⟩ := List.mem_map.mp (List.mem_toFinset.mp mem)
    obtain ⟨other, other_mem, stands⟩ := taken posId posId_mem
    exact Finset.mem_image.mpr ⟨other, other_mem, stands⟩
  have six : (positions.map some).toFinset.card ≤ 5 := by
    rw [← few]
    exact le_trans (Finset.card_le_card covered) Finset.card_image_le
  exact absurd six (by decide)

theorem changeLineupHeroTalentAttr_refreshed (role : Role) (heroId : Int) (isClear : Bool) :
    Refreshed role (changeLineupHeroTalentAttr config role heroId isClear) := by
  by_cases present : (role.heroDict.get heroId).isSome
  · exact (changeLineupHeroTalentAttr_shifts role present isClear).refreshed
  · have absent : role.heroDict.get heroId = none := by simpa using present
    rw [changeLineupHeroTalentAttr, absent]
    exact .refl role

theorem modifyHeroAttr_refreshed (role : Role) (heroId : Option Int)
    (oldAttr newAttr : Option AttrDict) :
    Refreshed role (modifyHeroAttr config role heroId oldAttr newAttr) :=
  (modifyHeroAttr_shifts role heroId oldAttr newAttr).refreshed

theorem Refreshed.setLineup {after : Role} (refreshed : Refreshed role after)
    (dict : Table Int LineupInfo) :
    Refreshed { role with lineupDict := dict } { after with lineupDict := dict } :=
  ⟨by rw [refreshed.stored], refreshed.heroes⟩

theorem leaveSlot_refreshed (role : Role) (attr : AttrDict) (heroId : Option Int) :
    Refreshed role (leaveSlot config role attr heroId) := by
  unfold leaveSlot
  cases heroId with
  | none => exact .refl role
  | some oldHeroId =>
      exact ((modifyHeroAttr_refreshed _ _ _ _).trans
        (changeLineupHeroTalentAttr_refreshed _ _ _)).trans (modifyHeroAttr_refreshed _ _ _ _)

/-- The slot of the hero is assigned, and nothing else of the formation. -/
theorem lineupChangeHero_cases (heroId lineupId : Int) :
    lineupChangeHero config role heroId lineupId = role ∨
      ∃ lineupInfo, role.lineupDict.get lineupId = some lineupInfo ∧
        (role.heroDict.get heroId).isSome ∧ (∀ posId, ¬ role.InPlace posId heroId) ∧
        (∀ other, ¬ role.InSlot other heroId) ∧
        Refreshed
          { role with
            lineupDict := role.lineupDict.set lineupId
              (some { lineupInfo with
                posId := lineupInfo.posId.or (getLineupNewPosId role)
                heroId := some heroId }) }
          (lineupChangeHero config role heroId lineupId) := by
  unfold lineupChangeHero
  split
  · exact .inl rfl
  split
  · exact .inl rfl
  rename_i present
  split
  · exact .inl rfl
  rename_i unplaced
  split
  · exact .inl rfl
  rename_i unlined
  cases found : role.lineupDict.get lineupId with
  | none => exact .inl rfl
  | some lineupInfo =>
      dsimp only
      split
      · exact .inl rfl
      refine .inr ⟨lineupInfo, rfl, Option.isSome_iff_ne_none.mpr (by simpa using present),
        getReinforcementsPosId_eq_none.mp (by simpa using unplaced),
        fun other inSlot => unlined ?_, ?_⟩
      · rw [List.contains_iff_mem]
        exact mem_lined.mpr ⟨other, inSlot⟩
      refine Refreshed.trans ?_ (refreshFates_refreshed _)
      refine Refreshed.trans ?_ (modifyHeroAttr_refreshed _ _ _ _)
      refine Refreshed.trans ?_ (changeLineupHeroTalentAttr_refreshed _ _ _)
      refine Refreshed.trans ?_ (modifyHeroAttr_refreshed _ _ _ _)
      have left := @leaveSlot_refreshed config role
        (getLineupAttrDict config role.bag lineupInfo) lineupInfo.heroId
      have lineup := congrArg Role.lineupDict left.stored
      rw [lineup]
      exact left.setLineup _

theorem newPos_free (slots : Slots role) (orderly : Orderly role) {lineupId : Int}
    {lineupInfo : LineupInfo} (found : role.lineupDict.get lineupId = some lineupInfo) :
    ∃ posId, lineupInfo.posId.or (getLineupNewPosId role) = some posId ∧
      (1 ≤ posId ∧ posId ≤ lineupMaxCount) ∧
      ∀ other, other ≠ lineupId → ¬ role.Stands other posId := by
  cases set : lineupInfo.posId with
  | none =>
      obtain ⟨posId, free⟩ := getLineupNewPosId_isSome slots found set
      refine ⟨posId, free, mem_positions.mp (List.mem_of_find?_eq_some free), ?_⟩
      rintro other - ⟨info, other_found, -, pos⟩
      have all := List.find?_some free
      rw [List.all_eq_true] at all
      have different := all info (Table.mem_values.mpr ⟨other, other_found⟩)
      simp [pos] at different
  | some posId =>
      have occupied : lineupInfo.heroId.isSome := by
        rw [Option.isSome_iff_ne_none]
        intro vacant
        rw [slots.vacant lineupId lineupInfo found vacant] at set
        cases set
      have stands : role.Stands lineupId posId := ⟨lineupInfo, found, occupied, set⟩
      refine ⟨posId, rfl, mem_positions.mp (orderly.mem_positions stands), ?_⟩
      exact fun other different other_stands =>
        different (orderly.distinct other lineupId posId other_stands stands)

theorem lineupChangeHero_slots (slots : Slots role) (heroId lineupId : Int) :
    Slots (lineupChangeHero config role heroId lineupId) := by
  rcases @lineupChangeHero_cases config role heroId lineupId with
    same | ⟨lineupInfo, found, -, -, -, refreshed⟩
  · rw [same]
    exact slots
  refine refreshed.slots ⟨fun other info other_found => ?_, fun other info other_found vacant => ?_⟩
  · rw [Table.get_set] at other_found
    split at other_found
    · rename_i same
      rw [same]
      exact slots.within lineupId lineupInfo found
    · exact slots.within other info other_found
  · rw [Table.get_set] at other_found
    split at other_found
    · cases other_found
      cases vacant
    · exact slots.vacant other info other_found vacant

theorem lineupChangeHero_orderly (slots : Slots role) (orderly : Orderly role)
    (heroId lineupId : Int) : Orderly (lineupChangeHero config role heroId lineupId) := by
  rcases @lineupChangeHero_cases config role heroId lineupId with
    same | ⟨lineupInfo, found, present, unplaced, unlined, refreshed⟩
  · rw [same]
    exact orderly
  obtain ⟨posId, pos, range, free⟩ := newPos_free slots orderly found
  rw [pos] at refreshed
  refine refreshed.orderly ?_
  generalize made : (some { lineupInfo with posId := some posId, heroId := some heroId } :
    Option LineupInfo) = filled
  have inSlot : ∀ other otherHero,
      Role.InSlot { role with lineupDict := role.lineupDict.set lineupId filled } other otherHero →
        other = lineupId ∧ otherHero = heroId ∨
          other ≠ lineupId ∧ role.InSlot other otherHero := by
    intro other otherHero inside
    rw [Role.InSlot, Table.get_set] at inside
    split at inside
    · rename_i same
      rw [← made] at inside
      exact .inl ⟨same, (Option.some.inj inside).symm⟩
    · rename_i different
      exact .inr ⟨different, inside⟩
  have stands : ∀ other otherPos,
      Role.Stands { role with lineupDict := role.lineupDict.set lineupId filled } other otherPos ↔
        other = lineupId ∧ otherPos = posId ∨
          other ≠ lineupId ∧ role.Stands other otherPos := by
    intro other otherPos
    by_cases same : other = lineupId
    · subst same
      constructor
      · rintro ⟨info, get, -, info_pos⟩
        rw [Table.get_set_self, ← made] at get
        cases get
        exact .inl ⟨rfl, (Option.some.inj info_pos).symm⟩
      · rintro (⟨-, rfl⟩ | ⟨different, -⟩)
        · exact ⟨_, by rw [Table.get_set_self, ← made], rfl, rfl⟩
        · exact absurd rfl different
    · constructor
      · rintro ⟨info, get, rest⟩
        rw [Table.get_set_of_ne _ _ same] at get
        exact .inr ⟨same, info, get, rest⟩
      · rintro (⟨eq, -⟩ | ⟨-, info, get, rest⟩)
        · exact absurd eq same
        · exact ⟨info, by rw [Table.get_set_of_ne _ _ same, get], rest⟩
  refine ⟨?_, ?_, ?_, ?_, ?_, orderly.placed⟩
  · intro other otherHero inside
    rcases inSlot other otherHero inside with ⟨rfl, rfl⟩ | ⟨different, old⟩
    · exact ⟨posId, (stands other posId).mpr (.inl ⟨rfl, rfl⟩), range⟩
    · obtain ⟨oldPos, old_stands, old_range⟩ := orderly.standing other otherHero old
      exact ⟨oldPos, (stands other oldPos).mpr (.inr ⟨different, old_stands⟩), old_range⟩
  · intro first second at' first_stands second_stands
    rcases (stands first at').mp first_stands with ⟨rfl, rfl⟩ | ⟨different, old⟩
    · rcases (stands second at').mp second_stands with ⟨rfl, -⟩ | ⟨different, old⟩
      · rfl
      · exact absurd old (free second different)
    · rcases (stands second at').mp second_stands with ⟨rfl, rfl⟩ | ⟨-, second_old⟩
      · exact absurd old (free first different)
      · exact orderly.distinct first second at' old second_old
  · intro first second hero first_inside second_inside
    rcases inSlot first hero first_inside with ⟨rfl, rfl⟩ | ⟨-, old⟩
    · rcases inSlot second hero second_inside with ⟨rfl, -⟩ | ⟨-, old⟩
      · rfl
      · exact absurd old (unlined second)
    · rcases inSlot second hero second_inside with ⟨rfl, rfl⟩ | ⟨-, second_old⟩
      · exact absurd old (unlined first)
      · exact orderly.once first second hero old second_old
  · intro other place hero inside
    rcases inSlot other hero inside with ⟨-, rfl⟩ | ⟨-, old⟩
    · exact unplaced place
    · exact orderly.apart other place hero old
  · intro other hero inside
    rcases inSlot other hero inside with ⟨-, rfl⟩ | ⟨-, old⟩
    · exact present
    · exact orderly.slotted other hero old

end

section
variable {config : Config} {role after : Role} {op : FormationOp}

theorem formationStep_slots (slots : Slots role)
    (taken : formationStep config role op = some after) : Slots after := by
  obtain rfl : formationApply config role op = after := Option.some.inj taken
  cases op with
  | addHero heroId => exact addHero_slots slots heroId
  | lineupChangeHero heroId lineupId => exact lineupChangeHero_slots slots heroId lineupId
  | adjustPosLineup posDict => exact adjustPosLineup_slots slots
  | reinforcementsChange posId heroId => exact reinforcementsChange_slots slots posId heroId
  | heroRecover heroId guids => exact heroRecover_slots slots heroId guids
  | onLvlup newLevel => exact onLvlup_slots slots newLevel

theorem formationStep_orderly (slots : Slots role) (orderly : Orderly role)
    (taken : formationStep config role op = some after) :
    Orderly after ↔ op.Permitted config role := by
  obtain rfl : formationApply config role op = after := Option.some.inj taken
  cases op with
  | addHero heroId => exact iff_of_true (addHero_orderly orderly heroId) trivial
  | lineupChangeHero heroId lineupId =>
      exact iff_of_true (lineupChangeHero_orderly slots orderly heroId lineupId) trivial
  | adjustPosLineup posDict => exact adjustPosLineup_orderly config orderly
  | reinforcementsChange posId heroId => exact reinforcementsChange_orderly orderly posId heroId
  | heroRecover heroId guids => exact heroRecover_orderly orderly heroId guids
  | onLvlup newLevel => exact iff_of_true (onLvlup_orderly orderly newLevel) trivial

theorem formationStep_run (role : Role) (ops : List FormationOp) :
    ∃ final, Execution.run (formationStep config) role ops = some final := by
  induction ops generalizing role with
  | nil => exact ⟨role, rfl⟩
  | cons op ops ih => exact ih (formationApply config role op)

/-- The line-up stays in order throughout an execution exactly if every call of it is permitted. -/
theorem formation_orderly_iff {ops : List FormationOp} (slots : Slots role)
    (orderly : Orderly role) :
    Execution.Always (formationStep config) Orderly role ops ↔
      Execution.Guarded (formationStep config) (fun role op => op.Permitted config role) role
        ops := by
  obtain ⟨final, execution⟩ := @formationStep_run config role ops
  exact Execution.always_iff_guarded (fun slots _ taken => formationStep_slots slots taken)
    (fun slots orderly taken => formationStep_orderly slots orderly taken) execution slots orderly

end

theorem emptyRole_slots (bag : Bag.Role) : Slots (emptyRole bag) :=
  ⟨fun _ _ found => absurd found (by simp [emptyRole]),
    fun _ _ found => absurd found (by simp [emptyRole])⟩

theorem emptyRole_orderly (bag : Bag.Role) : Orderly (emptyRole bag) := by
  constructor <;> simp [Role.InSlot, Role.Stands, Role.InPlace, emptyRole]

/-- Two heroes are put into slots, and no position is given away. -/
def pairRun : List FormationOp :=
  [.onLvlup 1, .addHero 1, .addHero 2, .lineupChangeHero 1 1, .lineupChangeHero 2 2,
    .adjustPosLineup fun _ => none]

theorem formation_orderly_iff_pairRun :
    Execution.Always (formationStep sampleConfig) Orderly (emptyRole Bag.wearingRole) pairRun := by
  refine (formation_orderly_iff (emptyRole_slots _) (emptyRole_orderly _)).mpr ?_
  refine ⟨trivial, fun _ _ => ⟨trivial, fun _ _ => ⟨trivial, fun _ _ => ⟨trivial, fun _ _ =>
    ⟨trivial, fun _ _ => ⟨fun _ _ _ _ given => ?_, fun _ _ => trivial⟩⟩⟩⟩⟩⟩
  cases given

/-- The second hero is moved to the position of the first one, which is not named. -/
def crowdedRun : List FormationOp :=
  [.onLvlup 1, .addHero 1, .addHero 2, .lineupChangeHero 1 1, .lineupChangeHero 2 2,
    .adjustPosLineup fun posId => if posId = 1 then some 2 else none]

/-- Two heroes stand at one position. -/
theorem crowdedRun_not_orderly :
    ∃ role, Execution.run (formationStep sampleConfig) (emptyRole Bag.wearingRole) crowdedRun =
      some role ∧ ¬ Orderly role := by
  have final : ((Execution.run (formationStep sampleConfig) (emptyRole Bag.wearingRole)
      crowdedRun).map fun role => [1, 2].map fun lineupId =>
        (role.lineupDict.get lineupId).map fun lineupInfo =>
          (lineupInfo.heroId, lineupInfo.posId)) =
      some [some (some 1, some 1), some (some 2, some 1)] := by decide +kernel
  obtain ⟨role, execution, slots⟩ := Option.map_eq_some_iff.mp final
  have stands : ∀ lineupId ∈ [(1 : Int), 2], role.Stands lineupId 1 := by
    intro lineupId mem
    simp only [List.map_cons, List.map_nil, List.cons.injEq, and_true] at slots
    have slot : ∃ heroId, (role.lineupDict.get lineupId).map (fun lineupInfo =>
        (lineupInfo.heroId, lineupInfo.posId)) = some (some heroId, some 1) := by
      rcases List.mem_cons.mp mem with rfl | mem
      · exact ⟨1, slots.1⟩
      · cases List.mem_singleton.mp mem
        exact ⟨2, slots.2⟩
    obtain ⟨heroId, slot⟩ := slot
    obtain ⟨lineupInfo, found, fields⟩ := Option.map_eq_some_iff.mp slot
    obtain ⟨hero, pos⟩ := Prod.mk.inj fields
    exact ⟨lineupInfo, found, by rw [hero]; rfl, pos⟩
  refine ⟨role, execution, fun orderly => ?_⟩
  have same := orderly.distinct 1 2 1 (stands 1 (by simp)) (stands 2 (by simp))
  cases same

end UEServer.Hero
