import UEServer.Library.Execution

/-!
# Arena ranks

`service/agent/arena_utils.lua` and the requests of `meta_table/arena.lua` that use it.  The first
ranks belong to robots.  A uuid is given by its number; those of robots are at most
`arenaRobotNum`.  A request is interrupted where it waits for the database.
-/

namespace UEServer.Arena

def roleListLen : Nat := 1000

def arenaRobotNum : Nat := 3000

def arenaTenRank : Nat := 10

def arenaChallengeLimit : Nat := 20

/-- `get_rank_start`, for a positive rank. -/
def getRankStart (rank : Nat) : Nat :=
  if rank % roleListLen = 0 then (rank / roleListLen - 1) * roleListLen + 1
  else rank / roleListLen * roleListLen + 1

/-- An entry of a `role_list`. -/
structure RoleData where
  uuid : Nat
  rank : Nat
  deriving DecidableEq

/-- A `set_arena_init_rank` that waits for the insertion of its chunk. -/
structure Waiting where
  uuid : Nat
  lastRank : Nat
  deriving DecidableEq

/-- A `get_arena_info` that collects the roles it will show. -/
structure Look where
  uuid : Nat
  selfRank : Option Nat
  roleList : List RoleData
  deriving DecidableEq

/-- The arena and what its roles remember. -/
structure State where
  lastArenaRank : Nat
  uuid2rank : Nat → Option Nat
  allRank : Nat → Option (List RoleData)
  /-- `arena.history_rank` of each role. -/
  historyRank : Nat → Option Nat
  /-- `fight_role_list` of each role. -/
  fightRoleList : Nat → List RoleData
  /-- `old_rank` of each role. -/
  oldRank : Nat → Option Nat
  /-- Requests that wait in `set_arena_init_rank`. -/
  waiting : List Waiting
  /-- Requests that collect the roles they will show. -/
  looks : List Look

/-- One uninterrupted stretch of execution. -/
inductive Label where
  | getArenaInfo (uuid : Nat)
  | inserted (waiting : Waiting)
  /-- A `get_arena_info` reads the role at a rank, which it shows at a position. -/
  | look (look : Look) (rank position : Nat)
  | show (look : Look)
  /-- `arena_challenge` is called. `ready` says that the role has a lineup and enough vitality. -/
  | challenge (uuid fightUuid : Nat) (ready isWin : Bool)

namespace State

def getArenaRankData (state : State) (rank : Nat) : Option RoleData :=
  (state.allRank (getRankStart rank)).bind fun roleList => roleList[rank - getRankStart rank]?

/-- `role_list[position + 1] = entry`, at an entry or after the last one. -/
def assignAt (roleList : List RoleData) (position : Nat) (entry : RoleData) : List RoleData :=
  if position < roleList.length then roleList.set position entry else roleList ++ [entry]

/-- Put an entry at a rank of the chunk that holds it. -/
def assign (state : State) (rank : Nat) (entry : RoleData) : State :=
  let rankStart := getRankStart rank
  { state with
    allRank := Function.update state.allRank rankStart
      ((state.allRank rankStart).map fun roleList =>
        assignAt roleList (rank - rankStart) entry) }

/-- `table.insert` into a chunk. -/
def insertInto (state : State) (rankStart : Nat) (entry : RoleData) : State :=
  { state with
    allRank := Function.update state.allRank rankStart
      ((state.allRank rankStart).map fun roleList => roleList ++ [entry]) }

/-- The rest of `get_arena_info` once the role has a rank. -/
def beginLook (state : State) (uuid : Nat) : State :=
  { state with
    looks := { uuid, selfRank := state.uuid2rank uuid, roleList := [] } :: state.looks }

/-- The end of `set_arena_init_rank`, and of the initialisation in `get_arena_info`. -/
def finishInitRank (state : State) (uuid lastRank : Nat) : State :=
  let inserted := state.insertInto (getRankStart lastRank) { uuid, rank := lastRank }
  beginLook
    { inserted with
      historyRank := Function.update inserted.historyRank uuid (some lastRank) }
    uuid

/-- `set_arena_init_rank`, up to its end or the wait for the insertion of a new chunk. -/
def setArenaInitRank (state : State) (uuid : Nat) : State :=
  let lastRank := state.lastArenaRank + 1
  let ranked :=
    { state with
      lastArenaRank := lastRank
      uuid2rank := Function.update state.uuid2rank uuid (some lastRank) }
  match ranked.allRank (getRankStart lastRank) with
  | none =>
      { ranked with
        allRank := Function.update ranked.allRank (getRankStart lastRank) (some [])
        waiting := { uuid, lastRank } :: ranked.waiting }
  | some _ => ranked.finishInitRank uuid lastRank

/-- `get_arena_info`, up to its first wait. -/
def getArenaInfo (state : State) (uuid : Nat) : State :=
  match state.historyRank uuid with
  | none => state.setArenaInitRank uuid
  | some _ => state.beginLook uuid

/-- `get_arena_info` reads the role at a rank; a missing entry raises. -/
def lookAt (state : State) (look : Look) (rank position : Nat) : State :=
  let looks := state.looks.erase look
  match state.getArenaRankData rank with
  | none => { state with looks := looks }
  | some entry =>
      { state with
        looks := { look with roleList := look.roleList.insertIdx position entry } :: looks }

/-- `get_arena_info` returns. -/
def «show» (state : State) (look : Look) : State :=
  { state with
    fightRoleList := Function.update state.fightRoleList look.uuid look.roleList
    oldRank := Function.update state.oldRank look.uuid look.selfRank
    looks := state.looks.erase look }

/-- `swap_arena_rank` on the index. -/
def swapIndex (state : State) (selfUuid fightUuid selfRank fightRank : Nat) : State :=
  { state with
    uuid2rank := Function.update (Function.update state.uuid2rank selfUuid (some fightRank))
      fightUuid (some selfRank) }

/-- `swap_arena_rank` on the chunks; a missing entry or chunk raises, and what was changed before
stays. -/
def swapEntries (state : State) (selfUuid selfRank fightRank : Nat) : State :=
  match state.getArenaRankData fightRank with
  | none => state
  | some fightEntry =>
      let fightData := { fightEntry with rank := selfRank }
      let moved := state.assign fightRank fightData
      match moved.allRank (getRankStart selfRank) with
      | none => moved
      | some _ =>
          (moved.assign selfRank fightData).assign fightRank { uuid := selfUuid, rank := fightRank }

def swapArenaRank (state : State) (selfUuid fightUuid selfRank fightRank : Nat) : State :=
  (state.swapIndex selfUuid fightUuid selfRank fightRank).swapEntries selfUuid selfRank fightRank

def getArenaFightRole (state : State) (uuid fightUuid : Nat) : Option RoleData :=
  (state.fightRoleList uuid).find? fun roleData => roleData.uuid = fightUuid

def improve (state : State) (uuid rank : Nat) : State :=
  match state.historyRank uuid with
  | none => state
  | some oldRank =>
      if rank < oldRank then
        { state with historyRank := Function.update state.historyRank uuid (some rank) }
      else state

def arenaChallenge (state : State) (uuid fightUuid : Nat) (ready isWin : Bool) : State :=
  if fightUuid = uuid then state
  else
    match state.getArenaFightRole uuid fightUuid, state.uuid2rank uuid with
    | some fightRole, some selfRank =>
        if state.uuid2rank fightUuid ≠ some fightRole.rank ∨
            state.oldRank uuid ≠ some selfRank then state
        else if fightRole.rank ≤ arenaTenRank ∧ arenaChallengeLimit < selfRank then state
        else if ready && isWin && decide (fightRole.rank < selfRank) then
          (state.swapArenaRank uuid fightUuid selfRank fightRole.rank).improve uuid fightRole.rank
        else state
    | _, _ => state

end State

/-- One stretch of execution, if it is possible. -/
def step (state : State) : Label → Option State
  | .getArenaInfo uuid =>
      if arenaRobotNum < uuid then some (state.getArenaInfo uuid) else none
  | .inserted waiting =>
      if waiting ∈ state.waiting then
        some
          (State.finishInitRank { state with waiting := state.waiting.erase waiting }
            waiting.uuid waiting.lastRank)
      else none
  | .look look rank position =>
      if look ∈ state.looks ∧ 0 < rank then some (state.lookAt look rank position) else none
  | .show look => if look ∈ state.looks then some (state.show look) else none
  | .challenge uuid fightUuid ready isWin =>
      if arenaRobotNum < uuid then some (state.arenaChallenge uuid fightUuid ready isWin)
      else none

/-- The chunk of robots that starts at a rank. -/
def robotList (rankStart : Nat) : List RoleData :=
  (List.range' rankStart (min roleListLen (arenaRobotNum + 1 - rankStart))).map fun rank =>
    { uuid := rank, rank := rank }

/-- The arena that `init` creates and `start` loads. -/
def initial : State where
  lastArenaRank := arenaRobotNum
  uuid2rank uuid := if 0 < uuid ∧ uuid ≤ arenaRobotNum then some uuid else none
  allRank rankStart :=
    if rankStart % roleListLen = 1 ∧ rankStart ≤ arenaRobotNum then some (robotList rankStart)
    else none
  historyRank _ := none
  fightRoleList _ := []
  oldRank _ := none
  waiting := []
  looks := []

/-- The ranking is a bijection.  A role that is still inside `set_arena_init_rank` has a rank but
no entry yet. -/
structure Ranked (state : State) : Prop where
  /-- The assigned ranks are those from the first to `last_arena_rank`. -/
  assigned : ∀ rank, (∃ uuid, state.uuid2rank uuid = some rank) ↔
    0 < rank ∧ rank ≤ state.lastArenaRank
  unique : ∀ uuid other rank, state.uuid2rank uuid = some rank →
    state.uuid2rank other = some rank → other = uuid
  /-- The entry at a rank is the role that the index has there. -/
  listed : ∀ uuid rank, state.uuid2rank uuid = some rank →
    (∀ waiting ∈ state.waiting, waiting.uuid ≠ uuid) →
    state.getArenaRankData rank = some { uuid, rank }
  indexed : ∀ rankStart roleList position entry, state.allRank rankStart = some roleList →
    roleList[position]? = some entry →
    entry.rank = rankStart + position ∧ state.uuid2rank entry.uuid = some entry.rank

/-- No role is given its first rank while the insertion of a chunk is under way. -/
def EntersAlone (state : State) : Label → Prop
  | .getArenaInfo uuid => state.historyRank uuid = none → state.waiting = []
  | _ => True

instance (state : State) : (label : Label) → Decidable (EntersAlone state label)
  | .getArenaInfo uuid => inferInstanceAs
      (Decidable (state.historyRank uuid = none → state.waiting = []))
  | .inserted _ | .look _ _ _ | .show _ | .challenge _ _ _ _ => isTrue trivial

end UEServer.Arena
