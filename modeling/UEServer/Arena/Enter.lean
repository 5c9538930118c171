import UEServer.Arena.Rank

/-!
# A role enters the arena

The invariant of the executions in which no role is given its first rank while the insertion of a
chunk is under way, and the two halves of `set_arena_init_rank`.
-/

namespace UEServer.Arena

theorem getRankStart_spec {rank : Nat} (positive : 0 < rank) :
    getRankStart rank % roleListLen = 1 ∧ getRankStart rank ≤ rank ∧
      rank < getRankStart rank + roleListLen := by
  unfold getRankStart roleListLen
  split <;> omega

theorem getRankStart_eq {rank rankStart : Nat} (start : rankStart % roleListLen = 1)
    (le : rankStart ≤ rank) (lt : rank < rankStart + roleListLen) :
    getRankStart rank = rankStart := by
  have positive : 0 < rank := by
    unfold roleListLen at start
    omega
  have := getRankStart_spec positive
  unfold roleListLen at *
  omega

theorem eq_of_position_eq {rank other : Nat} (positive : 0 < rank) (other_positive : 0 < other)
    (start : getRankStart rank = getRankStart other)
    (position : rank - getRankStart rank = other - getRankStart other) : rank = other := by
  have := getRankStart_spec positive
  have := getRankStart_spec other_positive
  omega

/-- The role has a rank, and its entry is in the chunk. -/
def Settled (state : State) (uuid : Nat) : Prop :=
  (∃ rank, state.uuid2rank uuid = some rank) ∧
    ∀ waiting ∈ state.waiting, waiting.uuid ≠ uuid

/-- What holds in an execution in which roles enter alone, also in the middle of a stretch. -/
structure Core (state : State) : Prop where
  ranked : Ranked state
  chunk : ∀ rankStart, (∃ roleList, state.allRank rankStart = some roleList) ↔
    rankStart % roleListLen = 1 ∧ rankStart ≤ state.lastArenaRank
  /-- A chunk has at most `roleListLen` entries. -/
  short : ∀ rankStart roleList, state.allRank rankStart = some roleList →
    roleList.length ≤ roleListLen
  /-- At most one role is entering. It has the last rank, and the chunk ends before its entry. -/
  entering : state.waiting = [] ∨
    ∃ uuid roleList, state.waiting = [{ uuid, lastRank := state.lastArenaRank }] ∧
      state.uuid2rank uuid = some state.lastArenaRank ∧
      state.allRank (getRankStart state.lastArenaRank) = some roleList ∧
      roleList.length = state.lastArenaRank - getRankStart state.lastArenaRank
  entered : ∀ uuid best, state.historyRank uuid = some best → Settled state uuid
  /-- A ranked uuid is a robot or a role that has entered or is entering. -/
  known : ∀ uuid rank, state.uuid2rank uuid = some rank → uuid ≤ arenaRobotNum ∨
    (∃ best, state.historyRank uuid = some best) ∨ ∃ waiting ∈ state.waiting, waiting.uuid = uuid
  shown : ∀ uuid, ∀ entry ∈ state.fightRoleList uuid, Settled state entry.uuid
  collected : ∀ look ∈ state.looks, ∀ entry ∈ look.roleList, Settled state entry.uuid
  looking : ∀ uuid rank, state.oldRank uuid = some rank → Settled state uuid
  lookers : ∀ look ∈ state.looks, Settled state look.uuid

/-- What holds in an execution in which roles enter alone: a role waits only if its rank is the
first of its chunk. -/
structure Ordered (state : State) : Prop extends Core state where
  /-- The insertion that is under way is that of the chunk of the last rank. -/
  creation : state.waiting ≠ [] → state.lastArenaRank % roleListLen = 1

section
variable {state : State}

variable {entry : RoleData}

theorem State.getArenaRankData_eq_some {rank : Nat} :
    state.getArenaRankData rank = some entry ↔
      ∃ roleList, state.allRank (getRankStart rank) = some roleList ∧
        roleList[rank - getRankStart rank]? = some entry := by
  rw [State.getArenaRankData, Option.bind_eq_some_iff]

variable {roleList : List RoleData}

section
variable (core : Core state)
include core

theorem Core.place_of_entry {rankStart position : Nat}
    (chunk : state.allRank rankStart = some roleList) (read : roleList[position]? = some entry) :
    getRankStart entry.rank = rankStart ∧ entry.rank = rankStart + position ∧
      state.uuid2rank entry.uuid = some entry.rank := by
  obtain ⟨rank, index⟩ := core.ranked.indexed _ _ _ _ chunk read
  have start := ((core.chunk rankStart).mp ⟨roleList, chunk⟩).1
  have short := core.short _ _ chunk
  have inside := (List.getElem?_eq_some_iff.mp read).1
  refine ⟨?_, rank, index⟩
  exact getRankStart_eq start (by omega) (by omega)

theorem Core.settled_of_entry {rankStart position : Nat}
    (chunk : state.allRank rankStart = some roleList) (read : roleList[position]? = some entry) :
    Settled state entry.uuid := by
  obtain ⟨start, rank, index⟩ := core.place_of_entry chunk read
  refine ⟨⟨entry.rank, index⟩, fun waiting waits same => ?_⟩
  rcases core.entering with none_waits | ⟨uuid, missing, one_waits, last, last_chunk, ends⟩
  · rw [none_waits] at waits
    cases waits
  · rw [one_waits, List.mem_singleton] at waits
    subst waits
    have entry_last : entry.rank = state.lastArenaRank := by
      rw [← same, last] at index
      exact (Option.some.inj index).symm
    rw [entry_last] at start rank
    subst start
    cases chunk.symm.trans last_chunk
    have inside := (List.getElem?_eq_some_iff.mp read).1
    omega

theorem Core.settled_of_rankData {rank : Nat} (found : state.getArenaRankData rank = some entry) :
    Settled state entry.uuid := by
  obtain ⟨roleList, chunk, read⟩ := State.getArenaRankData_eq_some.mp found
  exact core.settled_of_entry chunk read

/-- If no role is entering, the chunk of the next rank ends before its entry. -/
theorem Core.length_of_next (alone : state.waiting = [])
    (chunk : state.allRank (getRankStart (state.lastArenaRank + 1)) = some roleList) :
    roleList.length = state.lastArenaRank + 1 - getRankStart (state.lastArenaRank + 1) := by
  obtain ⟨start, assigned⟩ := (core.chunk _).mp ⟨roleList, chunk⟩
  have next_positive : 0 < state.lastArenaRank + 1 := by omega
  obtain ⟨-, start_le, lt⟩ := getRankStart_spec next_positive
  have same : getRankStart state.lastArenaRank = getRankStart (state.lastArenaRank + 1) :=
    getRankStart_eq start assigned (by omega)
  have positive : 0 < state.lastArenaRank := by
    unfold roleListLen at start
    omega
  obtain ⟨uuid, index⟩ := (core.ranked.assigned state.lastArenaRank).mpr ⟨positive, Nat.le_refl _⟩
  have found := core.ranked.listed uuid _ index (by simp [alone])
  obtain ⟨other, other_chunk, read⟩ := State.getArenaRankData_eq_some.mp found
  rw [same, chunk] at other_chunk
  cases other_chunk
  have inside := (List.getElem?_eq_some_iff.mp read).1
  generalize position : state.lastArenaRank + 1 - getRankStart (state.lastArenaRank + 1) = next
  have ends : roleList[next]? = none := by
    cases beyond : roleList[next]? with
    | none => rfl
    | some entry =>
        obtain ⟨-, rank, indexed⟩ := core.place_of_entry chunk beyond
        have := ((core.ranked.assigned entry.rank).mp ⟨entry.uuid, indexed⟩).2
        omega
  rw [List.getElem?_eq_none_iff] at ends
  omega

/-- A role has been given the next rank, and has no entry yet in the chunk of it. -/
def State.enter (state : State) (uuid : Nat) (roleList : List RoleData) : State :=
  { state with
    lastArenaRank := state.lastArenaRank + 1
    uuid2rank := Function.update state.uuid2rank uuid (some (state.lastArenaRank + 1))
    allRank := Function.update state.allRank (getRankStart (state.lastArenaRank + 1))
      (some roleList)
    waiting := [{ uuid, lastRank := state.lastArenaRank + 1 }] }

/-- The chunk of the next rank, or an empty one if it is missing. -/
def NextChunk (state : State) (roleList : List RoleData) : Prop :=
  state.allRank (getRankStart (state.lastArenaRank + 1)) = some roleList ∨
    state.allRank (getRankStart (state.lastArenaRank + 1)) = none ∧ roleList = []

omit core in
theorem Settled.enter {uuid other : Nat} (settled : Settled state other)
    (different : other ≠ uuid) : Settled (state.enter uuid roleList) other := by
  obtain ⟨⟨rank, index⟩, -⟩ := settled
  refine ⟨⟨rank, by simpa [State.enter, different] using index⟩, fun waiting waits => ?_⟩
  rw [List.mem_singleton.mp waits]
  exact different.symm

theorem Core.start_of_missing
    (missing : state.allRank (getRankStart (state.lastArenaRank + 1)) = none) :
    getRankStart (state.lastArenaRank + 1) = state.lastArenaRank + 1 := by
  have positive : 0 < state.lastArenaRank + 1 := by omega
  obtain ⟨start, start_le, -⟩ := getRankStart_spec positive
  have absent := (core.chunk (getRankStart (state.lastArenaRank + 1))).mpr.mt (by simp [missing])
  omega

theorem enter_core (alone : state.waiting = []) {uuid : Nat} (role : arenaRobotNum < uuid)
    (new : state.historyRank uuid = none) (next : NextChunk state roleList) :
    Core (state.enter uuid roleList) := by
  have unranked : state.uuid2rank uuid = none := by
    cases index : state.uuid2rank uuid with
    | none => rfl
    | some rank =>
        rcases core.known uuid rank index with robot | ⟨best, entered⟩ | ⟨waiting, waits, -⟩
        · omega
        · rw [new] at entered
          cases entered
        · rw [alone] at waits
          cases waits
  have different : ∀ {other}, Settled state other → other ≠ uuid := by
    rintro other ⟨⟨rank, index⟩, -⟩ rfl
    rw [unranked] at index
    cases index
  have positive : 0 < state.lastArenaRank + 1 := by omega
  obtain ⟨start, start_le, start_lt⟩ := getRankStart_spec positive
  have length : roleList.length =
      state.lastArenaRank + 1 - getRankStart (state.lastArenaRank + 1) := by
    rcases next with chunk | ⟨none, rfl⟩
    · exact core.length_of_next alone chunk
    · rw [core.start_of_missing none]
      simp
  have kept : ∀ {rankStart position : Nat} {list : List RoleData} {entry : RoleData},
      (state.enter uuid roleList).allRank rankStart = some list →
      list[position]? = some entry →
      ∃ before, state.allRank rankStart = some before ∧ before[position]? = some entry := by
    intro rankStart position list entry chunk read
    by_cases same : rankStart = getRankStart (state.lastArenaRank + 1)
    · subst same
      obtain rfl : roleList = list := by simpa [State.enter] using chunk
      rcases next with before | ⟨none, rfl⟩
      · exact ⟨roleList, before, read⟩
      · cases read
    · exact ⟨list, by simpa [State.enter, same] using chunk, read⟩
  constructor
  case ranked =>
    constructor
    · intro rank
      have assigned := core.ranked.assigned rank
      simp only [State.enter, Function.update_apply]
      grind
    · intro one other rank one_rank other_rank
      have bound : ∀ {member}, state.uuid2rank member ≠ some (state.lastArenaRank + 1) := by
        intro member index
        have := ((core.ranked.assigned _).mp ⟨member, index⟩).2
        omega
      have unique := core.ranked.unique one other rank
      simp only [State.enter, Function.update_apply] at one_rank other_rank
      grind
    · intro other rank index settled
      have other_ne : other ≠ uuid := fun same => settled _ List.mem_cons_self same.symm
      have before : state.uuid2rank other = some rank := by
        simpa [State.enter, other_ne] using index
      have found := core.ranked.listed other rank before (by simp [alone])
      obtain ⟨list, chunk, read⟩ := State.getArenaRankData_eq_some.mp found
      refine State.getArenaRankData_eq_some.mpr ⟨list, ?_, read⟩
      simp only [State.enter, Function.update_apply]
      split
      · rename_i same
        rcases next with chunk' | ⟨none, -⟩
        · rw [← same, chunk] at chunk'
          exact chunk'.symm
        · rw [← same, chunk] at none
          cases none
      · exact chunk
    · intro rankStart list position entry chunk read
      obtain ⟨before, before_chunk, before_read⟩ := kept chunk read
      obtain ⟨-, rank, index⟩ := core.place_of_entry before_chunk before_read
      refine ⟨rank, ?_⟩
      have entry_ne := different (core.settled_of_entry before_chunk before_read)
      simpa [State.enter, entry_ne] using index
  case chunk =>
    intro rankStart
    have before := core.chunk rankStart
    simp only [State.enter, Function.update_apply]
    split
    · rename_i same
      subst same
      simp [start, start_le]
    · rw [before]
      refine ⟨fun ⟨first, le⟩ => ⟨first, by omega⟩, fun ⟨first, le⟩ => ⟨first, ?_⟩⟩
      have := getRankStart_eq first (Nat.le_refl rankStart) (by omega)
      grind
  case short =>
    intro rankStart list chunk
    simp only [State.enter, Function.update_apply] at chunk
    split at chunk
    · cases chunk
      omega
    · exact core.short rankStart list chunk
  case entering =>
    exact .inr ⟨uuid, roleList, rfl, by simp [State.enter], by simp [State.enter], length⟩
  case entered =>
    intro other best entered
    have settled := core.entered other best entered
    exact settled.enter (different settled)
  case known =>
    intro other rank index
    by_cases same : other = uuid
    · exact .inr (.inr ⟨_, List.mem_cons_self, same.symm⟩)
    · have before : state.uuid2rank other = some rank := by
        simpa [State.enter, same] using index
      rcases core.known other rank before with robot | entered | ⟨waiting, waits, -⟩
      · exact .inl robot
      · exact .inr (.inl entered)
      · rw [alone] at waits
        cases waits
  case shown =>
    intro other entry mem
    have settled := core.shown other entry mem
    exact settled.enter (different settled)
  case collected =>
    intro look looks entry mem
    have settled := core.collected look looks entry mem
    exact settled.enter (different settled)
  case looking =>
    intro other rank old
    have settled := core.looking other rank old
    exact settled.enter (different settled)
  case lookers =>
    intro look looks
    have settled := core.lookers look looks
    exact settled.enter (different settled)

theorem finishInitRank_core {uuid : Nat}
    (waits : state.waiting = [{ uuid, lastRank := state.lastArenaRank }]) :
    Core (State.finishInitRank { state with waiting := [] } uuid state.lastArenaRank) := by
  obtain ⟨roleList, index, chunk, length⟩ : ∃ roleList,
      state.uuid2rank uuid = some state.lastArenaRank ∧
        state.allRank (getRankStart state.lastArenaRank) = some roleList ∧
        roleList.length = state.lastArenaRank - getRankStart state.lastArenaRank := by
    rcases core.entering with alone | ⟨other, roleList, one_waits, rest⟩
    · rw [alone] at waits
      cases waits
    · rw [one_waits] at waits
      obtain rfl : other = uuid := by simpa using waits
      exact ⟨roleList, rest⟩
  obtain ⟨start, start_le, start_lt⟩ :=
    getRankStart_spec ((core.ranked.assigned _).mp ⟨uuid, index⟩).1
  have allRank : (State.finishInitRank { state with waiting := [] } uuid
      state.lastArenaRank).allRank =
      Function.update state.allRank (getRankStart state.lastArenaRank)
        (some (roleList ++ [{ uuid, rank := state.lastArenaRank }])) := by
    simp [State.finishInitRank, State.beginLook, State.insertInto, chunk]
  have settled : ∀ {other}, Settled state other → Settled (State.finishInitRank
      { state with waiting := [] } uuid state.lastArenaRank) other := by
    rintro other ⟨ranked, -⟩
    exact ⟨ranked, fun waiting none => by cases none⟩
  have self_settled : Settled (State.finishInitRank
      { state with waiting := [] } uuid state.lastArenaRank) uuid :=
    ⟨⟨state.lastArenaRank, index⟩, fun waiting none => by cases none⟩
  constructor
  case ranked =>
    refine ⟨core.ranked.assigned, core.ranked.unique, ?_, ?_⟩
    · intro other rank other_index _
      rw [State.getArenaRankData_eq_some, allRank]
      by_cases same : other = uuid
      · subst same
        cases index.symm.trans other_index
        exact ⟨_, Function.update_self .., by simp [← length]⟩
      · have found := core.ranked.listed other rank other_index (by simpa [waits] using Ne.symm same)
        obtain ⟨list, list_chunk, read⟩ := State.getArenaRankData_eq_some.mp found
        rw [Function.update_apply]
        split
        · rename_i shared
          rw [shared, chunk] at list_chunk
          cases list_chunk
          refine ⟨_, rfl, ?_⟩
          rw [List.getElem?_append_left (List.getElem?_eq_some_iff.mp read).1]
          exact read
        · exact ⟨list, list_chunk, read⟩
    · intro rankStart list position entry list_chunk read
      rw [allRank, Function.update_apply] at list_chunk
      split at list_chunk
      · rename_i shared
        subst shared
        cases list_chunk
        rw [List.getElem?_append] at read
        split at read
        · exact core.ranked.indexed _ _ _ _ chunk read
        · obtain ⟨rfl, position_zero⟩ : entry = { uuid, rank := state.lastArenaRank } ∧
              position - roleList.length = 0 := by
            cases offset : position - roleList.length with
            | zero =>
                rw [offset] at read
                exact ⟨(Option.some.inj read).symm, rfl⟩
            | succ offset' =>
                rw [offset] at read
                cases read
          exact ⟨by simp only; omega, index⟩
      · exact core.ranked.indexed _ _ _ _ list_chunk read
  case chunk =>
    intro rankStart
    rw [allRank, Function.update_apply]
    split
    · rename_i shared
      subst shared
      exact ⟨fun _ => ⟨start, start_le⟩, fun _ => ⟨_, rfl⟩⟩
    · exact core.chunk rankStart
  case short =>
    intro rankStart list list_chunk
    rw [allRank, Function.update_apply] at list_chunk
    split at list_chunk
    · cases list_chunk
      rw [List.length_append, List.length_singleton]
      omega
    · exact core.short rankStart list list_chunk
  case entering => exact .inl rfl
  case entered =>
    intro other best entered
    by_cases same : other = uuid
    · rw [same]
      exact self_settled
    · refine settled (core.entered other best ?_)
      simpa [State.finishInitRank, State.beginLook, State.insertInto, same] using entered
  case known =>
    intro other rank other_index
    rcases core.known other rank other_index with robot | ⟨best, entered⟩ | ⟨waiting, one, same⟩
    · exact .inl robot
    · simp only [State.finishInitRank, State.beginLook, State.insertInto, Function.update_apply]
      grind
    · rw [waits, List.mem_singleton] at one
      subst one
      simp [State.finishInitRank, State.beginLook, State.insertInto, ← same]
  case shown => exact fun other entry mem => settled (core.shown other entry mem)
  case collected =>
    intro look looks entry mem
    rcases List.mem_cons.mp looks with rfl | before
    · cases mem
    · exact settled (core.collected look before entry mem)
  case looking => exact fun other rank old => settled (core.looking other rank old)
  case lookers =>
    intro look looks
    rcases List.mem_cons.mp looks with rfl | before
    · exact self_settled
    · exact settled (core.lookers look before)

end

end

end UEServer.Arena
