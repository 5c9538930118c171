import Mathlib.Data.List.InsertIdx
import UEServer.Arena.Challenge

/-!
# When the arena ranking is a bijection

The ranking stays a bijection exactly as long as no role is given its first rank while the
insertion of a chunk is under way: the second role would take the first entry of the new chunk.
-/

namespace UEServer.Arena

section
variable {state : State}

theorem beginLook_core (core : Core state) {uuid : Nat} (settled : Settled state uuid) :
    Core (state.beginLook uuid) := by
  refine { core with ranked := ?_, collected := ?_, lookers := ?_ }
  · exact { core.ranked with }
  · intro look looks entry mem
    rcases List.mem_cons.mp looks with rfl | before
    · cases mem
    · exact core.collected look before entry mem
  · intro look looks
    rcases List.mem_cons.mp looks with rfl | before
    · exact settled
    · exact core.lookers look before

theorem lookAt_core (core : Core state) {look : Look} (mem : look ∈ state.looks)
    (rank position : Nat) : Core (state.lookAt look rank position) := by
  unfold State.lookAt
  split
  · refine { core with ranked := ?_, collected := ?_, lookers := ?_ }
    · exact { core.ranked with }
    · intro other looks entry entry_mem
      exact core.collected other (List.mem_of_mem_erase looks) entry entry_mem
    · intro other looks
      exact core.lookers other (List.mem_of_mem_erase looks)
  · rename_i found_entry found
    refine { core with ranked := ?_, collected := ?_, lookers := ?_ }
    · exact { core.ranked with }
    · intro other looks entry entry_mem
      rcases List.mem_cons.mp looks with rfl | before
      · rcases List.eq_or_mem_of_mem_insertIdx entry_mem with rfl | old
        · exact core.settled_of_rankData found
        · exact core.collected look mem entry old
      · exact core.collected other (List.mem_of_mem_erase before) entry entry_mem
    · intro other looks
      rcases List.mem_cons.mp looks with rfl | before
      · exact core.lookers look mem
      · exact core.lookers other (List.mem_of_mem_erase before)

theorem show_core (core : Core state) {look : Look} (mem : look ∈ state.looks) :
    Core (state.show look) := by
  refine { core with
    ranked := ?_, shown := ?_, collected := ?_, looking := ?_, lookers := ?_ }
  · exact { core.ranked with }
  · intro uuid entry entry_mem
    simp only [State.show, Function.update_apply] at entry_mem
    split at entry_mem
    · exact core.collected look mem entry entry_mem
    · exact core.shown uuid entry entry_mem
  · intro other looks
    exact core.collected other (List.mem_of_mem_erase looks)
  · intro uuid rank old
    simp only [State.show, Function.update_apply] at old
    split at old
    · rename_i same
      rw [same]
      exact core.lookers look mem
    · exact core.looking uuid rank old
  · intro other looks
    exact core.lookers other (List.mem_of_mem_erase looks)

theorem setArenaInitRank_ordered (core : Core state) (alone : state.waiting = []) {uuid : Nat}
    (role : arenaRobotNum < uuid) (new : state.historyRank uuid = none) :
    Ordered (state.setArenaInitRank uuid) := by
  unfold State.setArenaInitRank
  dsimp only
  cases chunk : state.allRank (getRankStart (state.lastArenaRank + 1)) with
  | none =>
      have entered := enter_core core alone role new (.inr ⟨chunk, rfl⟩)
      have start := core.start_of_missing chunk
      have positive : 0 < state.lastArenaRank + 1 := by omega
      have first := (getRankStart_spec positive).1
      rw [start] at first
      refine ⟨?_, fun _ => first⟩
      simpa only [State.enter, alone] using entered
  | some roleList =>
      have entered := enter_core core alone role new (.inl chunk)
      have finished := finishInitRank_core entered rfl
      refine ⟨?_, fun waits => absurd alone waits⟩
      simpa only [State.enter, ← chunk, ← alone, Function.update_eq_self] using finished

/-- If no role enters while an insertion is under way, a step keeps the ranking in order. -/
theorem step_ordered {after : State} {label : Label} (ordered : Ordered state)
    (allowed : EntersAlone state label) (taken : step state label = some after) :
    Ordered after := by
  have core := ordered.toCore
  cases label with
  | getArenaInfo uuid =>
      simp only [step] at taken
      split at taken
      · rename_i role
        cases taken
        unfold State.getArenaInfo
        split
        · rename_i new
          exact setArenaInitRank_ordered core (allowed new) role new
        · rename_i best entered
          exact ⟨beginLook_core core (core.entered uuid best entered), ordered.creation⟩
      · cases taken
  | inserted waiting =>
      simp only [step] at taken
      split at taken
      · rename_i waits
        cases taken
        rcases core.entering with alone | ⟨uuid, roleList, one_waits, -⟩
        · rw [alone] at waits
          cases waits
        · cases List.mem_singleton.mp (one_waits ▸ waits)
          have done := finishInitRank_core core one_waits
          refine ⟨?_, fun still => ?_⟩
          · simpa [one_waits] using done
          · simp [State.finishInitRank, State.beginLook, State.insertInto, one_waits] at still
      · cases taken
  | look look rank position =>
      simp only [step] at taken
      split at taken
      · rename_i mem
        cases taken
        refine ⟨lookAt_core core mem.1 rank position, ?_⟩
        unfold State.lookAt
        split <;> exact ordered.creation
      · cases taken
  | «show» look =>
      simp only [step] at taken
      split at taken
      · rename_i mem
        cases taken
        exact ⟨show_core core mem, ordered.creation⟩
      · cases taken
  | challenge uuid fightUuid ready isWin =>
      simp only [step] at taken
      split at taken
      · cases taken
        obtain ⟨waiting, lastArenaRank⟩ := arenaChallenge_frame state uuid fightUuid ready isWin
        refine ⟨arenaChallenge_core core uuid fightUuid ready isWin, ?_⟩
        rw [waiting, lastArenaRank]
        exact ordered.creation
      · cases taken

/-- A role that enters while an insertion is under way breaks the ranking. -/
theorem not_ranked_of_not_alone {after : State} {label : Label} (ordered : Ordered state)
    (taken : step state label = some after) (ranked : Ranked after) :
    EntersAlone state label := by
  cases label with
  | getArenaInfo uuid =>
      intro new
      rcases ordered.entering with alone | ⟨other, roleList, waits, index, chunk, length⟩
      · exact alone
      · have first := ordered.creation (by simp [waits])
        have start : getRankStart state.lastArenaRank = state.lastArenaRank :=
          getRankStart_eq first (Nat.le_refl _) (by unfold roleListLen; omega)
        have next : getRankStart (state.lastArenaRank + 1) = state.lastArenaRank :=
          getRankStart_eq first (by omega) (by unfold roleListLen; omega)
        rw [start] at chunk length
        obtain rfl : roleList = [] := List.length_eq_zero_iff.mp (by omega)
        simp only [step] at taken
        split at taken
        · cases taken
          simp only [State.getArenaInfo, new, State.setArenaInitRank, next, chunk,
            State.finishInitRank, State.insertInto, State.beginLook] at ranked
          by_cases same : uuid = other
          · -- The first rank of the role is left without a holder.
            have positive := ((ordered.ranked.assigned _).mp ⟨other, index⟩).1
            obtain ⟨holder, held⟩ := (ranked.assigned state.lastArenaRank).mpr
              ⟨positive, Nat.le_succ _⟩
            have unique := ordered.ranked.unique other holder _ index
            grind
          · -- The entry of the role is the first of the chunk, not the second.
            have found := ranked.listed uuid (state.lastArenaRank + 1) (by simp)
              (by simpa [waits] using Ne.symm same)
            simp [State.getArenaRankData, next] at found
        · cases taken
  | inserted waiting => trivial
  | look look rank position => trivial
  | «show» look => trivial
  | challenge uuid fightUuid ready isWin => trivial

end

theorem robotList_getElem? {rankStart position : Nat} {entry : RoleData} :
    (robotList rankStart)[position]? = some entry ↔
      position < roleListLen ∧ rankStart + position ≤ arenaRobotNum ∧
        entry = { uuid := rankStart + position, rank := rankStart + position } := by
  unfold robotList roleListLen arenaRobotNum
  by_cases inside : position < min 1000 (3000 + 1 - rankStart)
  · rw [List.getElem?_map, List.getElem?_range' inside]
    simp only [Nat.one_mul, Option.map_some, Option.some.injEq]
    constructor
    · rintro rfl
      exact ⟨by omega, by omega, rfl⟩
    · rintro ⟨-, -, rfl⟩
      rfl
  · have outside : ((List.range' rankStart (min 1000 (3000 + 1 - rankStart))).map
        fun rank => ({ uuid := rank, rank } : RoleData)).length ≤ position := by
      rw [List.length_map, List.length_range']
      omega
    rw [List.getElem?_eq_none outside]
    constructor
    · intro absurd
      cases absurd
    · omega

theorem initial_ranked : Ranked initial := by
  constructor
  · intro rank
    simp only [initial]
    constructor
    · rintro ⟨uuid, index⟩
      split at index
      · rename_i robot
        cases index
        exact robot
      · cases index
    · intro robot
      exact ⟨rank, by rw [if_pos robot]⟩
  · intro uuid other rank index other_index
    simp only [initial] at index other_index
    split at index
    · split at other_index
      · exact (Option.some.inj other_index).trans (Option.some.inj index).symm
      · cases other_index
    · cases index
  · intro uuid rank index _
    simp only [initial] at index
    split at index
    · rename_i robot
      cases index
      obtain ⟨first, start_le, lt⟩ := getRankStart_spec robot.1
      refine State.getArenaRankData_eq_some.mpr ⟨robotList (getRankStart uuid), ?_, ?_⟩
      · exact if_pos ⟨first, by omega⟩
      · rw [robotList_getElem?, Nat.add_sub_cancel' start_le]
        exact ⟨by omega, robot.2, rfl⟩
    · cases index
  · intro rankStart roleList position entry chunk read
    simp only [initial] at chunk
    split at chunk
    · rename_i start
      cases chunk
      obtain ⟨-, assigned, rfl⟩ := robotList_getElem?.mp read
      have positive : 0 < rankStart + position := by
        unfold roleListLen at start
        omega
      exact ⟨rfl, if_pos ⟨positive, assigned⟩⟩
    · cases chunk

theorem initial_ordered : Ordered initial := by
  refine { ranked := initial_ranked, chunk := ?_, short := ?_, entering := .inl rfl,
           entered := ?_, known := ?_, shown := ?_, collected := ?_, looking := ?_,
           lookers := ?_, creation := fun waits => absurd rfl waits }
  · intro rankStart
    simp only [initial]
    split
    · rename_i start
      exact ⟨fun _ => start, fun _ => ⟨_, rfl⟩⟩
    · rename_i start
      refine ⟨?_, fun starts => absurd starts start⟩
      rintro ⟨roleList, chunk⟩
      cases chunk
  · intro rankStart roleList chunk
    simp only [initial] at chunk
    split at chunk
    · cases chunk
      rw [robotList, List.length_map, List.length_range']
      exact Nat.min_le_left _ _
    · cases chunk
  · intro uuid best entered
    cases entered
  · intro uuid rank index
    simp only [initial] at index
    split at index
    · rename_i robot
      exact .inl robot.2
    · cases index
  · intro uuid entry mem
    cases mem
  · intro look looks
    cases looks
  · intro uuid rank old
    cases old
  · intro look looks
    cases looks

/-- The ranking is a bijection throughout an execution exactly if no role enters while the
insertion of a chunk is under way, and a challenge exchanges the ranks of two roles or changes no
rank. -/
theorem arena_ranked_iff {labels : List Label} {state : State}
    (execution : Execution.run step initial labels = some state) :
    (Execution.Always step Ranked initial labels ↔
      Execution.Guarded step EntersAlone initial labels) ∧
    ∀ uuid fightUuid ready isWin after,
      step state (.challenge uuid fightUuid ready isWin) = some after →
      after.uuid2rank = state.uuid2rank ∨
        after.uuid2rank = Function.update
          (Function.update state.uuid2rank uuid (state.uuid2rank fightUuid))
          fightUuid (state.uuid2rank uuid) := by
  constructor
  · refine Execution.always_iff_guarded step_ordered ?_ execution initial_ordered initial_ranked
    intro before label after ordered _ taken
    exact ⟨not_ranked_of_not_alone ordered taken,
      fun alone => (step_ordered ordered alone taken).ranked⟩
  · intro uuid fightUuid ready isWin after taken
    simp only [step] at taken
    split at taken
    · cases taken
      exact arenaChallenge_uuid2rank state uuid fightUuid ready isWin
    · cases taken

/-- Two newcomers, the second after the insertion of the chunk. -/
theorem arena_ranked_iff_politeRun :
    Execution.Always step Ranked initial
      [.getArenaInfo 3001, .inserted { uuid := 3001, lastRank := 3001 }, .getArenaInfo 3002] :=
  (arena_ranked_iff rfl).1.mpr (by decide)

/-- Two newcomers, the second during the insertion of the chunk. -/
def crowdedRun : List Label :=
  [.getArenaInfo 3001, .getArenaInfo 3002, .inserted { uuid := 3001, lastRank := 3001 }]

/-- The newcomers are in each other's place. -/
theorem crowdedRun_not_ranked :
    ¬ ∀ (labels : List Label) (state : State),
      Execution.run step initial labels = some state → Ranked state := by
  intro claim
  have ends : ∃ state, Execution.run step initial crowdedRun = some state ∧
      state.waiting = [] ∧ state.uuid2rank 3001 = some 3001 ∧
      state.getArenaRankData 3001 = some { uuid := 3002, rank := 3002 } := by
    exact ⟨_, rfl, rfl, rfl, rfl⟩
  obtain ⟨state, execution, idle, index, found⟩ := ends
  have listed := (claim crowdedRun state execution).listed 3001 3001 index (by simp [idle])
  rw [found] at listed
  simp at listed

end UEServer.Arena
