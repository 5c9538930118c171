import UEServer.Arena.Enter

/-!
# A challenge in the arena

`swap_arena_rank` exchanges two entries, which may be in different chunks, and `arena_challenge`
calls it only for two roles that have their entries.
-/

namespace UEServer.Arena

section
variable {state : State}

def State.shape (state : State) (rankStart : Nat) : Option Nat :=
  (state.allRank rankStart).map List.length

theorem State.assign_allRank {rank : Nat} {before : RoleData} (entry : RoleData)
    (found : state.getArenaRankData rank = some before) :
    ∃ roleList, state.allRank (getRankStart rank) = some roleList ∧
      rank - getRankStart rank < roleList.length ∧
      (state.assign rank entry).allRank = Function.update state.allRank (getRankStart rank)
        (some (roleList.set (rank - getRankStart rank) entry)) := by
  obtain ⟨roleList, chunk, read⟩ := State.getArenaRankData_eq_some.mp found
  have inside := (List.getElem?_eq_some_iff.mp read).1
  exact ⟨roleList, chunk, inside, by simp [State.assign, State.assignAt, chunk, inside]⟩

theorem State.assign_shape {rank : Nat} {before entry : RoleData}
    (found : state.getArenaRankData rank = some before) :
    (state.assign rank entry).shape = state.shape := by
  obtain ⟨roleList, chunk, -, allRank⟩ := State.assign_allRank entry found
  funext rankStart
  rw [State.shape, allRank, Function.update_apply]
  split
  · rename_i same
    simp [State.shape, same, chunk]
  · rfl

theorem State.assign_getArenaRankData {rank other : Nat} {before entry : RoleData}
    (positive : 0 < rank) (other_positive : 0 < other)
    (found : state.getArenaRankData rank = some before) :
    (state.assign rank entry).getArenaRankData other =
      if other = rank then some entry else state.getArenaRankData other := by
  obtain ⟨roleList, chunk, inside, allRank⟩ := State.assign_allRank entry found
  unfold State.getArenaRankData
  rw [allRank, Function.update_apply]
  by_cases same : other = rank
  · subst same
    simp [inside]
  · split
    · rename_i shared
      have position : rank - getRankStart rank ≠ other - getRankStart other := by
        intro equal
        exact same (eq_of_position_eq other_positive positive shared equal.symm)
      rw [shared] at position ⊢
      simp [chunk, List.getElem?_set_ne position]
    · rfl

theorem swapEntries_spec {uuid fightUuid selfRank fightRank : Nat}
    (self_positive : 0 < selfRank) (fight_positive : 0 < fightRank)
    (self_found : state.getArenaRankData selfRank = some { uuid, rank := selfRank })
    (fight_found : state.getArenaRankData fightRank = some { uuid := fightUuid, rank := fightRank }) :
    (state.swapEntries uuid selfRank fightRank).shape = state.shape ∧
      ∀ rank, 0 < rank →
        (state.swapEntries uuid selfRank fightRank).getArenaRankData rank =
          if rank = fightRank then some { uuid, rank := fightRank }
          else if rank = selfRank then some { uuid := fightUuid, rank := selfRank }
          else state.getArenaRankData rank := by
  let fightData : RoleData := { uuid := fightUuid, rank := selfRank }
  let moved := state.assign fightRank fightData
  have moved_data : ∀ rank, 0 < rank → moved.getArenaRankData rank =
      if rank = fightRank then some fightData else state.getArenaRankData rank :=
    fun rank positive => State.assign_getArenaRankData fight_positive positive fight_found
  obtain ⟨selfEntry, self_read⟩ : ∃ entry, moved.getArenaRankData selfRank = some entry := by
    rw [moved_data selfRank self_positive]
    split
    · exact ⟨_, rfl⟩
    · exact ⟨_, self_found⟩
  have placed_data : ∀ rank, 0 < rank → (moved.assign selfRank fightData).getArenaRankData rank =
      if rank = selfRank then some fightData else moved.getArenaRankData rank :=
    fun rank positive => State.assign_getArenaRankData self_positive positive self_read
  obtain ⟨fightEntry, placed_read⟩ : ∃ entry,
      (moved.assign selfRank fightData).getArenaRankData fightRank = some entry := by
    rw [placed_data fightRank fight_positive, moved_data fightRank fight_positive, if_pos rfl]
    split <;> exact ⟨_, rfl⟩
  have swapped : state.swapEntries uuid selfRank fightRank =
      (moved.assign selfRank fightData).assign fightRank { uuid, rank := fightRank } := by
    obtain ⟨roleList, chunk, -⟩ := State.getArenaRankData_eq_some.mp self_read
    unfold State.swapEntries
    rw [fight_found]
    dsimp only
    rw [chunk]
  rw [swapped]
  constructor
  · rw [State.assign_shape placed_read, State.assign_shape self_read,
      State.assign_shape fight_found]
  · intro rank positive
    rw [State.assign_getArenaRankData fight_positive positive placed_read,
      placed_data rank positive, moved_data rank positive]
    split
    · rfl
    · split <;> rfl

theorem swapArenaRank_frame (state : State) (uuid fightUuid selfRank fightRank : Nat) :
    ∃ allRank, state.swapArenaRank uuid fightUuid selfRank fightRank =
      { state.swapIndex uuid fightUuid selfRank fightRank with allRank := allRank } := by
  unfold State.swapArenaRank State.swapEntries
  split
  · exact ⟨_, rfl⟩
  · dsimp only
    split <;> exact ⟨_, rfl⟩

theorem swap_core (core : Core state) {uuid fightUuid selfRank fightRank : Nat}
    (different : fightUuid ≠ uuid) (self_settled : Settled state uuid)
    (fight_settled : Settled state fightUuid) (self_index : state.uuid2rank uuid = some selfRank)
    (fight_index : state.uuid2rank fightUuid = some fightRank) :
    Core (state.swapArenaRank uuid fightUuid selfRank fightRank) := by
  have self_positive := ((core.ranked.assigned _).mp ⟨uuid, self_index⟩).1
  have fight_positive := ((core.ranked.assigned _).mp ⟨fightUuid, fight_index⟩).1
  have self_found := core.ranked.listed uuid _ self_index self_settled.2
  have fight_found := core.ranked.listed fightUuid _ fight_index fight_settled.2
  have apart : fightRank ≠ selfRank := by
    rintro rfl
    exact different (core.ranked.unique _ _ _ self_index fight_index)
  let indexed := state.swapIndex uuid fightUuid selfRank fightRank
  obtain ⟨shape, found⟩ : (state.swapArenaRank uuid fightUuid selfRank fightRank).shape =
      state.shape ∧ ∀ rank, 0 < rank →
        (state.swapArenaRank uuid fightUuid selfRank fightRank).getArenaRankData rank =
          if rank = fightRank then some { uuid, rank := fightRank }
          else if rank = selfRank then some { uuid := fightUuid, rank := selfRank }
          else state.getArenaRankData rank := by
    have self_read : indexed.getArenaRankData selfRank = some { uuid, rank := selfRank } :=
      self_found
    have fight_read : indexed.getArenaRankData fightRank =
        some { uuid := fightUuid, rank := fightRank } := fight_found
    exact swapEntries_spec self_positive fight_positive self_read fight_read
  obtain ⟨allRank, swapped⟩ := swapArenaRank_frame state uuid fightUuid selfRank fightRank
  rw [swapped] at shape found ⊢
  have lists : ∀ {rankStart list}, allRank rankStart = some list →
      ∃ before, state.allRank rankStart = some before ∧ list.length = before.length := by
    intro rankStart list chunk
    have lengths := congrFun shape rankStart
    simp only [State.shape, chunk, Option.map_some] at lengths
    obtain ⟨before, before_chunk, length⟩ := Option.map_eq_some_iff.mp lengths.symm
    exact ⟨before, before_chunk, length.symm⟩
  have settled : ∀ {other}, Settled state other → Settled
      { state.swapIndex uuid fightUuid selfRank fightRank with allRank := allRank } other := by
    rintro other ⟨⟨rank, index⟩, waits⟩
    refine ⟨?_, waits⟩
    simp only [State.swapIndex, Function.update_apply]
    split
    · exact ⟨_, rfl⟩
    · split
      · exact ⟨_, rfl⟩
      · exact ⟨rank, index⟩
  have ranked_before : ∀ {other rank}, (Function.update (Function.update state.uuid2rank uuid
      (some fightRank)) fightUuid (some selfRank)) other = some rank →
      ∃ before, state.uuid2rank other = some before := by
    grind
  constructor
  case ranked =>
    constructor
    · intro rank
      refine Iff.trans ?_ (core.ranked.assigned rank)
      simp only [State.swapIndex, Function.update_apply]
      constructor
      · grind
      · rintro ⟨other, index⟩
        by_cases self : rank = selfRank
        · exact ⟨fightUuid, by simp [self]⟩
        · by_cases fight : rank = fightRank
          · exact ⟨uuid, by simp [fight, different.symm]⟩
          · exact ⟨other, by grind⟩
    · intro one other rank one_rank other_rank
      have unique := core.ranked.unique
      simp only [State.swapIndex, Function.update_apply] at one_rank other_rank
      grind
    · intro other rank index waits
      have positive : 0 < rank := by
        simp only [State.swapIndex, Function.update_apply] at index
        have assigned := core.ranked.assigned rank
        grind
      rw [found rank positive]
      simp only [State.swapIndex, Function.update_apply] at index
      have unique := core.ranked.unique other
      split at index
      · cases index
        rename_i same
        rw [if_neg apart.symm, if_pos rfl, same]
      · split at index
        · cases index
          rename_i same
          rw [if_pos rfl, same]
        · rw [if_neg (by grind), if_neg (by grind)]
          exact core.ranked.listed other rank index waits
    · intro rankStart list position entry chunk read
      change allRank rankStart = some list at chunk
      obtain ⟨before, before_chunk, length⟩ := lists chunk
      have start := ((core.chunk rankStart).mp ⟨before, before_chunk⟩).1
      have short := core.short _ _ before_chunk
      have inside := (List.getElem?_eq_some_iff.mp read).1
      have place : getRankStart (rankStart + position) = rankStart :=
        getRankStart_eq start (by omega) (by omega)
      have positive : 0 < rankStart + position := by
        unfold roleListLen at start
        omega
      have data := found (rankStart + position) positive
      rw [State.getArenaRankData, place, Nat.add_sub_cancel_left] at data
      change (allRank rankStart).bind _ = _ at data
      rw [chunk, Option.bind_some, read] at data
      split at data
      · rename_i fight
        cases data
        exact ⟨fight.symm, by simp [State.swapIndex, different.symm]⟩
      · split at data
        · rename_i self
          cases data
          exact ⟨self.symm, by simp [State.swapIndex]⟩
        · obtain ⟨old, old_chunk, old_read⟩ := State.getArenaRankData_eq_some.mp data.symm
          obtain ⟨-, rank, index⟩ := core.place_of_entry old_chunk old_read
          simp only [State.swapIndex, Function.update_apply]
          grind
  case chunk =>
    intro rankStart
    have lengths := congrFun shape rankStart
    refine Iff.trans ⟨?_, ?_⟩ (core.chunk rankStart)
    · rintro ⟨list, chunk⟩
      obtain ⟨before, before_chunk, -⟩ := lists chunk
      exact ⟨before, before_chunk⟩
    · rintro ⟨list, chunk⟩
      rw [State.shape, State.shape, chunk, Option.map_some] at lengths
      obtain ⟨after, after_chunk, -⟩ := Option.map_eq_some_iff.mp lengths
      exact ⟨after, after_chunk⟩
  case short =>
    intro rankStart list chunk
    obtain ⟨before, before_chunk, length⟩ := lists chunk
    rw [length]
    exact core.short rankStart before before_chunk
  case entering =>
    rcases core.entering with alone | ⟨other, roleList, waits, index, chunk, length⟩
    · exact .inl alone
    · have other_ne : other ≠ uuid ∧ other ≠ fightUuid := by
        constructor
        · exact self_settled.2 _ (by rw [waits]; exact List.mem_cons_self)
        · exact fight_settled.2 _ (by rw [waits]; exact List.mem_cons_self)
      have lengths := congrFun shape (getRankStart state.lastArenaRank)
      rw [State.shape, State.shape, chunk, Option.map_some] at lengths
      obtain ⟨after, after_chunk, after_length⟩ := Option.map_eq_some_iff.mp lengths
      refine .inr ⟨other, after, waits, ?_, after_chunk, after_length.trans length⟩
      simpa [State.swapIndex, other_ne] using index
  case entered => exact fun other best entered => settled (core.entered other best entered)
  case known =>
    intro other rank index
    obtain ⟨before, before_index⟩ := ranked_before index
    exact core.known other before before_index
  case shown => exact fun other entry mem => settled (core.shown other entry mem)
  case collected =>
    exact fun look looks entry mem => settled (core.collected look looks entry mem)
  case looking => exact fun other rank old => settled (core.looking other rank old)
  case lookers => exact fun look looks => settled (core.lookers look looks)

theorem improve_uuid2rank (state : State) (uuid rank : Nat) :
    (state.improve uuid rank).uuid2rank = state.uuid2rank := by
  unfold State.improve
  split
  · rfl
  · split <;> rfl

/-- A challenge exchanges the ranks of the two roles, or changes no rank. -/
theorem arenaChallenge_uuid2rank (state : State) (uuid fightUuid : Nat) (ready isWin : Bool) :
    (state.arenaChallenge uuid fightUuid ready isWin).uuid2rank = state.uuid2rank ∨
      (state.arenaChallenge uuid fightUuid ready isWin).uuid2rank =
        Function.update (Function.update state.uuid2rank uuid (state.uuid2rank fightUuid))
          fightUuid (state.uuid2rank uuid) := by
  unfold State.arenaChallenge
  split
  · exact .inl rfl
  · split
    · rename_i fightRole selfRank shown self_index
      split
      · exact .inl rfl
      · rename_i current
        split
        · exact .inl rfl
        · split
          · have fight_index : state.uuid2rank fightUuid = some fightRole.rank := by
              by_contra changed
              exact current (.inl changed)
            obtain ⟨allRank, swapped⟩ :=
              swapArenaRank_frame state uuid fightUuid selfRank fightRole.rank
            rw [improve_uuid2rank, swapped, self_index, fight_index]
            exact .inr rfl
          · exact .inl rfl
    · exact .inl rfl

theorem arenaChallenge_frame (state : State) (uuid fightUuid : Nat) (ready isWin : Bool) :
    (state.arenaChallenge uuid fightUuid ready isWin).waiting = state.waiting ∧
      (state.arenaChallenge uuid fightUuid ready isWin).lastArenaRank = state.lastArenaRank := by
  unfold State.arenaChallenge
  split
  · exact ⟨rfl, rfl⟩
  · split
    · rename_i fightRole selfRank _ _
      split
      · exact ⟨rfl, rfl⟩
      · split
        · exact ⟨rfl, rfl⟩
        · split
          · obtain ⟨allRank, swapped⟩ :=
              swapArenaRank_frame state uuid fightUuid selfRank fightRole.rank
            rw [swapped]
            unfold State.improve
            split
            · exact ⟨rfl, rfl⟩
            · split <;> exact ⟨rfl, rfl⟩
          · exact ⟨rfl, rfl⟩
    · exact ⟨rfl, rfl⟩

theorem improve_core (core : Core state) {uuid : Nat} (rank : Nat) (settled : Settled state uuid) :
    Core (state.improve uuid rank) := by
  unfold State.improve
  split
  · exact core
  · split
    · refine { core with ranked := ?_, entered := ?_, known := ?_ }
      · exact { core.ranked with }
      · intro other best other_entered
        simp only [Function.update_apply] at other_entered
        split at other_entered
        · rename_i same
          rw [same]
          exact settled
        · exact core.entered other best other_entered
      · intro other known_rank index
        have before := core.known other known_rank index
        grind
    · exact core

theorem arenaChallenge_core (core : Core state) (uuid fightUuid : Nat) (ready isWin : Bool) :
    Core (state.arenaChallenge uuid fightUuid ready isWin) := by
  unfold State.arenaChallenge
  split
  · exact core
  · rename_i different
    split
    · rename_i fightRole selfRank shown self_index
      split
      · exact core
      · rename_i current
        split
        · exact core
        · split
          · have fight_index : state.uuid2rank fightUuid = some fightRole.rank := by
              by_contra changed
              exact current (.inl changed)
            have old_rank : state.oldRank uuid = some selfRank := by
              by_contra changed
              exact current (.inr changed)
            have self_settled := core.looking uuid selfRank old_rank
            have fight_settled : Settled state fightUuid := by
              have mem := List.mem_of_find?_eq_some shown
              have same : fightRole.uuid = fightUuid := by
                simpa using List.find?_some shown
              exact same ▸ core.shown uuid fightRole mem
            refine improve_core
              (swap_core core different self_settled fight_settled self_index fight_index) _ ?_
            obtain ⟨allRank, swapped⟩ :=
              swapArenaRank_frame state uuid fightUuid selfRank fightRole.rank
            rw [swapped]
            refine ⟨⟨fightRole.rank, ?_⟩, self_settled.2⟩
            simp [State.swapIndex, Ne.symm different]
          · exact core
    · exact core

end

end UEServer.Arena
