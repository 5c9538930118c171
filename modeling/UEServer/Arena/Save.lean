import UEServer.Arena.Challenge

/-!
# The periodic save of the arena

`save_all_rank` writes the marked chunks and then forgets all marks.  Each write is a wait, during
which roles swap their ranks and newcomers enter.  The database acts in the order of the calls, so
a write counts from its call on.
-/

namespace UEServer.Arena

namespace State

/-- The swap that an `arena_challenge` makes, as the ranks of the two roles. -/
def challengeSwap (state : State) (uuid fightUuid : Nat) (ready isWin : Bool) :
    Option (Nat × Nat) :=
  if fightUuid = uuid then none
  else
    match state.getArenaFightRole uuid fightUuid, state.uuid2rank uuid with
    | some fightRole, some selfRank =>
        if state.uuid2rank fightUuid ≠ some fightRole.rank ∨
            state.oldRank uuid ≠ some selfRank then none
        else if fightRole.rank ≤ arenaTenRank ∧ arenaChallengeLimit < selfRank then none
        else if ready && isWin && decide (fightRole.rank < selfRank) then
          some (selfRank, fightRole.rank)
        else none
    | _, _ => none

/-- The chunks that `swap_arena_rank` marks; it marks none if it raises. -/
def swapMarks (state : State) (selfRank fightRank : Nat) : List Nat :=
  match state.getArenaRankData fightRank with
  | none => []
  | some fightEntry =>
      match (state.assign fightRank { fightEntry with rank := selfRank }).allRank
          (getRankStart selfRank) with
      | none => []
      | some _ => [getRankStart selfRank, getRankStart fightRank]

/-- The chunk that a stretch creates and inserts into the database. -/
def created (state : State) : Label → Option Nat
  | .getArenaInfo uuid =>
      match state.historyRank uuid, state.allRank (getRankStart (state.lastArenaRank + 1)) with
      | none, none => some (getRankStart (state.lastArenaRank + 1))
      | _, _ => none
  | _ => none

/-- The chunks that a stretch marks in `change_dict`. -/
def marks (state : State) : Label → List Nat
  | .getArenaInfo uuid =>
      match state.historyRank uuid, state.allRank (getRankStart (state.lastArenaRank + 1)) with
      | none, some _ => [getRankStart (state.lastArenaRank + 1)]
      | _, _ => []
  | .inserted waiting => [getRankStart waiting.lastRank]
  | .challenge uuid fightUuid ready isWin =>
      match state.challengeSwap uuid fightUuid ready isWin with
      | none => []
      | some (selfRank, fightRank) => state.swapMarks selfRank fightRank
  | .look _ _ _ | .show _ => []

end State

/-- A `save_all_rank` that waits for the write of a chunk. -/
structure Save where
  /-- The chunks that `pairs` has yet to reach, in its order. -/
  pending : List Nat
  /-- Whether a chunk was created since the save began. -/
  disturbed : Bool
  deriving DecidableEq

/-- The arena, its database copy and the saves that are running. -/
structure Saving where
  arena : State
  changeDict : Nat → Bool
  /-- The keys of `all_rank`. -/
  chunks : List Nat
  /-- The `role_list` of each row. -/
  database : Nat → Option (List RoleData)
  saves : List Save

/-- One uninterrupted stretch of execution, with the saves. -/
inductive SaveLabel where
  | arena (label : Label)
  /-- `swap_arena_rank` is called for two roles, as by a game master. -/
  | swap (selfUuid fightUuid : Nat)
  /-- `save_all_rank` is called; `pairs` will go through the chunks in the given order. -/
  | saveAllRank (order : List Nat)
  | written (save : Save)
  /-- After the creation of a chunk, `pairs` may go on through any chunks. -/
  | rehashed (save : Save) (order : List Nat)

namespace Saving

/-- A stretch of the arena changes the ranks, creates a chunk and marks chunks. -/
def change (state : Saving) (arena : State) (created : Option Nat) (marks : List Nat) : Saving where
  arena := arena
  changeDict rankStart := state.changeDict rankStart || decide (rankStart ∈ marks)
  chunks := state.chunks ++ created.toList
  database :=
    match created with
    | none => state.database
    | some rankStart => Function.update state.database rankStart (some [])
  saves :=
    match created with
    | none => state.saves
    | some _ => state.saves.map fun save => { save with disturbed := true }

/-- `save_all_rank` runs up to its next write, or to its end. -/
def advance (state : Saving) (save : Save) : Saving :=
  match save.pending.dropWhile fun rankStart => !state.changeDict rankStart with
  | [] => { state with changeDict := fun _ => false, saves := state.saves.erase save }
  | rankStart :: rest =>
      { state with
        database := Function.update state.database rankStart
          ((state.database rankStart).bind fun _ => state.arena.allRank rankStart)
        saves := { save with pending := rest } :: state.saves.erase save }

/-- The chunks that `swap_arena_rank` marks for two roles. -/
def swapMarks (state : Saving) (selfUuid fightUuid : Nat) : List Nat :=
  match state.arena.uuid2rank selfUuid, state.arena.uuid2rank fightUuid with
  | some selfRank, some fightRank => state.arena.swapMarks selfRank fightRank
  | _, _ => []

/-- One stretch of execution, if it is possible. -/
def step (state : Saving) : SaveLabel → Option Saving
  | .arena label =>
      (Arena.step state.arena label).map fun arena =>
        state.change arena (state.arena.created label) (state.arena.marks label)
  | .swap selfUuid fightUuid =>
      match state.arena.uuid2rank selfUuid, state.arena.uuid2rank fightUuid with
      | some selfRank, some fightRank =>
          some (state.change (state.arena.swapArenaRank selfUuid fightUuid selfRank fightRank)
            none (state.swapMarks selfUuid fightUuid))
      | _, _ => none
  | .saveAllRank order =>
      if order.Perm state.chunks then
        let save : Save := { pending := order, disturbed := false }
        some ({ state with saves := save :: state.saves }.advance save)
      else none
  | .written save => if save ∈ state.saves then some (state.advance save) else none
  | .rehashed save order =>
      if save ∈ state.saves ∧ save.disturbed ∧ ∀ rankStart ∈ order, rankStart ∈ state.chunks then
        some { state with saves := { save with pending := order } :: state.saves.erase save }
      else none

/-- The arena as `init` creates it. -/
def initial : Saving where
  arena := Arena.initial
  changeDict _ := false
  chunks := [1, 1001, 2001]
  database := Arena.initial.allRank
  saves := []

/-- If no save is running, every chunk that differs from its database copy is marked. -/
def Marked (state : Saving) : Prop :=
  state.saves = [] → ∀ rankStart, state.arena.allRank rankStart ≠ state.database rankStart →
    state.changeDict rankStart = true

/-- If no save is running, a save with nothing else running ends, and then the database equals the
arena. -/
def Savable (state : Saving) : Prop :=
  state.saves = [] → ∀ order, order.Perm state.chunks →
    ∃ labels final, (∀ label ∈ labels, ∃ save, label = SaveLabel.written save) ∧
      Execution.run step state (.saveAllRank order :: labels) = some final ∧
      final.saves = [] ∧ final.arena = state.arena ∧ final.database = final.arena.allRank

/-- Every running save will still reach the chunks that are changed, and no chunk is created. -/
def Ahead (state : Saving) (created : Option Nat) (marks : List Nat) : Prop :=
  ∀ save ∈ state.saves, created = none ∧ ∀ rankStart ∈ marks, rankStart ∈ save.pending

/-- A save starts alone, and while it runs only chunks that it has yet to reach change. -/
def ChangesAhead (state : Saving) : SaveLabel → Prop
  | .arena label => state.Ahead (state.arena.created label) (state.arena.marks label)
  | .swap selfUuid fightUuid => state.Ahead none (state.swapMarks selfUuid fightUuid)
  | .saveAllRank _ => state.saves = []
  | .written _ | .rehashed _ _ => True

instance (state : Saving) (created : Option Nat) (marks : List Nat) :
    Decidable (state.Ahead created marks) := inferInstanceAs
  (Decidable (∀ save ∈ state.saves, created = none ∧ ∀ rankStart ∈ marks,
    rankStart ∈ save.pending))

instance (state : Saving) : (label : SaveLabel) → Decidable (ChangesAhead state label)
  | .arena label => inferInstanceAs
      (Decidable (state.Ahead (state.arena.created label) (state.arena.marks label)))
  | .swap selfUuid fightUuid => inferInstanceAs
      (Decidable (state.Ahead none (state.swapMarks selfUuid fightUuid)))
  | .saveAllRank _ => inferInstanceAs (Decidable (state.saves = []))
  | .written _ | .rehashed _ _ => isTrue trivial

end Saving

def Housed (state : State) : Prop :=
  ∀ uuid rank, state.uuid2rank uuid = some rank →
    (state.allRank (getRankStart rank)).isSome = true

/-- A stretch changes the marked chunks and the chunk that it creates, and no other. -/
structure Touched (before after : State) (created : Option Nat) (marks : List Nat) : Prop where
  kept : ∀ rankStart, rankStart ∉ marks → created ≠ some rankStart →
    after.allRank rankStart = before.allRank rankStart
  fresh : ∀ rankStart, created = some rankStart →
    before.allRank rankStart = none ∧ after.allRank rankStart = some []
  present : ∀ rankStart, created ≠ some rankStart →
    (after.allRank rankStart).isSome = (before.allRank rankStart).isSome
  housed : Housed before → Housed after

section
variable {state after : State}

theorem State.assign_allRank_apply (rank : Nat) (entry : RoleData) (rankStart : Nat) :
    (state.assign rank entry).allRank rankStart =
      if rankStart = getRankStart rank then
        (state.allRank rankStart).map fun roleList =>
          State.assignAt roleList (rank - getRankStart rank) entry
      else state.allRank rankStart := by
  change Function.update state.allRank (getRankStart rank) _ rankStart = _
  rw [Function.update_apply]
  split
  · rename_i same
    rw [same]
  · rfl

theorem State.assign_present (rank : Nat) (entry : RoleData) (rankStart : Nat) :
    ((state.assign rank entry).allRank rankStart).isSome =
      (state.allRank rankStart).isSome := by
  rw [State.assign_allRank_apply]
  split
  · rw [Option.isSome_map]
  · rfl

theorem Touched.of_same {marks : List Nat} (allRank : after.allRank = state.allRank)
    (index : after.uuid2rank = state.uuid2rank) : Touched state after none marks := by
  refine ⟨?_, ?_, ?_, ?_⟩
  · intro rankStart _ _
    rw [allRank]
  · intro rankStart created
    cases created
  · intro rankStart _
    rw [allRank]
  · intro housed uuid rank ranked
    rw [allRank]
    rw [index] at ranked
    exact housed uuid rank ranked

theorem Touched.trans {last : State} {marks : List Nat}
    (first : Touched state after none marks) (second : Touched after last none marks) :
    Touched state last none marks := by
  refine ⟨?_, ?_, ?_, ?_⟩
  · intro rankStart unmarked other
    rw [second.kept rankStart unmarked other, first.kept rankStart unmarked other]
  · intro rankStart created
    cases created
  · intro rankStart other
    rw [second.present rankStart other, first.present rankStart other]
  · exact fun housed => second.housed (first.housed housed)

theorem assign_touched (rank : Nat) (entry : RoleData) {marks : List Nat}
    (marked : getRankStart rank ∈ marks) : Touched state (state.assign rank entry) none marks := by
  refine ⟨?_, ?_, ?_, ?_⟩
  · intro rankStart unmarked _
    rw [State.assign_allRank_apply, if_neg]
    rintro rfl
    exact unmarked marked
  · intro rankStart created
    cases created
  · intro rankStart _
    exact State.assign_present rank entry rankStart
  · intro housed uuid other ranked
    rw [State.assign_present]
    exact housed uuid other ranked

theorem swap_touched {selfUuid fightUuid selfRank fightRank : Nat} (housed : Housed state)
    (self_index : state.uuid2rank selfUuid = some selfRank)
    (fight_index : state.uuid2rank fightUuid = some fightRank) :
    Touched state (state.swapArenaRank selfUuid fightUuid selfRank fightRank) none
      (state.swapMarks selfRank fightRank) := by
  have self_housed := housed selfUuid selfRank self_index
  have fight_housed := housed fightUuid fightRank fight_index
  have indexed : Touched state (state.swapIndex selfUuid fightUuid selfRank fightRank) none
      (state.swapMarks selfRank fightRank) := by
    refine ⟨fun _ _ _ => rfl, fun _ created => (by cases created), fun _ _ => rfl, ?_⟩
    intro _ uuid rank ranked
    simp only [State.swapIndex, Function.update_apply] at ranked ⊢
    split at ranked
    · cases ranked
      exact self_housed
    · split at ranked
      · cases ranked
        exact fight_housed
      · exact housed uuid rank ranked
  refine indexed.trans ?_
  unfold State.swapArenaRank
  set swapped := state.swapIndex selfUuid fightUuid selfRank fightRank
  cases found : state.getArenaRankData fightRank with
  | none =>
      have unchanged : swapped.swapEntries selfUuid selfRank fightRank = swapped := by
        have none_found : swapped.getArenaRankData fightRank = none := found
        rw [State.swapEntries, none_found]
      rw [unchanged]
      exact .of_same rfl rfl
  | some fightEntry =>
      let fightData : RoleData := { fightEntry with rank := selfRank }
      have chunk : ∃ roleList,
          (state.assign fightRank fightData).allRank (getRankStart selfRank) = some roleList := by
        apply Option.isSome_iff_exists.mp
        rw [State.assign_present]
        exact self_housed
      obtain ⟨roleList, chunk⟩ := chunk
      have marks : state.swapMarks selfRank fightRank =
          [getRankStart selfRank, getRankStart fightRank] := by
        rw [State.swapMarks, found]
        change (match (state.assign fightRank fightData).allRank (getRankStart selfRank) with
          | none => _ | some _ => _) = _
        rw [chunk]
      have entries : swapped.swapEntries selfUuid selfRank fightRank =
          ((swapped.assign fightRank fightData).assign selfRank fightData).assign fightRank
            { uuid := selfUuid, rank := fightRank } := by
        have swapped_found : swapped.getArenaRankData fightRank = some fightEntry := found
        have swapped_chunk : (swapped.assign fightRank fightData).allRank
            (getRankStart selfRank) = some roleList := chunk
        rw [State.swapEntries, swapped_found]
        change (match (swapped.assign fightRank fightData).allRank (getRankStart selfRank) with
          | none => _ | some _ => _) = _
        rw [swapped_chunk]
      rw [marks, entries]
      have self_marked : getRankStart selfRank ∈
          [getRankStart selfRank, getRankStart fightRank] := List.mem_cons_self
      have fight_marked : getRankStart fightRank ∈
          [getRankStart selfRank, getRankStart fightRank] :=
        List.mem_cons_of_mem _ List.mem_cons_self
      exact ((assign_touched fightRank _ fight_marked).trans
        (assign_touched selfRank _ self_marked)).trans (assign_touched fightRank _ fight_marked)

theorem arenaChallenge_eq (state : State) (uuid fightUuid : Nat) (ready isWin : Bool) :
    state.arenaChallenge uuid fightUuid ready isWin =
      match state.challengeSwap uuid fightUuid ready isWin with
      | none => state
      | some (selfRank, fightRank) =>
          (state.swapArenaRank uuid fightUuid selfRank fightRank).improve uuid fightRank := by
  unfold State.arenaChallenge State.challengeSwap
  split
  · rfl
  · cases state.getArenaFightRole uuid fightUuid with
    | none => rfl
    | some fightRole =>
        cases state.uuid2rank uuid with
        | none => rfl
        | some selfRank =>
            dsimp only
            split
            · rfl
            · split
              · rfl
              · split <;> rfl

theorem challengeSwap_ranked {uuid fightUuid selfRank fightRank : Nat} {ready isWin : Bool}
    (swap : state.challengeSwap uuid fightUuid ready isWin = some (selfRank, fightRank)) :
    state.uuid2rank uuid = some selfRank ∧ state.uuid2rank fightUuid = some fightRank := by
  unfold State.challengeSwap at swap
  split at swap
  · cases swap
  · split at swap
    · rename_i fightRole rank _ self_index
      split at swap
      · cases swap
      · rename_i current
        split at swap
        · cases swap
        · split at swap
          · cases swap
            refine ⟨self_index, ?_⟩
            by_contra changed
            exact current (.inl changed)
          · cases swap
    · cases swap

theorem improve_allRank (state : State) (uuid rank : Nat) :
    (state.improve uuid rank).allRank = state.allRank := by
  unfold State.improve
  split
  · rfl
  · split <;> rfl

/-- The end of `set_arena_init_rank` touches the chunk of the last rank. -/
theorem finishInitRank_touched (state : State) (uuid lastRank : Nat) :
    Touched state (state.finishInitRank uuid lastRank) none [getRankStart lastRank] := by
  have allRank : ∀ rankStart, (state.finishInitRank uuid lastRank).allRank rankStart =
      if rankStart = getRankStart lastRank then
        (state.allRank rankStart).map fun roleList => roleList ++ [{ uuid, rank := lastRank }]
      else state.allRank rankStart := by
    intro rankStart
    simp only [State.finishInitRank, State.beginLook, State.insertInto, Function.update_apply]
    split
    · rename_i same
      rw [same]
    · rfl
  have present : ∀ rankStart, ((state.finishInitRank uuid lastRank).allRank rankStart).isSome =
      (state.allRank rankStart).isSome := by
    intro rankStart
    rw [allRank]
    split
    · rw [Option.isSome_map]
    · rfl
  refine ⟨?_, ?_, fun rankStart _ => present rankStart, ?_⟩
  · intro rankStart unmarked _
    rw [allRank, if_neg]
    rintro rfl
    exact unmarked List.mem_cons_self
  · intro rankStart created
    cases created
  · intro housed other rank ranked
    rw [present]
    exact housed other rank ranked

theorem beginLook_touched (state : State) (uuid : Nat) (marks : List Nat) :
    Touched state (state.beginLook uuid) none marks :=
  .of_same rfl rfl

/-- The first stretch of `get_arena_info` creates the chunk of the next rank or adds to it. -/
theorem getArenaInfo_touched (state : State) (uuid : Nat) :
    Touched state (state.getArenaInfo uuid) (state.created (.getArenaInfo uuid))
      (state.marks (.getArenaInfo uuid)) := by
  simp only [State.getArenaInfo, State.created, State.marks]
  cases history : state.historyRank uuid with
  | some best => exact beginLook_touched state uuid []
  | none =>
      unfold State.setArenaInitRank
      dsimp only
      set start := getRankStart (state.lastArenaRank + 1)
      cases chunk : state.allRank start with
      | none =>
          have allRank : ∀ rankStart, Function.update state.allRank start (some []) rankStart =
              if rankStart = start then some [] else state.allRank rankStart :=
            fun rankStart => Function.update_apply ..
          refine ⟨?_, ?_, ?_, ?_⟩
          · intro rankStart _ other
            refine (allRank rankStart).trans (if_neg ?_)
            rintro rfl
            exact other rfl
          · intro rankStart created
            cases created
            exact ⟨chunk, Function.update_self ..⟩
          · intro rankStart other
            refine congrArg Option.isSome ((allRank rankStart).trans (if_neg ?_))
            rintro rfl
            exact other rfl
          · intro housed other rank ranked
            simp only [Function.update_apply] at ranked ⊢
            split
            · rfl
            · rename_i elsewhere
              split at ranked
              · cases ranked
                exact absurd rfl elsewhere
              · exact housed other rank ranked
      | some roleList =>
          have ranked : Touched state
              { state with
                lastArenaRank := state.lastArenaRank + 1
                uuid2rank := Function.update state.uuid2rank uuid
                  (some (state.lastArenaRank + 1)) } none [start] := by
            refine ⟨fun _ _ _ => rfl, fun _ created => (by cases created), fun _ _ => rfl, ?_⟩
            intro housed other rank ranked
            simp only [Function.update_apply] at ranked ⊢
            split at ranked
            · cases ranked
              exact Option.isSome_iff_exists.mpr ⟨roleList, chunk⟩
            · exact housed other rank ranked
          exact ranked.trans (finishInitRank_touched _ uuid (state.lastArenaRank + 1))

theorem step_touched {label : Label} (housed : Housed state)
    (taken : step state label = some after) :
    Touched state after (state.created label) (state.marks label) := by
  cases label with
  | getArenaInfo uuid =>
      simp only [step] at taken
      split at taken
      · cases taken
        exact getArenaInfo_touched state uuid
      · cases taken
  | inserted waiting =>
      simp only [step] at taken
      split at taken
      · cases taken
        have dropped : Touched state { state with waiting := state.waiting.erase waiting } none
            [getRankStart waiting.lastRank] := .of_same rfl rfl
        exact dropped.trans (finishInitRank_touched _ waiting.uuid waiting.lastRank)
      · cases taken
  | look look rank position =>
      simp only [step] at taken
      split at taken
      · cases taken
        unfold State.lookAt
        split <;> exact .of_same rfl rfl
      · cases taken
  | «show» look =>
      simp only [step] at taken
      split at taken
      · cases taken
        exact .of_same rfl rfl
      · cases taken
  | challenge uuid fightUuid ready isWin =>
      simp only [step] at taken
      split at taken
      · cases taken
        rw [arenaChallenge_eq]
        simp only [State.marks, State.created]
        cases swap : state.challengeSwap uuid fightUuid ready isWin with
        | none => exact .of_same rfl rfl
        | some ranks =>
            obtain ⟨self_index, fight_index⟩ := challengeSwap_ranked swap
            have swapped := swap_touched housed self_index fight_index
            exact swapped.trans (.of_same (improve_allRank ..) (improve_uuid2rank ..))
      · cases taken

end

end UEServer.Arena
