import UEServer.Train.Stars

/-!
# Runs of a trial

The accounts are right as long as every layer that ends has a reward and every automatic selection stops
at an attribute that can be paid.
-/

namespace UEServer.Train

open Execution

section
variable {config : TrainConfig} {trial next : Trial}

variable {ids : List ℕ}

theorem TrainConfig.Draws.ne_nil (draws : config.Draws ids) : ids ≠ [] := by
  rintro rfl
  have length := List.Forall₂.length_eq draws
  rw [config.three] at length
  cases length

theorem winStage_won (sound : Sound config trial) (open_ : trial.train.addAttrIdList = [])
    {difficulty : ℕ} {autoSelect : Bool} (draws : config.Draws ids)
    (steady : config.VictorySteady trial.train difficulty autoSelect ids) :
    Won config trial autoSelect (config.trainChallengeVictory trial.train difficulty autoSelect ids)
      (config.winStage trial difficulty autoSelect ids) := by
  rw [TrainConfig.winStage, TrainConfig.trainChallengeVictory, TrainConfig.layerOf]
  cases found : config.stage trial.train.currStage with
  | none =>
      have won := won_of_raised sound open_ autoSelect false 0
      exact won
  | some data =>
      dsimp only [Option.map_some, Option.getD_some]
      cases stars : data.starNum difficulty with
      | none => exact won_of_raised sound open_ autoSelect _ data.layer
      | some starNum =>
          obtain ⟨-, stage, -, -⟩ := record_same trial.train (difficulty = data.starNumList.length)
          have stage' : ((trial.train.record (difficulty = data.starNumList.length)).addStars
              starNum).currStage = trial.train.currStage := stage
          dsimp only
          rw [stage']
          split
          · rename_i last
            obtain ⟨enough, affordable⟩ := steady data found starNum stars last
            exact won_of_last sound open_ _ draws.ne_nil found last enough affordable
          · rename_i more
            exact won_of_more sound open_ autoSelect _ found more

/-- What holds during a loop. -/
def LoopSound (config : TrainConfig) (train : TrainDb) : Option Loop → Prop
  | none => True
  | some (.quick _ stages) => ∃ layer, (∀ stage ∈ stages, stage ∈ config.stageList layer) ∧
      (train.addAttrIdList = [] ∧ (∀ data ∈ config.stage train.currStage, data.layer = layer) ∨
        ∀ stage ∈ stages, stage < train.currStage)
  | some (.sweep _) => train.addAttrIdList = []

def Kept (config : TrainConfig) (trial : Trial) : Prop :=
  Sound config trial ∧ LoopSound config trial.train trial.loop

theorem Sound.of_loop (sound : Sound config trial) (loop : Option Loop) :
    Sound config { trial with loop := loop } :=
  ⟨sound.accounts, sound.layered, sound.rewards⟩

section
variable (kept : Kept config trial)
include kept

theorem turn_quick {difficulty : ℕ} {stages : List ℕ} (draws : config.Draws ids)
    (loop : trial.loop = some (.quick difficulty stages))
    (steady : config.TurnSteady trial.train ids (.quick difficulty stages)) :
    Kept config (config.turn trial ids (.quick difficulty stages)) := by
  obtain ⟨sound, loopSound⟩ := kept
  rw [loop] at loopSound
  obtain ⟨layer, inside, progress⟩ := loopSound
  cases stages with
  | nil => exact ⟨sound.of_loop none, trivial⟩
  | cons stage stages =>
      have inside' : ∀ other ∈ stages, other ∈ config.stageList layer :=
        fun other mem => inside other (List.mem_cons_of_mem _ mem)
      rw [TrainConfig.turn]
      split
      · refine ⟨sound.of_loop _, layer, inside', progress.imp id fun before other mem => ?_⟩
        exact before other (List.mem_cons_of_mem _ mem)
      · rename_i reached
        -- the stages that are left are not all behind, so the layer is still played
        obtain ⟨open_, same⟩ := progress.resolve_right fun before => reached (before stage (by simp))
        have won := winStage_won sound open_ draws (steady (not_lt.mp reached))
        refine ⟨won.sound.of_loop _, ?_⟩
        rw [Loop.after]
        split
        · rename_i goes
          refine ⟨layer, inside', ?_⟩
          obtain ⟨data, found⟩ : ∃ data, config.stage trial.train.currStage = some data := by
            rw [← Option.ne_none_iff_exists']
            intro none
            rw [TrainConfig.trainChallengeVictory, none] at goes
            cases goes
          obtain ⟨moved, ⟨open_, stays⟩ | last⟩ := won.moved goes data found
          · exact .inl ⟨open_, fun later found' => (stays later found').trans (same data found)⟩
          · right
            intro other mem
            rw [same data found] at last
            have le := le_of_getLast last (inside' other mem)
            exact lt_of_le_of_lt le (moved ▸ Nat.lt_succ_self _)
        · trivial

theorem turn_sweep {turns : ℕ} (draws : config.Draws ids) (loop : trial.loop = some (.sweep turns))
    (steady : config.TurnSteady trial.train ids (.sweep turns)) :
    Kept config (config.turn trial ids (.sweep turns)) := by
  obtain ⟨sound, open_⟩ := kept
  rw [loop] at open_
  cases turns with
  | zero => exact ⟨sound.of_loop none, trivial⟩
  | succ turns =>
      rw [TrainConfig.turn]
      split
      · exact ⟨sound.of_loop none, trivial⟩
      · rename_i data found
        have won := winStage_won sound open_ draws (steady data found)
        refine ⟨won.sound.of_loop _, ?_⟩
        rw [Loop.after]
        split
        · exact won.auto rfl
        · trivial

theorem trainChallengeStage_kept (idle : trial.loop = none) {difficulty : ℤ} {isWin : Bool}
    (draws : config.Draws ids) (steady : config.Steady trial (.challenge difficulty isWin ids)) :
    Kept config (config.trainChallengeStage trial difficulty isWin ids) := by
  rw [TrainConfig.trainChallengeStage]
  split
  · exact kept
  · rename_i playing
    obtain ⟨alive, open_⟩ := not_or.mp playing
    split
    · exact kept
    · split
      · exact kept
      · split
        · rename_i wins
          have won := winStage_won kept.1 (not_not.mp open_) draws
            (steady wins (eq_false_of_ne_true alive) (not_not.mp open_))
          refine ⟨won.sound, ?_⟩
          have still : (config.winStage trial difficulty.toNat false ids).loop = none := idle
          rw [still]
          trivial
        · refine ⟨⟨?_, ?_, kept.1.rewards⟩, ?_⟩
          · exact kept.1.accounts.of_same ⟨rfl, rfl, rfl, rfl⟩
          · exact kept.1.layered.of_same rfl rfl rfl
          · rw [idle]
            trivial

theorem trainQuickChallenge_kept (fightScore : ℕ) :
    Kept config (config.trainQuickChallenge trial fightScore) := by
  rw [TrainConfig.trainQuickChallenge]
  split
  · exact kept
  · rename_i playing
    split
    · exact kept
    · rename_i data found
      dsimp only
      split
      · exact kept
      · split
        · exact kept
        · refine ⟨kept.1.of_loop _, data.layer, fun stage mem => mem,
            .inl ⟨not_not.mp (not_or.mp playing).2, fun other found' => ?_⟩⟩
          cases found.symm.trans found'
          rfl

theorem trainSweepStage_kept : Kept config trial.trainSweepStage := by
  rw [Trial.trainSweepStage]
  split
  · exact kept
  · rename_i playing
    split
    · exact kept
    · exact ⟨kept.1.of_loop _, not_not.mp (not_or.mp playing).2⟩

theorem selectAddAttr_kept (idle : trial.loop = none) (index : Option ℕ) :
    Kept config (config.selectAddAttr trial index) := by
  rw [TrainConfig.selectAddAttr]
  cases selected : config.trainSelectAddAttr trial.train index false with
  | none => exact kept
  | some chosen =>
      rw [TrainConfig.trainSelectAddAttr] at selected
      split at selected
      · cases selected
      · rename_i pending
        obtain ⟨index, -, selected⟩ := Option.bind_eq_some_iff.mp selected
        obtain ⟨id, -, selected⟩ := Option.bind_eq_some_iff.mp selected
        split at selected
        · cases selected
        · rename_i paid
          cases selected
          refine ⟨⟨kept.1.accounts.addAttr (not_lt.mp paid), kept.1.layered.addAttr pending id,
            kept.1.rewards⟩, ?_⟩
          rw [idle]
          trivial

theorem trainResetStage_kept (idle : trial.loop = none) (paid : Bool) :
    Kept config (config.trainResetStage trial paid) := by
  rw [TrainConfig.trainResetStage]
  split
  · exact kept
  · split
    · exact kept
    · refine ⟨⟨⟨rfl, rfl, le_refl _, kept.1.accounts.history, Nat.zero_le _, fun name => ?_⟩,
        ⟨nofun, fun _ _ _ => rfl, fun some => absurd rfl some⟩, kept.1.rewards⟩, ?_⟩
      · rfl
      · rw [idle]
        trivial

theorem step_kept {event : Event} (steady : config.Steady trial event)
    (taken : config.step trial event = some next) : Kept config next := by
  have idle_of : ∀ {event : Option Trial}, (if trial.loop.isNone then event else none) = some next →
      trial.loop = none ∧ event = some next := by
    intro event taken
    split at taken
    · rename_i idle
      exact ⟨Option.isNone_iff_eq_none.mp idle, taken⟩
    · cases taken
  cases event with
  | challenge difficulty isWin ids =>
      rw [TrainConfig.step] at taken
      split at taken
      · rename_i enabled
        cases taken
        exact trainChallengeStage_kept kept (Option.isNone_iff_eq_none.mp enabled.1) enabled.2 steady
      · cases taken
  | quick fightScore =>
      obtain ⟨-, taken⟩ := idle_of taken
      cases taken
      exact trainQuickChallenge_kept kept fightScore
  | sweep =>
      obtain ⟨-, taken⟩ := idle_of taken
      cases taken
      exact trainSweepStage_kept kept
  | turn ids =>
      rw [TrainConfig.step] at taken
      split at taken
      · rename_i draws
        obtain ⟨loop, looping, rfl⟩ := Option.map_eq_some_iff.mp taken
        have steady' := steady loop looping
        cases loop with
        | quick difficulty stages => exact turn_quick kept draws looping steady'
        | sweep turns => exact turn_sweep kept draws looping steady'
      · cases taken
  | select index =>
      obtain ⟨idle, taken⟩ := idle_of taken
      cases taken
      exact selectAddAttr_kept kept idle index
  | reset paid =>
      obtain ⟨idle, taken⟩ := idle_of taken
      cases taken
      exact trainResetStage_kept kept idle paid
  | daily =>
      obtain ⟨idle, taken⟩ := idle_of taken
      cases taken
      refine ⟨⟨?_, ?_, kept.1.rewards⟩, ?_⟩
      · exact kept.1.accounts.of_same ⟨rfl, rfl, rfl, rfl⟩
      · exact kept.1.layered.of_same rfl rfl rfl
      · rw [idle]
        trivial

end

theorem kept_new : Kept config Trial.new where
  left := ⟨⟨rfl, rfl, le_refl _, rfl, le_refl _, fun _ => rfl⟩,
    ⟨nofun, fun _ _ _ => rfl, fun some => absurd rfl some⟩, nofun⟩
  right := trivial

theorem Kept.good (kept : Kept config trial) : Good config trial where
  curr := kept.1.accounts.curr
  usable := kept.1.accounts.usable
  nonneg := kept.1.accounts.nonneg
  history := kept.1.accounts.history
  attrs := kept.1.accounts.attrs
  rewards := kept.1.rewards

/-- In every run whose victories are steady the accounts are right after every operation. -/
theorem always_good (config : TrainConfig) (events : List Event)
    (steady : Guarded config.step config.Steady Trial.new events) :
    Always config.step (Good config) Trial.new events := by
  have always := always_of_guarded (fun kept steady taken => step_kept kept steady taken) steady
    (@kept_new config)
  exact always.mono fun _ kept => kept.good

end

/-- The names of the attributes, in the order of each of the three lists. -/
def attrNames : List String :=
  ["crit", "add_hurt", "hit", "crit_def", "hurt_def", "miss", "max_hp_pct"]

/-- The values of the game. -/
def gameConfig : TrainConfig where
  trainData := [⟨1, [1, 2, 3], [5160, 5848, 6536]⟩, ⟨1, [1, 2, 3], [11000, 13000, 15000]⟩,
    ⟨1, [1, 2, 3], [14000, 19000, 25000]⟩, ⟨2, [1, 2, 3], [19000, 26000, 35000]⟩,
    ⟨2, [1, 2, 3], [25000, 37000, 60000]⟩, ⟨2, [1, 2, 3], [33000, 59000, 89000]⟩]
  trainLayerData := [[(3, 6501), (6, 6502), (9, 6503)], [(3, 6504), (6, 6505), (9, 6506)]]
  trainAttrData := fun id =>
    let list := (id - 1) / 7 + 1
    let name := attrNames.getD ((id - 1) % 7) ""
    ⟨3 * list, name, (if name = "add_hurt" ∨ name = "hurt_def" ∨ name = "max_hp_pct" then 5 else 3) * list⟩
  idList := [[1, 2, 3, 4, 5, 6, 7], [8, 9, 10, 11, 12, 13, 14], [15, 16, 17, 18, 19, 20, 21]]
  trainResetData := [0, 100, 200]
  ordered := by decide
  within := by decide
  three := rfl

/-- A role passes the first layer with all of its stars, selects an attribute and begins again. -/
def layerEvents : List Event :=
  [.challenge 3 true [1, 8, 15], .challenge 3 true [1, 8, 15], .challenge 3 true [1, 8, 15],
    .select (some 1), .reset true]

/-- It sweeps the layer and gets all the stars. -/
def sweepEvents : List Event :=
  layerEvents ++ [.sweep, .turn [1, 8, 15], .turn [1, 8, 15], .turn [1, 8, 15], .turn [1, 8, 15]]

theorem always_good_sweepEvents :
    Guarded gameConfig.step gameConfig.Steady Trial.new sweepEvents ∧
      Always gameConfig.step (Good gameConfig) Trial.new sweepEvents := by
  have steady : Guarded gameConfig.step gameConfig.Steady Trial.new sweepEvents := by decide +kernel
  exact ⟨steady, always_good gameConfig sweepEvents steady⟩

/-- It passes two stages with one star each, and sweeps the third one. -/
def spendEvents : List Event :=
  layerEvents ++ [.challenge 1 true [1, 8, 15], .challenge 1 true [1, 8, 15], .sweep, .turn [1, 8, 15]]

/-- With five stars an attribute is selected that costs six. -/
theorem spendEvents_not_good : ∃ trial,
    run gameConfig.step Trial.new spendEvents = some trial ∧ trial.train.canUseStarNum = -1 ∧
      ¬ Good gameConfig trial := by
  have ended : ∃ trial ∈ run gameConfig.step Trial.new spendEvents,
      trial.train.canUseStarNum = -1 := by
    decide +kernel
  obtain ⟨trial, execution, negative⟩ := ended
  refine ⟨trial, execution, negative, fun good => ?_⟩
  have nonneg := good.nonneg
  rw [negative] at nonneg
  cases nonneg

end UEServer.Train
