import Mathlib
import UEServer.Library.Dict
import UEServer.Library.Execution

/-!
# Trials

`meta_table/train.lua`.  A role passes the stages of a trial in their order and wins stars, and at the end
of each layer it gets a reward for the stars of the layer and selects an attribute, which costs stars.  A
quick challenge and a sweep pass several stages; each turn of their loops is a step here.
-/

namespace UEServer.Train

/-- A row of `TrainData`. -/
structure TrainData where
  layer : ℕ
  /-- `star_num_list`, by difficulty; `difficulty_list` is as long. -/
  starNumList : List ℕ
  /-- `score_list`, by difficulty. -/
  scoreList : List ℕ

/-- A row of `TrainAttrData`. -/
structure TrainAttrData where
  costStar : ℕ
  attrName : String
  attrValue : ℚ

structure TrainConfig where
  /-- The stages of `TrainData`, from 1 on. -/
  trainData : List TrainData
  /-- `TrainLayerData`, from 1 on: `star_num_list` with `reward_list`. -/
  trainLayerData : List (List (ℕ × ℕ))
  /-- The attributes of `TrainAttrData`. -/
  trainAttrData : ℕ → TrainAttrData
  /-- `id_list` of `TrainAttrData`. -/
  idList : List (List ℕ)
  /-- `cost_num` of `TrainResetData`, from 1 on. -/
  trainResetData : List ℕ
  ordered : trainData.Pairwise fun before after => before.layer ≤ after.layer
  within : ∀ data ∈ trainData, data.layer ≤ trainLayerData.length
  /-- There are `ADD_ATTR_NUM` lists of attributes. -/
  three : idList.length = 3

/-- `train` of the role's record. -/
structure TrainDb where
  currStage : ℕ
  historyStarNum : ℕ
  currStarNum : ℕ
  canUseStarNum : ℤ
  layerStarNumList : List ℕ
  addAttrDict : Table String ℚ
  addAttrIdList : List ℕ
  resetNum : ℕ
  isFail : Bool
  maxStage : ℕ

def TrainDb.new : TrainDb where
  currStage := 1
  historyStarNum := 0
  currStarNum := 0
  canUseStarNum := 0
  layerStarNumList := []
  addAttrDict := Table.empty
  addAttrIdList := []
  resetNum := 0
  isFail := false
  maxStage := 0

section
variable (config : TrainConfig)

/-- A stage of `TrainData`. -/
def TrainConfig.stage (id : ℕ) : Option TrainData :=
  if id = 0 then none else config.trainData[id - 1]?

/-- A list of `layer_dict` of `TrainData`. -/
def TrainConfig.stageList (layer : ℕ) : List ℕ :=
  (List.range' 1 config.trainData.length).filter fun id =>
    (config.stage id).any fun data => data.layer = layer

/-- An entry of `star_num_list`. -/
def TrainData.starNum (data : TrainData) (difficulty : ℕ) : Option ℕ :=
  if difficulty = 0 then none else data.starNumList[difficulty - 1]?

/-- The loop of `get_train_layer_reward`. -/
def layerRewardLoop (layerStarNum : ℕ) : Option ℕ → List (ℕ × ℕ) → Option ℕ
  | layerReward, [] => layerReward
  | layerReward, (starNum, reward) :: rest =>
      if layerStarNum < starNum then layerReward else layerRewardLoop layerStarNum (some reward) rest

/-- The reward of `get_train_layer_reward` for a number of stars; nothing if it raises. -/
def TrainConfig.layerReward (layer layerStarNum : ℕ) : Option ℕ :=
  layerRewardLoop layerStarNum none
    (if layer = 0 then [] else (config.trainLayerData[layer - 1]?).getD [])

def TrainConfig.addAttr (train : TrainDb) (id : ℕ) : TrainDb :=
  let data := config.trainAttrData id
  { train with
    addAttrIdList := []
    layerStarNumList := []
    canUseStarNum := train.canUseStarNum - data.costStar
    addAttrDict := train.addAttrDict.increase data.attrName data.attrValue }

def TrainConfig.autoLoop (canUseStarNum : ℤ) : Option ℕ → List ℕ → Option ℕ
  | data, [] => data
  | _, id :: rest =>
      if canUseStarNum ≤ (config.trainAttrData id).costStar then some id
      else autoLoop canUseStarNum (some id) rest

/-- `train_select_add_attr`, with the attribute that is selected; nothing if there is none. -/
def TrainConfig.trainSelectAddAttr (train : TrainDb) (index : Option ℕ) (autoSelect : Bool) :
    Option (ℕ × TrainDb) :=
  if train.addAttrIdList = [] then none
  else if autoSelect then
    (config.autoLoop train.canUseStarNum none train.addAttrIdList).map fun id =>
      (id, config.addAttr train id)
  else
    index.bind fun index =>
      (if index = 0 then none else train.addAttrIdList[index - 1]?).bind fun id =>
        if train.canUseStarNum < (config.trainAttrData id).costStar then none
        else some (id, config.addAttr train id)

/-- What a victory does.  If it raises, what was done before stays done. -/
structure Victory where
  train : TrainDb
  starNum : Option ℕ
  layerReward : Option ℕ
  selected : Option ℕ

/-- Record the hardest stage that was passed. -/
def TrainDb.record (train : TrainDb) (hardest : Bool) : TrainDb :=
  if hardest ∧ train.maxStage < train.currStage then { train with maxStage := train.currStage } else train

/-- Add the stars of a stage. -/
def TrainDb.addStars (train : TrainDb) (addStarNum : ℕ) : TrainDb :=
  { train with
    currStarNum := train.currStarNum + addStarNum
    historyStarNum :=
      if train.historyStarNum < train.currStarNum + addStarNum then train.currStarNum + addStarNum
      else train.historyStarNum
    canUseStarNum := train.canUseStarNum + addStarNum
    layerStarNumList := train.layerStarNumList ++ [addStarNum] }

def TrainDb.goOn (train : TrainDb) : TrainDb :=
  { train with currStage := train.currStage + 1 }

/-- The end of a layer, with the attributes that are drawn. -/
def TrainConfig.endLayer (train : TrainDb) (layer starNum : ℕ) (autoSelect : Bool) (ids : List ℕ) :
    Victory :=
  match config.layerReward layer train.layerStarNumList.sum with
  | none => ⟨train, none, none, none⟩
  | some layerReward =>
      let train :=
        if layer ≠ config.trainLayerData.length then { train with addAttrIdList := ids } else train
      let picked := if autoSelect then config.trainSelectAddAttr train none true else none
      ⟨((picked.map Prod.snd).getD train).goOn, some starNum, some layerReward, picked.map Prod.fst⟩

/-- `train_challenge_victory`, with the attributes that are drawn if a layer ends. -/
def TrainConfig.trainChallengeVictory (train : TrainDb) (difficulty : ℕ) (autoSelect : Bool)
    (ids : List ℕ) : Victory :=
  match config.stage train.currStage with
  | none => ⟨train, none, none, none⟩
  | some data =>
      let train := train.record (difficulty = data.starNumList.length)
      match data.starNum difficulty with
      | none => ⟨train, none, none, none⟩
      | some addStarNum =>
          let train := train.addStars addStarNum
          if (config.stageList data.layer).getLast? = some train.currStage then
            config.endLayer train data.layer addStarNum autoSelect ids
          else ⟨train.goOn, some addStarNum, none, none⟩

end

structure Passed where
  stage : ℕ
  layer : ℕ
  starNum : ℕ

structure LayerReward where
  layer : ℕ
  /-- The stars that were won in the layer since the last reset. -/
  won : ℕ
  reward : ℕ
  deriving DecidableEq

/-- A loop that passes several stages. -/
inductive Loop where
  /-- Of `train_quick_challenge`: the difficulty and the stages that are left of the layer. -/
  | quick (difficulty : ℕ) (stages : List ℕ)
  /-- Of `train_sweep_stage`: how many turns are left. -/
  | sweep (turns : ℕ)

/-- A trial and what has happened in it. -/
structure Trial where
  train : TrainDb
  loop : Option Loop
  /-- The stages that were passed since the last reset. -/
  passed : List Passed
  /-- The attributes that were selected since the last reset. -/
  selected : List ℕ
  /-- The most stars that there were at any time. -/
  peak : ℕ
  rewards : List LayerReward

def Trial.new : Trial where
  train := TrainDb.new
  loop := none
  passed := []
  selected := []
  peak := 0
  rewards := []

def starsOf (passed : List Passed) (layer : ℕ) : ℕ :=
  ((passed.filter fun stage => stage.layer = layer).map Passed.starNum).sum

/-- Write down what a victory did. -/
def Trial.win (trial : Trial) (victory : Victory) (layer : ℕ) : Trial :=
  let passed := trial.passed ++
    (victory.starNum.map fun starNum => ⟨trial.train.currStage, layer, starNum⟩).toList
  { trial with
    train := victory.train
    passed := passed
    selected := trial.selected ++ victory.selected.toList
    peak := max trial.peak victory.train.currStarNum
    rewards := trial.rewards ++
      (victory.layerReward.map fun reward => ⟨layer, starsOf passed layer, reward⟩).toList }

inductive Event where
  /-- `train_challenge_stage`, how the fight ends, and the attributes that are drawn. -/
  | challenge (difficulty : ℤ) (isWin : Bool) (ids : List ℕ)
  | quick (fightScore : ℕ)
  | sweep
  | turn (ids : List ℕ)
  | select (index : Option ℕ)
  /-- `train_reset_stage`, and whether the role can pay. -/
  | reset (paid : Bool)
  | daily

section
variable (config : TrainConfig)

def TrainConfig.Draws (ids : List ℕ) : Prop :=
  List.Forall₂ (fun id list => id ∈ list) ids config.idList

instance (ids : List ℕ) : Decidable (config.Draws ids) :=
  inferInstanceAs (Decidable (List.Forall₂ _ _ _))

/-- A stage of the layer that is being played. -/
def TrainConfig.layerOf (train : TrainDb) : ℕ :=
  ((config.stage train.currStage).map TrainData.layer).getD 0

def TrainConfig.winStage (trial : Trial) (difficulty : ℕ) (autoSelect : Bool) (ids : List ℕ) : Trial :=
  trial.win (config.trainChallengeVictory trial.train difficulty autoSelect ids)
    (config.layerOf trial.train)

def TrainConfig.trainChallengeStage (trial : Trial) (difficulty : ℤ) (isWin : Bool) (ids : List ℕ) :
    Trial :=
  if trial.train.isFail ∨ trial.train.addAttrIdList ≠ [] then trial
  else
    match config.stage trial.train.currStage with
    | none => trial
    | some data =>
        if difficulty ≤ 0 ∨ (data.starNumList.length : ℤ) < difficulty then trial
        else if isWin then config.winStage trial difficulty.toNat false ids
        else { trial with train := { trial.train with isFail := true } }

/-- `train_quick_challenge`, until its loop. -/
def TrainConfig.trainQuickChallenge (trial : Trial) (fightScore : ℕ) : Trial :=
  if trial.train.isFail ∨ trial.train.addAttrIdList ≠ [] then trial
  else
    match config.stage trial.train.currStage with
    | none => trial
    | some data =>
        let stageList := config.stageList data.layer
        match (stageList.getLast?.bind config.stage).bind fun last => last.scoreList.getLast? with
        | none => trial
        | some score =>
            if fightScore < score then trial
            else { trial with loop := some (.quick data.starNumList.length stageList) }

/-- `train_sweep_stage`, until its loop. -/
def Trial.trainSweepStage (trial : Trial) : Trial :=
  if trial.train.isFail ∨ trial.train.addAttrIdList ≠ [] then trial
  else if trial.train.maxStage < trial.train.currStage then trial
  else { trial with loop := some (.sweep (trial.train.maxStage - trial.train.currStage + 1)) }

/-- The loop after a turn; it ends if the victory raised. -/
def Loop.after (loop : Loop) (victory : Victory) : Option Loop :=
  if victory.starNum.isSome then some loop else none

/-- A turn of a loop. -/
def TrainConfig.turn (trial : Trial) (ids : List ℕ) : Loop → Trial
  | .quick _ [] => { trial with loop := none }
  | .quick difficulty (stage :: stages) =>
      if stage < trial.train.currStage then { trial with loop := some (.quick difficulty stages) }
      else
        { config.winStage trial difficulty false ids with
          loop := (Loop.quick difficulty stages).after
            (config.trainChallengeVictory trial.train difficulty false ids) }
  | .sweep 0 => { trial with loop := none }
  | .sweep (turns + 1) =>
      match config.stage trial.train.currStage with
      | none => { trial with loop := none }
      | some data =>
          { config.winStage trial data.starNumList.length true ids with
            loop := (Loop.sweep turns).after
              (config.trainChallengeVictory trial.train data.starNumList.length true ids) }

/-- `train_select_add_attr` for a client. -/
def TrainConfig.selectAddAttr (trial : Trial) (index : Option ℕ) : Trial :=
  match config.trainSelectAddAttr trial.train index false with
  | none => trial
  | some (id, train) => { trial with train := train, selected := trial.selected ++ [id] }

def TrainConfig.trainResetStage (trial : Trial) (paid : Bool) : Trial :=
  match config.trainResetData[trial.train.resetNum]? with
  | none => trial
  | some costNum =>
      if 0 < costNum ∧ paid = false then trial
      else
        { trial with
          train :=
            { trial.train with
              resetNum := trial.train.resetNum + 1
              currStage := 1
              currStarNum := 0
              canUseStarNum := 0
              layerStarNumList := []
              addAttrDict := Table.empty
              addAttrIdList := []
              isFail := false }
          passed := []
          selected := [] }

/-- One step; nothing if the event cannot happen. -/
def TrainConfig.step (trial : Trial) : Event → Option Trial
  | .turn ids =>
      if config.Draws ids then
        trial.loop.map (config.turn trial ids)
      else none
  | .challenge difficulty isWin ids =>
      if trial.loop.isNone ∧ config.Draws ids then
        some (config.trainChallengeStage trial difficulty isWin ids)
      else none
  | .quick fightScore =>
      if trial.loop.isNone then some (config.trainQuickChallenge trial fightScore) else none
  | .sweep => if trial.loop.isNone then some trial.trainSweepStage else none
  | .select index => if trial.loop.isNone then some (config.selectAddAttr trial index) else none
  | .reset paid => if trial.loop.isNone then some (config.trainResetStage trial paid) else none
  | .daily =>
      if trial.loop.isNone then some { trial with train := { trial.train with resetNum := 0 } } else none

structure Good (trial : Trial) : Prop where
  /-- `curr_star_num` is the sum of the stars since the last reset. -/
  curr : trial.train.currStarNum = (trial.passed.map Passed.starNum).sum
  /-- `can_use_star_num` is what the selected attributes leave. -/
  usable : trial.train.canUseStarNum = trial.train.currStarNum -
    ((trial.selected.map fun id => (config.trainAttrData id).costStar).sum : ℕ)
  nonneg : 0 ≤ trial.train.canUseStarNum
  /-- `history_star_num` is the maximum of `curr_star_num`. -/
  history : trial.train.historyStarNum = trial.peak
  /-- `add_attr_dict` is the sum of the selected attributes. -/
  attrs : ∀ name, trial.train.addAttrDict.read name =
    ((trial.selected.filter fun id => (config.trainAttrData id).attrName = name).map fun id =>
      (config.trainAttrData id).attrValue).sum
  /-- The reward of a layer depends only on the stars that were won in it. -/
  rewards : ∀ reward ∈ trial.rewards, config.layerReward reward.layer reward.won = some reward.reward

/-- The first attribute that costs at least a number of stars costs no more. -/
def TrainConfig.Affordable (starNum : ℤ) (ids : List ℕ) : Prop :=
  ∀ id ∈ ids.find? fun id => starNum ≤ (config.trainAttrData id).costStar,
    ((config.trainAttrData id).costStar : ℤ) ≤ starNum

instance (starNum : ℤ) (ids : List ℕ) : Decidable (config.Affordable starNum ids) :=
  inferInstanceAs (Decidable (∀ id ∈ ids.find? _, _))

/-- The least stars for which a layer has a reward. -/
def TrainConfig.firstStarNum (layer : ℕ) : Option ℕ :=
  if layer = 0 then none
  else ((config.trainLayerData[layer - 1]?).bind List.head?).map Prod.fst

/-- The condition on a victory: if it ends a layer, its stars are enough for the first reward of the layer,
and if an attribute is selected then, the attribute at which the selection stops can be paid. -/
def TrainConfig.VictorySteady (train : TrainDb) (difficulty : ℕ) (autoSelect : Bool) (ids : List ℕ) :
    Prop :=
  ∀ data ∈ config.stage train.currStage, ∀ starNum ∈ data.starNum difficulty,
    (config.stageList data.layer).getLast? = some train.currStage →
      (∃ first ∈ config.firstStarNum data.layer, first ≤ train.layerStarNumList.sum + starNum) ∧
      (autoSelect = true → data.layer ≠ config.trainLayerData.length →
        config.Affordable (train.canUseStarNum + starNum) ids)

instance (train : TrainDb) (difficulty : ℕ) (autoSelect : Bool) (ids : List ℕ) :
    Decidable (config.VictorySteady train difficulty autoSelect ids) :=
  inferInstanceAs (Decidable (∀ data ∈ config.stage train.currStage,
    ∀ starNum ∈ data.starNum difficulty, _ → _ ∧ _))

def TrainConfig.TurnSteady (train : TrainDb) (ids : List ℕ) : Loop → Prop
  | .quick difficulty (stage :: _) =>
      train.currStage ≤ stage → config.VictorySteady train difficulty false ids
  | .sweep (_ + 1) =>
      ∀ data ∈ config.stage train.currStage,
        config.VictorySteady train data.starNumList.length true ids
  | _ => True

instance (train : TrainDb) (ids : List ℕ) : (loop : Loop) → Decidable (config.TurnSteady train ids loop)
  | .quick difficulty (stage :: _) => inferInstanceAs (Decidable
      (train.currStage ≤ stage → config.VictorySteady train difficulty false ids))
  | .sweep (_ + 1) => inferInstanceAs (Decidable (∀ data ∈ config.stage train.currStage,
      config.VictorySteady train data.starNumList.length true ids))
  | .quick _ [] | .sweep 0 => isTrue trivial

def TrainConfig.Steady (trial : Trial) : Event → Prop
  | .challenge difficulty isWin ids =>
      isWin = true → trial.train.isFail = false → trial.train.addAttrIdList = [] →
        config.VictorySteady trial.train difficulty.toNat false ids
  | .turn ids => ∀ loop ∈ trial.loop, config.TurnSteady trial.train ids loop
  | _ => True

instance (trial : Trial) : (event : Event) → Decidable (config.Steady trial event)
  | .challenge _ _ _ => inferInstanceAs (Decidable (_ → _ → _ → _))
  | .turn ids => inferInstanceAs (Decidable (∀ loop ∈ trial.loop, config.TurnSteady trial.train ids loop))
  | .quick _ | .sweep | .select _ | .reset _ | .daily => isTrue trivial

end

end UEServer.Train
