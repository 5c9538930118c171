import UEServer.Train.Basic

/-!
# The accounts of a trial

A victory adds its stars to three sums, and a selection takes its cost from one of them.  The list of the
stars of a layer is emptied by a selection, which comes between any two layers.
-/

namespace UEServer.Train

open Execution

section
variable {config : TrainConfig} {train : TrainDb} {trial : Trial}

variable {data : TrainData}

theorem stage_mem {id : ℕ} (found : config.stage id = some data) :
    1 ≤ id ∧ id ≤ config.trainData.length ∧ data ∈ config.trainData := by
  rw [TrainConfig.stage] at found
  split at found
  · cases found
  · obtain ⟨inside, -⟩ := List.getElem?_eq_some_iff.mp found
    exact ⟨by omega, by omega, List.mem_of_getElem? found⟩

theorem layer_le {id other : ℕ} {data next : TrainData} (found : config.stage id = some data)
    (found' : config.stage other = some next) (le : id ≤ other) : data.layer ≤ next.layer := by
  obtain ⟨positive, -, -⟩ := stage_mem found
  rw [TrainConfig.stage, if_neg (by omega)] at found found'
  obtain ⟨inside, rfl⟩ := List.getElem?_eq_some_iff.mp found
  obtain ⟨inside', rfl⟩ := List.getElem?_eq_some_iff.mp found'
  rcases Nat.lt_or_eq_of_le (Nat.sub_le_sub_right le 1) with less | same
  · exact List.pairwise_iff_getElem.mp config.ordered _ _ inside inside' less
  · simp only [same, le_refl]

theorem mem_stageList {id layer : ℕ} : id ∈ config.stageList layer ↔
    ∃ data, config.stage id = some data ∧ data.layer = layer := by
  rw [TrainConfig.stageList, List.mem_filter, List.mem_range'_1, Option.any_eq_true]
  constructor
  · rintro ⟨-, data, found, same⟩
    exact ⟨data, found, of_decide_eq_true same⟩
  · rintro ⟨data, found, same⟩
    obtain ⟨positive, inside, -⟩ := stage_mem found
    exact ⟨by omega, data, found, decide_eq_true same⟩

theorem le_of_getLast {id other layer : ℕ} (last : (config.stageList layer).getLast? = some id)
    (mem : other ∈ config.stageList layer) : other ≤ id := by
  have sorted : (config.stageList layer).Pairwise (· ≤ ·) :=
    List.pairwise_le_range'.filter _
  have le := sorted.rel_getLast mem
  rw [List.getLast?_eq_some_getLast (List.ne_nil_of_mem mem), Option.some.injEq] at last
  rwa [last] at le

/-- A stage that is not the last one of its layer is followed by another one of the layer. -/
theorem layer_next {id : ℕ} {data next : TrainData} (found : config.stage id = some data)
    (found' : config.stage (id + 1) = some next)
    (more : (config.stageList data.layer).getLast? ≠ some id) : next.layer = data.layer := by
  have mem : id ∈ config.stageList data.layer := mem_stageList.mpr ⟨data, found, rfl⟩
  have nonempty := List.ne_nil_of_mem mem
  have last := List.getLast?_eq_some_getLast nonempty
  have le := le_of_getLast last mem
  have ne : id ≠ (config.stageList data.layer).getLast nonempty := by
    intro same
    rw [← same] at last
    exact more last
  obtain ⟨later, found'', same⟩ := mem_stageList.mp (List.getLast_mem nonempty)
  have low := layer_le found found' (by omega)
  have high := layer_le found' found'' (by omega)
  omega

theorem layer_lt {id : ℕ} {data next : TrainData} (found : config.stage id = some data)
    (found' : config.stage (id + 1) = some next)
    (last : (config.stageList data.layer).getLast? = some id) : data.layer < next.layer := by
  have low := layer_le found found' (by omega)
  refine lt_of_le_of_ne low fun same => ?_
  have le := le_of_getLast last (mem_stageList.mpr ⟨next, found', same.symm⟩)
  omega

/-- The accounts, without the rewards. -/
structure Accounts (config : TrainConfig) (train : TrainDb) (passed : List Passed)
    (selected : List ℕ) (peak : ℕ) : Prop where
  curr : train.currStarNum = (passed.map Passed.starNum).sum
  usable : train.canUseStarNum = train.currStarNum -
    ((selected.map fun id => (config.trainAttrData id).costStar).sum : ℕ)
  nonneg : 0 ≤ train.canUseStarNum
  history : train.historyStarNum = peak
  low : train.currStarNum ≤ peak
  attrs : ∀ name, train.addAttrDict.read name =
    ((selected.filter fun id => (config.trainAttrData id).attrName = name).map fun id =>
      (config.trainAttrData id).attrValue).sum

variable {passed : List Passed} {selected : List ℕ} {peak : ℕ}

structure SameSums (train next : TrainDb) : Prop where
  curr : next.currStarNum = train.currStarNum
  usable : next.canUseStarNum = train.canUseStarNum
  history : next.historyStarNum = train.historyStarNum
  attrs : next.addAttrDict = train.addAttrDict

variable {next : TrainDb}

section
variable (accounts : Accounts config train passed selected peak)
include accounts

theorem Accounts.of_same (same : SameSums train next) :
    Accounts config next passed selected peak where
  curr := same.curr.trans accounts.curr
  usable := by rw [same.usable, same.curr, accounts.usable]
  nonneg := by rw [same.usable]; exact accounts.nonneg
  history := same.history.trans accounts.history
  low := by rw [same.curr]; exact accounts.low
  attrs := by rw [same.attrs]; exact accounts.attrs

theorem Accounts.addStars (stage : Passed) :
    Accounts config (train.addStars stage.starNum) (passed ++ [stage]) selected
      (max peak (train.currStarNum + stage.starNum)) where
  curr := by
    rw [List.map_append, List.sum_append, ← accounts.curr]
    simp [TrainDb.addStars]
  usable := by
    have usable := accounts.usable
    simp only [TrainDb.addStars]
    omega
  nonneg := by
    have nonneg := accounts.nonneg
    simp only [TrainDb.addStars]
    omega
  history := by
    have history := accounts.history
    simp only [TrainDb.addStars]
    split <;> omega
  low := le_max_right _ _
  attrs := accounts.attrs

theorem Accounts.addAttr {id : ℕ}
    (paid : ((config.trainAttrData id).costStar : ℤ) ≤ train.canUseStarNum) :
    Accounts config (config.addAttr train id) passed (selected ++ [id]) peak where
  curr := accounts.curr
  usable := by
    have usable := accounts.usable
    rw [List.map_append, List.sum_append]
    simp only [TrainConfig.addAttr, List.map_cons, List.map_nil, List.sum_cons, List.sum_nil]
    omega
  nonneg := by
    simp only [TrainConfig.addAttr]
    omega
  history := accounts.history
  low := accounts.low
  attrs := by
    intro name
    have attrs := accounts.attrs name
    simp only [TrainConfig.addAttr, Table.read_increase, attrs, List.filter_append, List.map_append,
      List.sum_append]
    by_cases same : name = (config.trainAttrData id).attrName
    · simp [same]
    · simp [same, Ne.symm same]

end

theorem starsOf_append (stage : Passed) (layer : ℕ) : starsOf (passed ++ [stage]) layer =
    starsOf passed layer + if stage.layer = layer then stage.starNum else 0 := by
  rw [starsOf, starsOf, List.filter_append, List.map_append, List.sum_append]
  by_cases same : stage.layer = layer
  · simp [same]
  · simp [same]

theorem starsOf_eq_zero {layer : ℕ} (none : ∀ stage ∈ passed, stage.layer ≠ layer) :
    starsOf passed layer = 0 := by
  have empty : passed.filter (fun stage => stage.layer = layer) = [] := by
    refine List.filter_eq_nil_iff.mpr fun stage mem => ?_
    simpa using none stage mem
  rw [starsOf, empty]
  rfl

/-- The list of the stars of a layer has those of the current layer. -/
structure Layered (config : TrainConfig) (train : TrainDb) (passed : List Passed) : Prop where
  /-- The stages that were passed come before the current one. -/
  known : ∀ stage ∈ passed, stage.stage < train.currStage ∧
    ∃ data, config.stage stage.stage = some data ∧ data.layer = stage.layer
  /-- While no attribute is to be selected, the list has the stars of the layer. -/
  same : train.addAttrIdList = [] → ∀ data ∈ config.stage train.currStage,
    train.layerStarNumList.sum = starsOf passed data.layer
  fresh : train.addAttrIdList ≠ [] → ∀ data ∈ config.stage train.currStage,
    starsOf passed data.layer = 0

section
variable (layered : Layered config train passed)
include layered

theorem Layered.known_goOn (found : config.stage train.currStage = some data) (starNum : ℕ) :
    ∀ stage ∈ passed ++ [⟨train.currStage, data.layer, starNum⟩], stage.stage < train.currStage + 1 ∧
      ∃ data, config.stage stage.stage = some data ∧ data.layer = stage.layer := by
  intro stage mem
  rcases List.mem_append.mp mem with mem | mem
  · obtain ⟨less, known⟩ := layered.known stage mem
    exact ⟨by omega, known⟩
  · cases List.mem_singleton.mp mem
    exact ⟨Nat.lt_succ_self _, data, found, rfl⟩

theorem Layered.sum_append (found : config.stage train.currStage = some data)
    (open_ : train.addAttrIdList = []) (starNum : ℕ) : (train.layerStarNumList ++ [starNum]).sum =
      starsOf (passed ++ [⟨train.currStage, data.layer, starNum⟩]) data.layer := by
  rw [List.sum_append, layered.same open_ data found, starsOf_append, if_pos rfl]
  simp

theorem Layered.more (found : config.stage train.currStage = some data)
    (open_ : train.addAttrIdList = [])
    (more : (config.stageList data.layer).getLast? ≠ some train.currStage) (starNum : ℕ)
    (stage : next.currStage = train.currStage + 1)
    (list : next.layerStarNumList = train.layerStarNumList ++ [starNum])
    (ids : next.addAttrIdList = []) :
    Layered config next (passed ++ [⟨train.currStage, data.layer, starNum⟩]) where
  known := by
    rw [stage]
    exact layered.known_goOn found starNum
  same := by
    intro _ later found'
    rw [stage] at found'
    rw [list, layer_next found found' more, layered.sum_append found open_]
  fresh := fun some => absurd ids some

/-- After the last stage of a layer, none of the stages has been passed that are in the next layer. -/
theorem Layered.none_of_last {data next : TrainData}
    (found : config.stage train.currStage = some data)
    (last : (config.stageList data.layer).getLast? = some train.currStage)
    (found' : config.stage (train.currStage + 1) = some next) (starNum : ℕ) :
    starsOf (passed ++ [⟨train.currStage, data.layer, starNum⟩]) next.layer = 0 := by
  have less := layer_lt found found' last
  refine starsOf_eq_zero fun stage mem => ?_
  rcases List.mem_append.mp mem with mem | mem
  · obtain ⟨before, other, known, same⟩ := layered.known stage mem
    have le := layer_le known found before.le
    omega
  · cases List.mem_singleton.mp mem
    exact less.ne

theorem Layered.last (found : config.stage train.currStage = some data)
    (last : (config.stageList data.layer).getLast? = some train.currStage) (starNum : ℕ)
    (stage : next.currStage = train.currStage + 1) (ids : next.addAttrIdList ≠ []) :
    Layered config next (passed ++ [⟨train.currStage, data.layer, starNum⟩]) where
  known := by
    rw [stage]
    exact layered.known_goOn found starNum
  same := fun none => absurd none ids
  fresh := by
    intro _ later found'
    rw [stage] at found'
    exact layered.none_of_last found last found' starNum

theorem Layered.final (found : config.stage train.currStage = some data)
    (last : (config.stageList data.layer).getLast? = some train.currStage)
    (final : data.layer = config.trainLayerData.length) (starNum : ℕ)
    (stage : next.currStage = train.currStage + 1) (ids : next.addAttrIdList = []) :
    Layered config next (passed ++ [⟨train.currStage, data.layer, starNum⟩]) where
  known := by
    rw [stage]
    exact layered.known_goOn found starNum
  same := by
    intro _ later found'
    rw [stage] at found'
    obtain ⟨-, -, mem⟩ := stage_mem found'
    have less := layer_lt found found' last
    have le := config.within later mem
    omega
  fresh := fun some => absurd ids some

theorem Layered.addAttr (some : train.addAttrIdList ≠ []) (id : ℕ) :
    Layered config (config.addAttr train id) passed where
  known := layered.known
  same := fun _ data found => (layered.fresh some data found).symm
  fresh := fun some => absurd rfl some

theorem Layered.of_same (stage : next.currStage = train.currStage)
    (list : next.layerStarNumList = train.layerStarNumList)
    (ids : next.addAttrIdList = train.addAttrIdList) : Layered config next passed where
  known := by rw [stage]; exact layered.known
  same := by rw [stage, list, ids]; exact layered.same
  fresh := by rw [stage, ids]; exact layered.fresh

end

theorem autoLoop_affordable {starNum : ℤ} {data : Option ℕ} {ids : List ℕ}
    (some : data.isSome = true ∨ ids ≠ [])
    (paid : ∀ id ∈ data, ((config.trainAttrData id).costStar : ℤ) ≤ starNum)
    (affordable : config.Affordable starNum ids) :
    ∃ id, config.autoLoop starNum data ids = Option.some id ∧
      ((config.trainAttrData id).costStar : ℤ) ≤ starNum := by
  induction ids generalizing data with
  | nil =>
      obtain ⟨id, rfl⟩ := Option.isSome_iff_exists.mp (some.resolve_right (absurd rfl))
      exact ⟨id, rfl, paid id rfl⟩
  | cons id ids ih =>
      rw [TrainConfig.autoLoop]
      rw [TrainConfig.Affordable, List.find?_cons] at affordable
      split
      · rename_i stops
        rw [decide_eq_true stops] at affordable
        exact ⟨id, rfl, affordable id rfl⟩
      · rename_i goes
        rw [decide_eq_false goes] at affordable
        refine ih (.inl rfl) ?_ affordable
        rintro other same
        cases same
        omega

theorem isSome_layerRewardLoop {starNum : ℕ} {reward : Option ℕ} (some : reward.isSome = true)
    (list : List (ℕ × ℕ)) : (layerRewardLoop starNum reward list).isSome = true := by
  induction list generalizing reward with
  | nil => exact some
  | cons entry list ih =>
      rw [layerRewardLoop]
      split
      · exact some
      · exact ih rfl

theorem isSome_layerReward {layer first starNum : ℕ} (found : config.firstStarNum layer = some first)
    (enough : first ≤ starNum) : ∃ reward, config.layerReward layer starNum = some reward := by
  rw [← Option.isSome_iff_exists, TrainConfig.layerReward]
  rw [TrainConfig.firstStarNum] at found
  split at found
  · cases found
  · rename_i positive
    obtain ⟨entry, head, rfl⟩ := Option.map_eq_some_iff.mp found
    obtain ⟨list, listed, head⟩ := Option.bind_eq_some_iff.mp head
    rw [if_neg positive, listed, Option.getD_some]
    cases list with
    | nil => cases head
    | cons other list =>
        cases head
        rw [layerRewardLoop, if_neg (not_lt.mpr enough)]
        exact isSome_layerRewardLoop rfl list

/-- What holds of a trial at every moment, apart from its loop. -/
structure Sound (config : TrainConfig) (trial : Trial) : Prop where
  accounts : Accounts config trial.train trial.passed trial.selected trial.peak
  layered : Layered config trial.train trial.passed
  rewards : ∀ reward ∈ trial.rewards, config.layerReward reward.layer reward.won = some reward.reward

structure Won (config : TrainConfig) (trial : Trial) (autoSelect : Bool) (victory : Victory)
    (next : Trial) : Prop where
  sound : Sound config next
  auto : autoSelect = true → next.train.addAttrIdList = []
  /-- Unless the victory raised, the next stage comes, in the same layer or after the last one of it. -/
  moved : victory.starNum.isSome = true → ∀ data ∈ config.stage trial.train.currStage,
    next.train.currStage = trial.train.currStage + 1 ∧
      (next.train.addAttrIdList = [] ∧
          (∀ later ∈ config.stage next.train.currStage, later.layer = data.layer) ∨
        (config.stageList data.layer).getLast? = some trial.train.currStage)

theorem record_same (train : TrainDb) (hardest : Bool) :
    SameSums train (train.record hardest) ∧ (train.record hardest).currStage = train.currStage ∧
      (train.record hardest).layerStarNumList = train.layerStarNumList ∧
        (train.record hardest).addAttrIdList = train.addAttrIdList := by
  rw [TrainDb.record]
  split
  · exact ⟨⟨rfl, rfl, rfl, rfl⟩, rfl, rfl, rfl⟩
  · exact ⟨⟨rfl, rfl, rfl, rfl⟩, rfl, rfl, rfl⟩

section
variable (sound : Sound config trial) (open_ : trial.train.addAttrIdList = [])
include sound open_

theorem won_of_raised (autoSelect hardest : Bool) (layer : ℕ) :
    Won config trial autoSelect ⟨trial.train.record hardest, none, none, none⟩
      (trial.win ⟨trial.train.record hardest, none, none, none⟩ layer) := by
  obtain ⟨same, stage, list, ids⟩ := record_same trial.train hardest
  have accounts := sound.accounts.of_same same
  have layered := sound.layered.of_same stage list ids
  have peak : max trial.peak (trial.train.record hardest).currStarNum = trial.peak :=
    max_eq_left accounts.low
  refine ⟨⟨?_, ?_, ?_⟩, fun _ => ids.trans open_, nofun⟩
  · simpa [Trial.win, peak] using accounts
  · simpa [Trial.win] using layered
  · simpa [Trial.win] using sound.rewards

theorem won_of_more (autoSelect hardest : Bool) {starNum : ℕ}
    (found : config.stage trial.train.currStage = some data)
    (more : (config.stageList data.layer).getLast? ≠ some trial.train.currStage) :
    Won config trial autoSelect
      ⟨((trial.train.record hardest).addStars starNum).goOn, some starNum, none, none⟩
      (trial.win ⟨((trial.train.record hardest).addStars starNum).goOn, some starNum, none, none⟩
        data.layer) := by
  obtain ⟨same, stage, list, ids⟩ := record_same trial.train hardest
  have accounts := (sound.accounts.of_same same).addStars ⟨trial.train.currStage, data.layer, starNum⟩
  have next : ((trial.train.record hardest).addStars starNum).goOn.currStage =
      trial.train.currStage + 1 := congrArg (· + 1) stage
  have none : ((trial.train.record hardest).addStars starNum).goOn.addAttrIdList = [] :=
    ids.trans open_
  have layered := sound.layered.more found open_ more starNum next
    (congrArg (· ++ [starNum]) list) none
  refine ⟨⟨?_, ?_, ?_⟩, fun _ => none, ?_⟩
  · have goOn : Accounts config ((trial.train.record hardest).addStars starNum).goOn _ _
        (max trial.peak ((trial.train.record hardest).addStars starNum).goOn.currStarNum) :=
      accounts.of_same ⟨rfl, rfl, rfl, rfl⟩
    simpa [Trial.win] using goOn
  · simpa [Trial.win] using layered
  · simpa [Trial.win] using sound.rewards
  · intro _ other found'
    cases found.symm.trans found'
    refine ⟨next, .inl ⟨none, fun later found'' => ?_⟩⟩
    have found''' : config.stage (trial.train.currStage + 1) = some later := next ▸ found''
    exact layer_next found found''' more

omit sound open_ in
/-- The end of a layer that has a reward: after the last layer nothing is to be selected; after another one
the attributes are drawn, and one of them is selected at once or none. -/
theorem endLayer_spec {layer starNum reward : ℕ} {autoSelect : Bool} {ids : List ℕ} (drawn : ids ≠ [])
    (pending : train.addAttrIdList = [])
    (rewarded : config.layerReward layer train.layerStarNumList.sum = some reward)
    (affordable : autoSelect = true → layer ≠ config.trainLayerData.length →
      config.Affordable train.canUseStarNum ids) :
    ∃ ended picked,
      config.endLayer train layer starNum autoSelect ids =
        ⟨ended.goOn, some starNum, some reward, picked⟩ ∧
      (layer = config.trainLayerData.length ∧ ended = train ∧ picked = none ∨
        layer ≠ config.trainLayerData.length ∧
          (autoSelect = false ∧ ended = { train with addAttrIdList := ids } ∧ picked = none ∨
            ∃ id, ended = config.addAttr { train with addAttrIdList := ids } id ∧ picked = some id ∧
              ((config.trainAttrData id).costStar : ℤ) ≤ train.canUseStarNum)) := by
  rw [TrainConfig.endLayer, rewarded]
  rcases Decidable.em (layer = config.trainLayerData.length) with final | inner
  · refine ⟨train, none, ?_, .inl ⟨final, rfl, rfl⟩⟩
    have nothing : config.trainSelectAddAttr train none true = none := by
      rw [TrainConfig.trainSelectAddAttr, if_pos pending]
    simp [final, nothing]
  · cases autoSelect with
    | false =>
        refine ⟨{ train with addAttrIdList := ids }, none, ?_, .inr ⟨inner, .inl ⟨rfl, rfl, rfl⟩⟩⟩
        simp [inner]
    | true =>
        obtain ⟨id, selected, paid⟩ := @autoLoop_affordable _ _ none _ (.inr drawn) nofun
          (affordable rfl inner)
        refine ⟨_, some id, ?_, .inr ⟨inner, .inr ⟨id, rfl, rfl, paid⟩⟩⟩
        simp [inner, TrainConfig.trainSelectAddAttr, drawn, selected]

theorem won_of_last {autoSelect : Bool} (hardest : Bool) {starNum : ℕ} {ids : List ℕ}
    (drawn : ids ≠ []) (found : config.stage trial.train.currStage = some data)
    (last : (config.stageList data.layer).getLast? = some trial.train.currStage)
    (enough : ∃ first ∈ config.firstStarNum data.layer, first ≤ trial.train.layerStarNumList.sum + starNum)
    (affordable : autoSelect = true → data.layer ≠ config.trainLayerData.length → config.Affordable (trial.train.canUseStarNum + starNum) ids)
    :
    Won config trial autoSelect
      (config.endLayer ((trial.train.record hardest).addStars starNum) data.layer starNum autoSelect ids)
      (trial.win (config.endLayer ((trial.train.record hardest).addStars starNum) data.layer starNum
        autoSelect ids) data.layer) := by
  obtain ⟨same, stage, list, pending⟩ := record_same trial.train hardest
  obtain ⟨first, found', le⟩ := enough
  have stars : ((trial.train.record hardest).addStars starNum).layerStarNumList =
      trial.train.layerStarNumList ++ [starNum] := congrArg (· ++ [starNum]) list
  have sum : ((trial.train.record hardest).addStars starNum).layerStarNumList.sum =
      starsOf (trial.passed ++ [⟨trial.train.currStage, data.layer, starNum⟩]) data.layer := by
    rw [stars, sound.layered.sum_append found open_]
  have usable : ((trial.train.record hardest).addStars starNum).canUseStarNum =
      trial.train.canUseStarNum + starNum := congrArg (· + (starNum : ℤ)) same.usable
  obtain ⟨reward, rewarded⟩ : ∃ reward, config.layerReward data.layer
      ((trial.train.record hardest).addStars starNum).layerStarNumList.sum = some reward := by
    refine isSome_layerReward found' ?_
    rw [stars, List.sum_append]
    simpa using le
  have accounts := (sound.accounts.of_same same).addStars ⟨trial.train.currStage, data.layer, starNum⟩
  have peak : (trial.train.record hardest).currStarNum + starNum =
      ((trial.train.record hardest).addStars starNum).currStarNum := rfl
  have rewards : ∀ entry ∈ trial.rewards ++ [⟨data.layer, starsOf (trial.passed ++
      [⟨trial.train.currStage, data.layer, starNum⟩]) data.layer, reward⟩],
      config.layerReward entry.layer entry.won = some entry.reward := by
    intro entry mem
    rcases List.mem_append.mp mem with mem | mem
    · exact sound.rewards entry mem
    · cases List.mem_singleton.mp mem
      rw [← sum]
      exact rewarded
  obtain ⟨ended, picked, victory, cases⟩ := @endLayer_spec config
    ((trial.train.record hardest).addStars starNum) data.layer starNum reward autoSelect ids drawn
    (pending.trans open_) rewarded (usable ▸ affordable)
  rw [victory]
  have next : ended.currStage = trial.train.currStage ∧ ended.currStarNum =
      ((trial.train.record hardest).addStars starNum).currStarNum := by
    rcases cases with ⟨-, rfl, -⟩ | ⟨-, ⟨-, rfl, -⟩ | ⟨id, rfl, -, -⟩⟩
    · exact ⟨stage, rfl⟩
    · exact ⟨stage, rfl⟩
    · exact ⟨stage, rfl⟩
  have goOn : ended.goOn.currStage = trial.train.currStage + 1 := congrArg (· + 1) next.1
  have summed : Accounts config ended (trial.passed ++ [⟨trial.train.currStage, data.layer, starNum⟩])
      (trial.selected ++ picked.toList) (max trial.peak ended.currStarNum) := by
    rw [next.2, ← peak]
    rcases cases with ⟨-, rfl, rfl⟩ | ⟨-, ⟨-, rfl, rfl⟩ | ⟨id, rfl, rfl, paid⟩⟩
    · simpa using accounts
    · have drawn : Accounts config
          { ((trial.train.record hardest).addStars starNum) with addAttrIdList := ids } _ _ _ :=
        accounts.of_same ⟨rfl, rfl, rfl, rfl⟩
      simpa using drawn
    · have drawn : Accounts config
          { ((trial.train.record hardest).addStars starNum) with addAttrIdList := ids } _ _ _ :=
        accounts.of_same ⟨rfl, rfl, rfl, rfl⟩
      exact drawn.addAttr paid
  have layered : Layered config ended.goOn
      (trial.passed ++ [⟨trial.train.currStage, data.layer, starNum⟩]) := by
    rcases cases with ⟨final, rfl, rfl⟩ | ⟨-, ⟨-, rfl, rfl⟩ | ⟨id, rfl, rfl, paid⟩⟩
    · exact sound.layered.final found last final starNum goOn (pending.trans open_)
    · exact sound.layered.last found last starNum goOn drawn
    · have begun : Layered config { ((trial.train.record hardest).addStars starNum).goOn with
          addAttrIdList := ids } _ := sound.layered.last found last starNum goOn drawn
      exact begun.addAttr drawn id
  refine ⟨⟨?_, ?_, ?_⟩, ?_, ?_⟩
  · have same : Accounts config ended.goOn _ _ (max trial.peak ended.goOn.currStarNum) :=
      summed.of_same ⟨rfl, rfl, rfl, rfl⟩
    simpa [Trial.win] using same
  · simpa [Trial.win] using layered
  · simpa [Trial.win] using rewards
  · intro auto
    rcases cases with ⟨-, rfl, -⟩ | ⟨-, ⟨manual, -, -⟩ | ⟨id, rfl, -, -⟩⟩
    · exact pending.trans open_
    · exact absurd auto (by simp [manual])
    · rfl
  · intro _ other found''
    cases found.symm.trans found''
    exact ⟨goOn, .inr last⟩

end

end

end UEServer.Train
