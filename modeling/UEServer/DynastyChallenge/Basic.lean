import UEServer.Library.Execution
import UEServer.Rank.Basic

/-!
# Dynasty challenges

The challenge of a dynasty in `dynasty.lua` and `dynasty_utils.lua`, during one period of it.  The members
fight the janitors of a stage; each janitor that is defeated leaves boxes, and the members are ranked by
the greatest hurt.  What a fight leaves of a janitor, and the draws of the boxes' places, come with the
operation.  Positions in lists are counted from 0.
-/

namespace UEServer.DynastyChallenge

structure Box where
  value : ℕ
  /-- `role_name`, when the box has been given. -/
  roleName : Option String
  deriving DecidableEq

structure JanitorInfo where
  hpDict : List ℚ
  rewardList : List Box
  deriving DecidableEq

/-- `ChallengeJanitorData`. -/
structure JanitorData where
  /-- The `max_hp` of each of the janitor's units. -/
  hps : List ℚ
  /-- `box_reward_num` and `box_reward_value`. -/
  boxReward : List (ℕ × ℕ)

structure Config where
  /-- `dynasty_challenge_init_num`. -/
  initNum : ℤ
  /-- The length of `DynastyChallengeData`. -/
  stageNum : ℕ
  /-- `janitor_list` of each stage. -/
  janitorList : ℕ → List ℕ
  janitorData : ℕ → JanitorData

/-- What a dynasty knows about a member. -/
structure MemberInfo where
  name : String
  challengeNum : ℤ
  challengeTotalNum : ℕ
  maxChallengeHurt : Option ℚ
  /-- `stage_box`: for each stage it knows, the janitors whose boxes the member has got. -/
  stageBox : ℕ → Option (ℕ → Bool)

/-- `CSConst.DynastyChallenge`, during a period. -/
inductive Phase where
  | opened
  | closed
  deriving DecidableEq

structure Given (υ : Type*) where
  uuid : υ
  stage : ℕ
  janitor : ℕ
  index : ℕ
  value : ℕ
  deriving DecidableEq

structure State (υ : Type*) where
  /-- `challenge_flag`. -/
  flag : Phase
  memberDict : υ → Option MemberInfo
  memberCount : ℕ
  isApply : Bool
  dissolved : Bool
  currStage : ℕ
  maxVictoryStage : ℕ
  /-- `stage_dict`, with the `janitor_dict` of each stage. -/
  stageDict : ℕ × ℕ → Option JanitorInfo
  /-- `hurt_rank`, and `rank` of each of its objects. -/
  hurtRank : Rank.Ranked υ
  challengeRoleDict : υ → Bool
  /-- `max_hurt` of each object. -/
  maxHurt : υ → ℚ
  given : List (Given υ)

def JanitorInfo.hp (info : JanitorInfo) : ℚ := info.hpDict.sum

def MemberInfo.Best (member : MemberInfo) (hurt : ℚ) : Prop :=
  ∀ max ∈ member.maxChallengeHurt, max < hurt

instance (member : MemberInfo) (hurt : ℚ) : Decidable (member.Best hurt) :=
  inferInstanceAs (Decidable (∀ max ∈ member.maxChallengeHurt, max < hurt))

/-- The draws of `build_janitor_info`: every value gets a place that is still free. -/
def placeBoxes : List ℕ → List ℕ → List ℕ → List Box → List Box
  | place :: places, value :: values, draw :: draws, boxes =>
      let index := draw % (place :: places).length
      placeBoxes ((place :: places).eraseIdx index) values draws
        (boxes.set ((place :: places).getD index 0) ⟨value, none⟩)
  | _, _, _, boxes => boxes

def JanitorData.rewardList (data : JanitorData) (draws : List ℕ) : List Box :=
  let values := data.boxReward.flatMap fun reward => List.replicate reward.1 reward.2
  placeBoxes (List.range values.length) values draws (List.replicate values.length ⟨0, none⟩)

def Config.buildJanitorInfo (config : Config) (draws : ℕ → List ℕ) (stage id : ℕ) :
    Option JanitorInfo :=
  if id ∈ config.janitorList stage then
    some ⟨(config.janitorData id).hps, (config.janitorData id).rewardList (draws id)⟩
  else none

def MemberInfo.new (config : Config) (name : String) (currStage : ℕ) : MemberInfo where
  name := name
  challengeNum := config.initNum
  challengeTotalNum := 0
  maxChallengeHurt := some 0
  stageBox := Function.update (fun _ => none) currStage (some fun _ => false)

/-- `challenge_open`, for a dynasty with these members. -/
def challengeOpen {υ : Type*} (config : Config) (draws : ℕ → List ℕ) (names : υ → Option String)
    (memberCount : ℕ) (isApply : Bool) (currStage maxVictoryStage : ℕ) : State υ where
  flag := .opened
  memberDict uuid := (names uuid).map fun name => .new config name currStage
  memberCount := memberCount
  isApply := isApply
  dissolved := false
  currStage := currStage
  maxVictoryStage := maxVictoryStage
  stageDict key := if key.1 = currStage then config.buildJanitorInfo draws key.1 key.2 else none
  hurtRank := ⟨[], fun _ => none⟩
  challengeRoleDict _ := false
  maxHurt _ := 0
  given := []

namespace State

variable {υ : Type*} [DecidableEq υ]

/-- `add_challenge_hurt_rank`; nothing if it raises. -/
def addChallengeHurtRank (state : State υ) (uuid : υ) (maxHurt : ℚ) : Option (State υ) :=
  let hurtRank :=
    if state.challengeRoleDict uuid then state.hurtRank
    else { state.hurtRank with rank := Function.update state.hurtRank.rank uuid none }
  let maxHurts := Function.update state.maxHurt uuid maxHurt
  (Rank.updateSortedList maxHurts hurtRank uuid true).map fun sorted =>
    { state with
      hurtRank := sorted
      challengeRoleDict := Function.update state.challengeRoleDict uuid true
      maxHurt := maxHurts }

/-- All janitors of the current stage are defeated. -/
def Defeated (state : State υ) (config : Config) : Prop :=
  ∀ id ∈ config.janitorList state.currStage, ∀ info ∈ state.stageDict (state.currStage, id),
    ∀ hp ∈ info.hpDict, hp ≤ 0

omit [DecidableEq υ] in
instance (state : State υ) (config : Config) : Decidable (state.Defeated config) :=
  inferInstanceAs (Decidable (∀ _ ∈ _, ∀ _ ∈ _, ∀ _ ∈ _, _ ≤ _))

def unlockChallengeStage (state : State υ) (config : Config) (draws : ℕ → List ℕ) : State υ :=
  if state.Defeated config then
    let won := { state with maxVictoryStage := max state.maxVictoryStage state.currStage }
    if config.stageNum ≤ state.currStage then won
    else
      let stage := state.currStage + 1
      { won with
        currStage := stage
        stageDict := fun key =>
          if key.1 = stage then config.buildJanitorInfo draws key.1 key.2 else state.stageDict key
        memberDict := fun uuid => (state.memberDict uuid).map fun member =>
          { member with stageBox := Function.update member.stageBox stage (some fun _ => false) } }
  else state

/-- The part of `dynasty_challenge_janitor` before the ranking: the member has fought the janitor. -/
def fight (state : State υ) (uuid : υ) (member : MemberInfo) (id : ℕ) (info : JanitorInfo)
    (hpDict : List ℚ) : State υ :=
  let hurt := info.hp - hpDict.sum
  { state with
    memberDict := Function.update state.memberDict uuid (some { member with
      challengeNum := member.challengeNum - 1
      challengeTotalNum := member.challengeTotalNum + 1
      maxChallengeHurt := if member.Best hurt then some hurt else member.maxChallengeHurt })
    stageDict := Function.update state.stageDict (state.currStage, id)
      (some { info with hpDict := hpDict }) }

/-- `dynasty_challenge_janitor`; nothing if it raises. -/
def dynastyChallengeJanitor (state : State υ) (config : Config) (uuid : υ) (janitorIndex : ℕ)
    (hpDict : List ℚ) (draws : ℕ → List ℕ) : Option (State υ) :=
  if state.flag ≠ .opened then some state
  else
    match state.memberDict uuid with
    | none => some state
    | some member =>
        if member.challengeNum ≤ 0 then some state
        else
          match (config.janitorList state.currStage)[janitorIndex]? with
          | none => some state
          | some id =>
              match state.stageDict (state.currStage, id) with
              | none => none
              | some info =>
                  if info.hp ≤ 0 then some state
                  else
                    let hurt := info.hp - hpDict.sum
                    let fought := state.fight uuid member id info hpDict
                    (if member.Best hurt then fought.addChallengeHurtRank uuid hurt
                      else some fought).map fun ranked =>
                        if hpDict.sum ≤ 0 then ranked.unlockChallengeStage config draws else ranked

/-- A member gets a box. -/
def giveBox (state : State υ) (uuid : υ) (member : MemberInfo) (stage id : ℕ) (info : JanitorInfo)
    (taken : ℕ → Bool) (index : ℕ) (box : Box) : State υ :=
  { state with
    memberDict := Function.update state.memberDict uuid (some { member with
      stageBox := Function.update member.stageBox stage (some (Function.update taken id true)) })
    stageDict := Function.update state.stageDict (stage, id) (some { info with
      rewardList := info.rewardList.set index { box with roleName := some member.name } })
    given := state.given ++ [⟨uuid, stage, id, index, box.value⟩] }

def getChallengeJanitorBox (state : State υ) (config : Config) (uuid : υ)
    (stage janitorIndex boxIndex : ℕ) : State υ :=
  match state.memberDict uuid, (config.janitorList stage)[janitorIndex]? with
  | some member, some id =>
      match state.stageDict (stage, id) with
      | none => state
      | some info =>
          if 0 < info.hp then state
          else
            match info.rewardList[boxIndex]? with
            | none => state
            | some box =>
                if box.roleName.isSome then state
                else
                  -- A stage that the member's `stage_box` does not know raises.
                  match member.stageBox stage with
                  | none => state
                  | some taken =>
                      if taken id then state
                      else state.giveBox uuid member stage id info taken boxIndex box
  | _, _ => state

/-- One janitor in `get_challenge_all_box`. -/
def autoBox (uuid : υ) (state : State υ) (key : ℕ × ℕ) : State υ :=
  match state.memberDict uuid, state.stageDict key with
  | some member, some info =>
      match member.stageBox key.1 with
      | none => state
      | some taken =>
          if info.hp ≤ 0 ∧ taken key.2 = false then
            match info.rewardList.findIdx? fun box => box.roleName.isNone with
            | none => state
            | some index =>
                match info.rewardList[index]? with
                | none => state
                | some box => state.giveBox uuid member key.1 key.2 info taken index box
          else state
  | _, _ => state

/-- `get_challenge_all_box`, which goes over the janitors of all stages in any order. -/
def getChallengeAllBox (state : State υ) (uuid : υ) (order : List (ℕ × ℕ)) : State υ :=
  order.foldl (autoBox uuid) state

/-- The janitors of all stages, when they are in this order. -/
def Ordered (state : State υ) (config : Config) (order : List (ℕ × ℕ)) : Prop :=
  order.Nodup ∧ (∀ key ∈ order, (state.stageDict key).isSome) ∧
    ∀ stage ∈ List.range (state.currStage + 1), ∀ id ∈ config.janitorList stage,
      (state.stageDict (stage, id)).isSome → (stage, id) ∈ order

omit [DecidableEq υ] in
instance (state : State υ) (config : Config) (order : List (ℕ × ℕ)) :
    Decidable (state.Ordered config order) :=
  inferInstanceAs (Decidable (_ ∧ (∀ _ ∈ _, _) ∧ ∀ _ ∈ _, ∀ _ ∈ _, _))

/-- `delete_dynasty_member`, for a member that leaves or is kicked. -/
def deleteDynastyMember (state : State υ) (uuid : υ) : State υ :=
  if state.memberCount ≤ 1 ∧ state.isApply then state
  else
    match state.memberDict uuid with
    | none => state
    | some _ =>
        if state.memberCount ≤ 1 then { state with dissolved := true }
        else
          { state with
            memberDict := Function.update state.memberDict uuid none
            memberCount := state.memberCount - 1 }

/-- `add_dynasty_member`, for a role that has applied. -/
def addDynastyMember (state : State υ) (config : Config) (uuid : υ) (name : String) : State υ :=
  { state with
    memberDict := Function.update state.memberDict uuid (some (.new config name state.currStage))
    memberCount := state.memberCount + 1 }

/-- Members get more challenges, from `challenge_num_recover` or `add_challenge_num`. -/
def addChallengeNum (state : State υ) (more : υ → ℤ) : State υ :=
  { state with
    memberDict := fun uuid => (state.memberDict uuid).map fun member =>
      { member with challengeNum := member.challengeNum + more uuid } }

omit [DecidableEq υ] in
/-- A row of the ranking: the name, how often the member has fought, the hurt and the rank. -/
def rankRow (state : State υ) (uuid : υ) : Option (String × ℕ × ℚ × Option ℕ) :=
  (state.memberDict uuid).map fun member =>
    (member.name, member.challengeTotalNum, state.maxHurt uuid, state.hurtRank.rank uuid)

omit [DecidableEq υ] in
/-- `get_dynasty_challenge_rank`, for a member: the ranking, and the member's own row if it has one;
nothing if it raises. -/
def getDynastyChallengeRank (state : State υ) (uuid : υ) :
    Option (List (String × ℕ × ℚ × Option ℕ) × Option (String × ℕ × ℚ × Option ℕ)) := do
  let rankList ← state.hurtRank.list.mapM state.rankRow
  if state.challengeRoleDict uuid then
    let selfRank ← state.rankRow uuid
    some (rankList, some selfRank)
  else some (rankList, none)

end State

inductive Event (υ : Type*) where
  /-- A member challenges a janitor, and the fight leaves it these hit points. -/
  | challenge (uuid : υ) (janitorIndex : ℕ) (hpDict : List ℚ) (draws : ℕ → List ℕ)
  | janitorBox (uuid : υ) (stage janitorIndex boxIndex : ℕ)
  | allBox (uuid : υ) (order : List (ℕ × ℕ))
  | leave (uuid : υ)
  | join (uuid : υ) (name : String)
  | recover (more : υ → ℤ)
  | close

/-- One operation. -/
def step {υ : Type*} [DecidableEq υ] (config : Config) (state : State υ) (event : Event υ) :
    Option (State υ) :=
  if state.dissolved then none
  else
    match event with
    | .challenge uuid janitorIndex hpDict draws =>
        state.dynastyChallengeJanitor config uuid janitorIndex hpDict draws
    | .janitorBox uuid stage janitorIndex boxIndex =>
        some (state.getChallengeJanitorBox config uuid stage janitorIndex boxIndex)
    | .allBox uuid order =>
        if state.Ordered config order then some (state.getChallengeAllBox uuid order) else none
    | .leave uuid => some (state.deleteDynastyMember uuid)
    | .join uuid name =>
        if state.memberDict uuid = none then some (state.addDynastyMember config uuid name) else none
    | .recover more => some (state.addChallengeNum more)
    | .close => some { state with flag := .closed }

end UEServer.DynastyChallenge
