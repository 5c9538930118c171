import UEServer.Library.Dict
import UEServer.Traitor.Role

/-!
# The rewards of a role for traitors

Feats and their rewards in `agent/meta_table/traitor.lua`, and the claims of the rewards of the traitor
boss.  The state has a log of what has been granted since the last reset.
-/

namespace UEServer.TraitorBoss

/-- A row of `TraitorRewardData`. -/
structure FeatsRow where
  requireFeats : Int
  itemId : ℕ
  itemCount : Int

structure RewardConfig extends RoleConfig where
  /-- `TraitorRewardData`, from 1 on. -/
  traitorRewardData : List FeatsRow
  /-- `traitor_feats_ratio`. -/
  featsRatio : Int
  /-- `item_dict` of the `RewardData` of a row of `TraitorBossRewardData`. -/
  itemDict : Int → List (ℕ × Int)

/-- A row of `TraitorRewardData` by its id. -/
def RewardConfig.featsRow (cfg : RewardConfig) (id : Int) : Option FeatsRow :=
  if id ≤ 0 then none else cfg.traitorRewardData[(id - 1).toNat]?

/-- The feats in `traitor` of a role. -/
structure Feats where
  feats : Int
  featsReward : Int → Bool

/-- What `daily_traitor` writes. -/
def Feats.daily : Feats where
  feats := 0
  featsReward := fun _ => false

/-- The feats for a challenge; at some hours they are doubled. -/
def Feats.challenge (traitor : Feats) (featsRatio hurt : Int) (double : Bool) : Feats :=
  let feats := (if double then 2 * hurt else hurt) / featsRatio
  { traitor with feats := traitor.feats + if feats < 1 then 1 else feats }

/-- What a claim of feats rewards has granted so far. -/
structure FeatsClaim where
  featsReward : Int → Bool
  granted : List Int
  itemDict : Table ℕ Int

def Feats.claim (traitor : Feats) : FeatsClaim where
  featsReward := traitor.featsReward
  granted := []
  itemDict := Table.empty

def FeatsClaim.grant (claim : FeatsClaim) (id : Int) (row : FeatsRow) : FeatsClaim where
  featsReward := fun other => other = id || claim.featsReward other
  granted := claim.granted ++ [id]
  itemDict := claim.itemDict.increase row.itemId row.itemCount

/-- The loop of `get_feats_reward`. -/
def featsLoop (feats : Int) : Int → List FeatsRow → FeatsClaim → FeatsClaim
  | _, [], claim => claim
  | index, row :: rows, claim =>
      if feats < row.requireFeats then claim
      else featsLoop feats (index + 1) rows
        (if claim.featsReward index then claim else claim.grant index row)

/-- `get_feats_reward`; nothing if it raises. -/
def RewardConfig.getFeatsReward (cfg : RewardConfig) (traitor : Feats) :
    Option Int → Option FeatsClaim
  | some rewardId => (cfg.featsRow rewardId).map fun row =>
      if traitor.feats < row.requireFeats then traitor.claim else traitor.claim.grant rewardId row
  | none => some (featsLoop traitor.feats 1 cfg.traitorRewardData traitor.claim)

/-- The ids that `get_traitor_boss_reward` takes; `reward_dict` has ids of the table. -/
def RoleBoss.rewardIdList (cfg : RewardConfig) (role : RoleBoss) : Option Int → List Int
  | some rewardId => if role.rewardDict rewardId = some true then [rewardId] else []
  | none => (cfg.rewardData.map Prod.fst).dedup.filter fun id => role.rewardDict id = some true

def RewardConfig.bossItemDict (cfg : RewardConfig) (ids : List Int) : Table ℕ Int :=
  ids.foldl (fun itemDict id => itemDict.addList (cfg.itemDict id)) Table.empty

inductive Reward where
  | feats (id : Int)
  | boss (id : Int)

/-- The role, with what it has been granted. -/
structure RewardState where
  role : RoleState
  traitor : Feats
  items : Table ℕ Int
  rewards : List Reward
  /-- The feats rewards since the last day began. -/
  featsGranted : List Int
  /-- The rewards of the boss since the role's record was reset. -/
  bossGranted : List Int
  topLevel : Int
  raised : Bool

def RewardState.initial : RewardState where
  role := roleInitial
  traitor := Feats.daily
  items := Table.empty
  rewards := []
  featsGranted := []
  bossGranted := []
  topLevel := roleInitial.boss.bossLevel
  raised := false

inductive RewardLabel where
  | boss (label : RoleLabel)
  | challengeTraitor (hurt : Int) (double : Bool)
  | getFeatsReward (rewardId : Option Int)
  | dailyTraitor

def RoleState.resets (state : RoleState) : RoleLabel → Bool
  | .openBoss => state.online
  | .login => state.boss.isOpen && !state.record.isOpen
  | _ => false

section
variable (cfg : RewardConfig)

/-- The rewards that a label takes from the boss. -/
def RoleState.granted (state : RoleState) : RoleLabel → List Int
  | .act (.takeReward rewardId) => state.record.rewardIdList cfg rewardId
  | _ => []

/-- The boss and the role's record of it go on. -/
def RewardState.bossStep (state : RewardState) (label : RoleLabel) (next : RoleState) : RewardState :=
  let granted := state.role.granted cfg label
  { state with
    role := next
    items := state.items.addAll (cfg.bossItemDict granted)
    rewards := state.rewards ++ granted.map .boss
    bossGranted := if state.role.resets label then [] else state.bossGranted ++ granted
    topLevel :=
      if state.role.resets label then next.boss.bossLevel else max state.topLevel next.boss.bossLevel
    raised := state.raised || granted.any fun id => (cfg.rewardData.lookup id).isNone }

/-- A claim of feats rewards. -/
def RewardState.claimFeats (state : RewardState) (rewardId : Option Int) : RewardState :=
  match cfg.getFeatsReward state.traitor rewardId with
  | none => { state with raised := true }
  | some claim =>
      { state with
        traitor := { state.traitor with featsReward := claim.featsReward }
        items := state.items.addAll claim.itemDict
        rewards := state.rewards ++ claim.granted.map .feats
        featsGranted := state.featsGranted ++ claim.granted }

/-- One step; nothing if it cannot happen. -/
def rewardStep (state : RewardState) : RewardLabel → Option RewardState
  | .boss label => (roleStep cfg.toRoleConfig state.role label).map (state.bossStep cfg label)
  | .challengeTraitor hurt double =>
      if state.role.online then
        some { state with traitor := state.traitor.challenge cfg.featsRatio hurt double }
      else none
  | .getFeatsReward rewardId =>
      if state.role.online then some (state.claimFeats cfg rewardId) else none
  | .dailyTraitor => some { state with traitor := Feats.daily, featsGranted := [] }

/-- The requirement of a reward of the boss is met. -/
def Met (honour topLevel id : Int) : Prop :=
  ∃ row, cfg.rewardData.lookup id = some row ∧
    (RoleBoss.honoured row honour = true ∨ RoleBoss.levelled row topLevel = true)

def RewardConfig.itemsOf : Reward → List (ℕ × Int)
  | .feats id => ((cfg.featsRow id).map fun row => (row.itemId, row.itemCount)).toList
  | .boss id => cfg.itemDict id

/-- The rewards are granted once, and for what they require. -/
structure GrantedOnce (state : RewardState) : Prop where
  featsOnce : state.featsGranted.Nodup
  featsMet : ∀ id ∈ state.featsGranted, ∃ row, cfg.featsRow id = some row ∧
    row.requireFeats ≤ state.traitor.feats
  /-- No reward of the boss is granted twice in one activity. -/
  bossOnce : state.bossGranted.Nodup
  bossMet : ∀ id ∈ state.bossGranted, Met cfg state.role.record.honour state.topLevel id
  /-- The role has the items of the rewards that were granted, and no others. -/
  items : ∀ item, state.items.read item =
    (((state.rewards.flatMap cfg.itemsOf).filter fun entry => entry.1 = item).map Prod.snd).sum
  quiet : state.raised = false
  /-- A claim of an unknown reward of the boss, or of one that was granted, does nothing. -/
  refused : ∀ id, state.role.record.rewardDict id ≠ some true →
    state.role.record.rewardIdList cfg (some id) = [] ∧
      state.role.record.takeReward (some id) = state.role.record
  granted : ∀ id ∈ state.bossGranted, state.role.record.rewardDict id = none

/-- A claim of one feats reward names a known one that has not been granted. -/
def Fresh (state : RewardState) : RewardLabel → Prop
  | .getFeatsReward (some rewardId) =>
      (cfg.featsRow rewardId).isSome = true ∧ state.traitor.featsReward rewardId = false
  | _ => True

instance (state : RewardState) : (label : RewardLabel) → Decidable (Fresh cfg state label)
  | .getFeatsReward (some rewardId) => inferInstanceAs (Decidable
      ((cfg.featsRow rewardId).isSome = true ∧ state.traitor.featsReward rewardId = false))
  | .getFeatsReward none | .boss _ | .challengeTraitor _ _ | .dailyTraitor => isTrue trivial

end

end UEServer.TraitorBoss
