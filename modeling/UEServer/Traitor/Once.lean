import UEServer.Traitor.Follow
import UEServer.Traitor.Rewards

/-!
# Rewards are granted once

A reward of the boss is marked when its requirement is met and loses its mark when it is taken; nothing
else changes its state until the record is reset.  A claim of one feats reward does not look whether it
was granted, so the feats rewards are granted once exactly if no such claim repeats another.
-/

namespace UEServer.TraitorBoss

open Execution

section
variable {cfg : RewardConfig}

theorem Met.mono {honour more level higher id : Int} (met : Met cfg honour level id)
    (raised : honour ≤ more) (risen : level ≤ higher) : Met cfg more higher id := by
  obtain ⟨row, found, reached⟩ := met
  refine ⟨row, found, ?_⟩
  rcases reached with honoured | levelled
  · left
    obtain ⟨required, same, enough⟩ := (Option.any_eq_true _ _).mp honoured
    have enough := of_decide_eq_true enough
    exact (Option.any_eq_true _ _).mpr ⟨required, same, decide_eq_true (le_trans enough raised)⟩
  · right
    obtain ⟨required, same, enough⟩ := (Option.any_eq_true _ _).mp levelled
    have enough := of_decide_eq_true enough
    exact (Option.any_eq_true _ _).mpr ⟨required, same, decide_eq_true (le_trans enough risen)⟩

/-- What happens to a record between two resets, except for claims: the honour grows, and rewards are
marked whose requirement is met. -/
structure Evolves (cfg : RewardConfig) (topLevel : Int) (role next : RoleBoss) : Prop where
  honour : role.honour ≤ next.honour
  rewards : ∀ id, next.rewardDict id = role.rewardDict id ∨
    role.rewardDict id = some false ∧ next.rewardDict id = some true ∧ Met cfg next.honour topLevel id

variable {topLevel : Int} {role next other : RoleBoss} {state after : RoleState}

theorem evolves_of_same (honour : next.honour = role.honour)
    (rewards : next.rewardDict = role.rewardDict) : Evolves cfg topLevel role next where
  honour := honour.ge
  rewards := fun id => .inl (congrFun rewards id)

theorem Evolves.refl (role : RoleBoss) : Evolves cfg topLevel role role :=
  evolves_of_same rfl rfl

theorem Evolves.trans (first : Evolves cfg topLevel role next) (second : Evolves cfg topLevel next other) :
    Evolves cfg topLevel role other where
  honour := le_trans first.honour second.honour
  rewards := by
    intro id
    rcases first.rewards id with kept | ⟨locked, marked, met⟩
    · rw [← kept]
      exact second.rewards id
    · rcases second.rewards id with same | ⟨unmarked, -⟩
      · exact .inr ⟨locked, same.trans marked, met.mono second.honour le_rfl⟩
      · cases marked.symm.trans unmarked

theorem Evolves.mono {higher : Int} (evolves : Evolves cfg topLevel role next)
    (risen : topLevel ≤ higher) : Evolves cfg higher role next where
  honour := evolves.honour
  rewards := by
    intro id
    rcases evolves.rewards id with kept | ⟨locked, marked, met⟩
    · exact .inl kept
    · exact .inr ⟨locked, marked, met.mono le_rfl risen⟩

theorem evolves_setRewardDict (role : RoleBoss) {bossLevel : Option Int}
    (low : ∀ level ∈ bossLevel, level ≤ topLevel) :
    Evolves cfg topLevel role (role.setRewardDict cfg.toRoleConfig bossLevel) where
  honour := le_rfl
  rewards := by
    intro id
    cases found : cfg.rewardData.lookup id with
    | none => exact .inl (setRewardDict_unlisted found bossLevel role)
    | some row =>
        rw [setRewardDict_apply found]
        split
        · rename_i marks
          obtain ⟨locked, reached⟩ := marks
          refine .inr ⟨locked, rfl, row, found, ?_⟩
          rcases (Bool.or_eq_true _ _).mp reached with honoured | levelled
          · exact .inl honoured
          · right
            obtain ⟨level, same, levelled⟩ := (Option.any_eq_true _ _).mp levelled
            obtain ⟨required, same', enough⟩ := (Option.any_eq_true _ _).mp levelled
            have enough := le_trans (of_decide_eq_true enough) (low level same)
            exact (Option.any_eq_true _ _).mpr ⟨required, same', decide_eq_true enough⟩
        · exact .inl rfl

theorem evolves_hurtBoss (role : RoleBoss) (param hurt : Int) :
    Evolves cfg topLevel role (role.hurtBoss cfg.toRoleConfig param hurt) := by
  have raised : Evolves cfg topLevel role { role with
      maxHurt := if role.maxHurt < hurt then hurt else role.maxHurt
      honour := role.honour + if hurt / param < 1 then 1 else hurt / param } := by
    refine ⟨?_, fun id => .inl rfl⟩
    dsimp only
    split <;> omega
  exact raised.trans (evolves_setRewardDict _ nofun)

theorem evolves_notify {change : RoleBoss → RoleBoss}
    (evolves : Evolves cfg topLevel state.record (change state.record)) :
    Evolves cfg topLevel state.record (state.notify change).record := by
  rw [RoleState.notify]
  split
  · exact evolves
  · exact Evolves.refl _

theorem evolves_onHurt (state : RoleState) (hpDict : List (Nat × Int)) (roleName : String)
    (reviveTs : Int) :
    Evolves cfg (state.onHurt cfg.toRoleConfig hpDict roleName reviveTs).boss.bossLevel state.record
      (state.onHurt cfg.toRoleConfig hpDict roleName reviveTs).record := by
  rw [RoleState.onHurt]
  split
  · refine @evolves_notify cfg _ { state with
      boss := BossData.died cfg.toConfig { state.boss with hpDict := hpDict } roleName reviveTs
      missed := { state.missed with died := true } } _ (evolves_setRewardDict _ ?_)
    rintro level same
    cases same
    exact le_refl _
  · exact Evolves.refl _

theorem evolves_challenge (state : RoleState) (hpDict : List (Nat × Int)) (roleName : String)
    (reviveTs : Int) :
    Evolves cfg (state.challenge cfg.toRoleConfig hpDict roleName reviveTs).boss.bossLevel state.record
      (state.challenge cfg.toRoleConfig hpDict roleName reviveTs).record := by
  rw [RoleState.challenge]
  split
  · exact Evolves.refl _
  · have hurt := @evolves_onHurt cfg
      (state.notify fun role => { role with challengeNum := role.challengeNum - 1 }) hpDict roleName reviveTs
    refine (Evolves.trans ?_ hurt).trans (evolves_notify (evolves_hurtBoss _ _ _))
    exact evolves_notify (evolves_of_same rfl rfl)

theorem evolves_load (boss : BossData) (role : RoleBoss) :
    Evolves cfg boss.bossLevel
      (if boss.isOpen && !role.isOpen then RoleBoss.opened cfg.toRoleConfig else role)
      (role.load cfg.toRoleConfig boss) := by
  have synced : Evolves cfg boss.bossLevel
      (if boss.isOpen && !role.isOpen then RoleBoss.opened cfg.toRoleConfig else role)
      (role.synced cfg.toRoleConfig boss) := by
    rw [RoleBoss.synced]
    rcases boss.isOpen with _ | _
    · rcases role.isOpen with _ | _
      · exact Evolves.refl _
      · exact evolves_of_same rfl rfl
    · rcases role.isOpen with _ | _
      · exact Evolves.refl _
      · change Evolves cfg boss.bossLevel role
          (if role.challengeRecoverNum < boss.challengeRecoverNum then _ else role)
        split
        · exact evolves_of_same rfl rfl
        · exact Evolves.refl _
  refine synced.trans (evolves_setRewardDict _ ?_)
  rintro level same
  cases same
  omega

theorem roleStep_evolves {label : RoleLabel} (taken : roleStep cfg.toRoleConfig state label = some after)
    (claims : ∀ rewardId, label ≠ .act (.takeReward rewardId)) :
    Evolves cfg after.boss.bossLevel
      (if state.resets label then RoleBoss.opened cfg.toRoleConfig else state.record) after.record := by
  cases label with
  | openBoss =>
      cases taken
      exact Evolves.refl _
  | closeBoss =>
      rw [roleStep] at taken
      split at taken
      · cases taken
        exact evolves_notify (evolves_of_same rfl rfl)
      · cases taken
  | recover =>
      rw [roleStep] at taken
      split at taken
      · cases taken
        exact evolves_notify (evolves_of_same rfl rfl)
      · cases taken
  | hurt hpDict roleName reviveTs =>
      rw [roleStep] at taken
      split at taken
      · cases taken
        exact evolves_onHurt state hpDict roleName reviveTs
      · cases taken
  | revive =>
      cases taken
      exact Evolves.refl _
  | login =>
      rw [roleStep] at taken
      split at taken
      · cases taken
      · cases taken
        exact evolves_load state.boss state.record
  | logout =>
      rw [roleStep] at taken
      split at taken
      · cases taken
        exact Evolves.refl _
      · cases taken
  | act action =>
      rw [roleStep] at taken
      split at taken
      · cases taken
        cases action with
        | challenge hpDict roleName reviveTs => exact evolves_challenge state hpDict roleName reviveTs
        | crossFight hurt =>
            have spent : Evolves cfg state.boss.bossLevel state.record
                { state.record with challengeNum := state.record.challengeNum - 1 } :=
              evolves_of_same rfl rfl
            exact evolves_notify (spent.trans (evolves_hurtBoss _ _ hurt))
        | buy num maxBuyNum consumed =>
            apply evolves_notify
            rw [RoleBoss.buy]
            split
            · exact Evolves.refl _
            · exact evolves_of_same rfl rfl
        | takeReward rewardId => exact absurd rfl (claims rewardId)
      · cases taken

variable {rewardId : Option Int} {id : Int}

theorem mem_rewardIdList
    (mem : id ∈ role.rewardIdList cfg rewardId) :
    role.rewardDict id = some true ∧ ∀ only ∈ rewardId, only = id := by
  cases rewardId with
  | none =>
      obtain ⟨-, marked⟩ := List.mem_filter.mp mem
      exact ⟨of_decide_eq_true marked, nofun⟩
  | some rewardId =>
      rw [RoleBoss.rewardIdList] at mem
      split at mem
      · rename_i marked
        cases List.mem_singleton.mp mem
        refine ⟨marked, ?_⟩
        rintro only same
        exact (Option.some.inj same).symm
      · exact absurd mem List.not_mem_nil

theorem nodup_rewardIdList (role : RoleBoss) (rewardId : Option Int) :
    (role.rewardIdList cfg rewardId).Nodup := by
  cases rewardId with
  | none => exact (List.nodup_dedup _).filter _
  | some rewardId =>
      rw [RoleBoss.rewardIdList]
      split
      · exact List.nodup_singleton _
      · exact List.nodup_nil

theorem takeReward_taken
    (mem : id ∈ role.rewardIdList cfg rewardId) : (role.takeReward rewardId).rewardDict id = none :=
  if_pos (mem_rewardIdList mem)

theorem takeReward_none (taken : role.rewardDict id = none) :
    (role.takeReward rewardId).rewardDict id = none := by
  rw [RoleBoss.takeReward]
  dsimp only
  split
  · rfl
  · exact taken

theorem marked_of_takeReward
    (marked : (role.takeReward rewardId).rewardDict id = some true) :
    role.rewardDict id = some true := by
  rw [RoleBoss.takeReward] at marked
  dsimp only at marked
  split at marked
  · cases marked
  · exact marked

theorem takeReward_refused (unmarked : role.rewardDict id ≠ some true) :
    role.rewardIdList cfg (some id) = [] ∧ role.takeReward (some id) = role := by
  refine ⟨if_neg unmarked, ?_⟩
  have rewards : (role.takeReward (some id)).rewardDict = role.rewardDict := by
    funext other
    refine if_neg ?_
    rintro ⟨marked, only⟩
    obtain rfl := only id rfl
    exact unmarked marked
  ext : 1
  case rewardDict => exact rewards
  all_goals rfl

def worth (cfg : RewardConfig) (rewards : List Reward) (item : ℕ) : Int :=
  (((rewards.flatMap cfg.itemsOf).filter fun entry => entry.1 = item).map Prod.snd).sum

theorem worth_append (rewards more : List Reward) (item : ℕ) :
    worth cfg (rewards ++ more) item = worth cfg rewards item + worth cfg more item := by
  simp only [worth, List.flatMap_append, List.filter_append, List.map_append, List.sum_append]

theorem read_bossItemDict (ids : List Int) (item : ℕ) :
    (cfg.bossItemDict ids).read item = worth cfg (ids.map .boss) item := by
  have read : ∀ table : Table ℕ Int,
      (ids.foldl (fun itemDict id => itemDict.addList (cfg.itemDict id)) table).read item =
        table.read item + worth cfg (ids.map .boss) item := by
    induction ids with
    | nil => simp [worth]
    | cons id ids ih =>
        intro table
        have head : worth cfg [.boss id] item =
            (((cfg.itemDict id).filter fun entry => entry.1 = item).map Prod.snd).sum := by
          simp [worth, RewardConfig.itemsOf]
        have split := @worth_append cfg [.boss id] (ids.map .boss) item
        rw [List.foldl_cons, ih, Table.read_addList, List.map_cons, ← List.singleton_append, split, head,
          add_assoc]
  rw [RewardConfig.bossItemDict, read Table.empty, Table.read_empty, zero_add]

/-- What a claim grants is known, paid for and new. -/
structure Claimed (cfg : RewardConfig) (traitor : Feats) (claim : FeatsClaim) : Prop where
  nodup : claim.granted.Nodup
  fresh : ∀ id ∈ claim.granted, traitor.featsReward id = false ∧
    ∃ row, cfg.featsRow id = some row ∧ row.requireFeats ≤ traitor.feats
  reward : ∀ id, claim.featsReward id = true ↔ traitor.featsReward id = true ∨ id ∈ claim.granted
  items : ∀ item, claim.itemDict.read item = worth cfg (claim.granted.map .feats) item

variable {traitor : Feats} {claim : FeatsClaim}

theorem claimed_claim (traitor : Feats) : Claimed cfg traitor traitor.claim where
  nodup := List.nodup_nil
  fresh := nofun
  reward := by simp [Feats.claim]
  items := by simp [Feats.claim, worth]

theorem Claimed.grant (claimed : Claimed cfg traitor claim) {row : FeatsRow}
    (found : cfg.featsRow id = some row) (enough : row.requireFeats ≤ traitor.feats)
    (fresh : claim.featsReward id = false) : Claimed cfg traitor (claim.grant id row) where
  nodup := by
    refine List.nodup_append.mpr ⟨claimed.nodup, List.nodup_singleton id, ?_⟩
    rintro last mem _ same rfl
    obtain rfl := List.mem_singleton.mp same
    have known := (claimed.reward last).mpr (.inr mem)
    cases fresh.symm.trans known
  fresh := by
    intro other mem
    rcases List.mem_append.mp mem with mem | mem
    · exact claimed.fresh other mem
    · obtain rfl := List.mem_singleton.mp mem
      refine ⟨?_, row, found, enough⟩
      rw [← Bool.not_eq_true]
      intro known
      cases fresh.symm.trans ((claimed.reward other).mpr (.inl known))
  reward := by
    intro other
    have reward := claimed.reward other
    simp only [FeatsClaim.grant, Bool.or_eq_true, decide_eq_true_eq, List.mem_append,
      List.mem_singleton, reward]
    tauto
  items := by
    intro item
    have single : worth cfg [.feats id] item = if item = row.itemId then row.itemCount else 0 := by
      by_cases same : row.itemId = item
      · simp [worth, RewardConfig.itemsOf, found, same]
      · simp [worth, RewardConfig.itemsOf, found, same, Ne.symm same]
    rw [FeatsClaim.grant]
    rw [Table.read_increase, claimed.items, List.map_append, worth_append, List.map_singleton, single]

theorem claimed_featsLoop {index : Int} {rows : List FeatsRow} (claimed : Claimed cfg traitor claim)
    (rest : ∀ (k : ℕ) row, rows[k]? = some row → cfg.featsRow (index + k) = some row) :
    Claimed cfg traitor (featsLoop traitor.feats index rows claim) := by
  induction rows generalizing index claim with
  | nil => exact claimed
  | cons row rows ih =>
      rw [featsLoop]
      split
      · exact claimed
      · rename_i enough
        have rest' : ∀ (k : ℕ) row, rows[k]? = some row → cfg.featsRow (index + 1 + k) = some row := by
          intro k row' found
          have later := rest (k + 1) row' found
          rwa [Nat.cast_succ, Int.add_comm (k : Int), ← Int.add_assoc] at later
        split
        · exact ih claimed rest'
        · rename_i unclaimed
          have found : cfg.featsRow index = some row := by
            simpa using rest 0 row rfl
          exact ih (claimed.grant found (not_lt.mp enough) (eq_false_of_ne_true unclaimed)) rest'

theorem claimed_getFeatsReward
    (fresh : ∀ id ∈ rewardId, (cfg.featsRow id).isSome = true ∧ traitor.featsReward id = false) :
    ∃ claim, cfg.getFeatsReward traitor rewardId = some claim ∧ Claimed cfg traitor claim := by
  cases rewardId with
  | none =>
      refine ⟨_, rfl, claimed_featsLoop (claimed_claim traitor) ?_⟩
      intro k row found
      rw [RewardConfig.featsRow, if_neg (by omega)]
      have index : ((1 : Int) + k - 1).toNat = k := by omega
      rw [index, found]
  | some id =>
      obtain ⟨known, unclaimed⟩ := fresh id rfl
      obtain ⟨row, found⟩ := Option.isSome_iff_exists.mp known
      rw [RewardConfig.getFeatsReward, found]
      refine ⟨_, rfl, ?_⟩
      dsimp only
      split
      · exact claimed_claim traitor
      · rename_i enough
        exact (claimed_claim traitor).grant found (not_lt.mp enough) unclaimed

/-- What holds as long as no claim of a feats reward is repeated. -/
structure RewardInv (cfg : RewardConfig) (state : RewardState) : Prop where
  /-- `feats_reward` has what was granted. -/
  claimed : ∀ id, state.traitor.featsReward id = true ↔ id ∈ state.featsGranted
  featsOnce : state.featsGranted.Nodup
  featsMet : ∀ id ∈ state.featsGranted, ∃ row, cfg.featsRow id = some row ∧
    row.requireFeats ≤ state.traitor.feats
  marked : ∀ id, state.role.record.rewardDict id = some true →
    Met cfg state.role.record.honour state.topLevel id
  taken : ∀ id ∈ state.bossGranted, state.role.record.rewardDict id = none ∧
    Met cfg state.role.record.honour state.topLevel id
  bossOnce : state.bossGranted.Nodup
  items : ∀ item, state.items.read item = worth cfg state.rewards item
  quiet : state.raised = false

variable {before : RewardState}

theorem RewardInv.grantedOnce (inv : RewardInv cfg before) : GrantedOnce cfg before where
  featsOnce := inv.featsOnce
  featsMet := inv.featsMet
  bossOnce := inv.bossOnce
  bossMet := fun id mem => (inv.taken id mem).2
  items := inv.items
  quiet := inv.quiet
  refused := fun _ unmarked => takeReward_refused unmarked
  granted := fun id mem => (inv.taken id mem).1

theorem rewardInv_initial : RewardInv cfg RewardState.initial where
  claimed := fun _ => iff_of_false nofun List.not_mem_nil
  featsOnce := List.nodup_nil
  featsMet := nofun
  marked := nofun
  taken := nofun
  bossOnce := List.nodup_nil
  items := fun _ => rfl
  quiet := rfl

section
variable (inv : RewardInv cfg before)
include inv

theorem bossStep_takeReward (rewardId : Option Int)
    (taken : roleStep cfg.toRoleConfig before.role (.act (.takeReward rewardId)) = some after) :
    RewardInv cfg (before.bossStep cfg (.act (.takeReward rewardId)) after) := by
  rw [roleStep] at taken
  split at taken
  · rename_i here
    cases taken
    have record : ((before.role.act cfg.toRoleConfig (.takeReward rewardId))).record =
        before.role.record.takeReward rewardId := if_pos here
    have risen : before.topLevel ≤ (before.bossStep cfg (.act (.takeReward rewardId))
        (before.role.act cfg.toRoleConfig (.takeReward rewardId))).topLevel := le_max_left _ _
    refine ⟨inv.claimed, inv.featsOnce, inv.featsMet, ?_, ?_, ?_, ?_, ?_⟩
    · intro id marked
      have marked : (before.role.record.takeReward rewardId).rewardDict id = some true := record ▸ marked
      have met := inv.marked id (marked_of_takeReward marked)
      exact met.mono (congrArg RoleBoss.honour record).ge risen
    · intro id mem
      have both : (before.role.record.takeReward rewardId).rewardDict id = none ∧
          Met cfg before.role.record.honour before.topLevel id := by
        rcases List.mem_append.mp mem with mem | mem
        · exact ⟨takeReward_none (inv.taken id mem).1, (inv.taken id mem).2⟩
        · exact ⟨takeReward_taken mem, inv.marked id (mem_rewardIdList mem).1⟩
      exact ⟨record ▸ both.1, both.2.mono (congrArg RoleBoss.honour record).ge risen⟩
    · refine List.nodup_append.mpr ⟨inv.bossOnce, nodup_rewardIdList _ rewardId, ?_⟩
      rintro id old _ new rfl
      cases (inv.taken id old).1.symm.trans (mem_rewardIdList new).1
    · intro item
      have items := inv.items item
      have read := @read_bossItemDict cfg (before.role.record.rewardIdList cfg rewardId) item
      exact (Table.read_addAll _ _ _).trans ((congrArg₂ (· + ·) items read).trans
        (worth_append _ _ item).symm)
    · refine (Bool.or_eq_false_iff).mpr ⟨inv.quiet, List.any_eq_false.mpr fun id mem => ?_⟩
      obtain ⟨row, found, -⟩ := inv.marked id (mem_rewardIdList mem).1
      rw [found]
      rintro ⟨⟩
  · cases taken

theorem bossStep_other {label : RoleLabel}
    (claims : ∀ rewardId, label ≠ .act (.takeReward rewardId))
    (taken : roleStep cfg.toRoleConfig before.role label = some after) :
    RewardInv cfg (before.bossStep cfg label after) := by
  have nothing : before.role.granted cfg label = [] := by
    rw [RoleState.granted]
    exact fun rewardId same => claims rewardId same
  have evolves := roleStep_evolves taken claims
  rw [RewardState.bossStep, nothing]
  cases resets : before.role.resets label with
  | true =>
      rw [resets, if_pos rfl] at evolves
      refine ⟨inv.claimed, inv.featsOnce, inv.featsMet, ?_, by rintro _ ⟨⟩, List.nodup_nil, ?_, ?_⟩
      · intro id marked
        rcases evolves.rewards id with same | ⟨-, -, met⟩
        · have locked : (cfg.rewardData.lookup id).map (fun _ => false) = some true :=
            same.symm.trans marked
          obtain ⟨row, -, no⟩ := Option.map_eq_some_iff.mp locked
          cases no
        · exact met
      · simpa [RewardConfig.bossItemDict] using inv.items
      · simpa using inv.quiet
  | false =>
      rw [resets, if_neg Bool.false_ne_true] at evolves
      have evolves := evolves.mono (le_max_right before.topLevel after.boss.bossLevel)
      refine ⟨inv.claimed, inv.featsOnce, inv.featsMet, ?_, ?_, ?_, ?_, ?_⟩
      · intro id marked
        rcases evolves.rewards id with same | ⟨-, -, met⟩
        · exact (inv.marked id (same.symm.trans marked)).mono evolves.honour (le_max_left _ _)
        · exact met
      · intro id mem
        have mem : id ∈ before.bossGranted := by simpa using mem
        obtain ⟨gone, met⟩ := inv.taken id mem
        refine ⟨?_, met.mono evolves.honour (le_max_left _ _)⟩
        rcases evolves.rewards id with same | ⟨locked, -⟩
        · exact same.trans gone
        · cases gone.symm.trans locked
      · simpa using inv.bossOnce
      · simpa [RewardConfig.bossItemDict] using inv.items
      · simpa using inv.quiet

theorem claimFeats_inv
    (fresh : ∀ id ∈ rewardId, (cfg.featsRow id).isSome = true ∧ before.traitor.featsReward id = false) :
    RewardInv cfg (before.claimFeats cfg rewardId) := by
  obtain ⟨claim, granted, claimed⟩ := claimed_getFeatsReward fresh
  rw [RewardState.claimFeats, granted]
  refine ⟨?_, ?_, ?_, inv.marked, inv.taken, inv.bossOnce, ?_, inv.quiet⟩
  · intro id
    rw [claimed.reward id, inv.claimed id, List.mem_append]
  · refine List.nodup_append.mpr ⟨inv.featsOnce, claimed.nodup, ?_⟩
    rintro id old _ new rfl
    have known := (inv.claimed id).mpr old
    cases (claimed.fresh id new).1.symm.trans known
  · intro id mem
    rcases List.mem_append.mp mem with mem | mem
    · exact inv.featsMet id mem
    · exact (claimed.fresh id mem).2
  · intro item
    rw [Table.read_addAll, inv.items, claimed.items, worth_append]

/-- A claim of a feats reward that is not known raises, and one that was granted is granted again. -/
theorem fresh_of_claimFeats (once : GrantedOnce cfg (before.claimFeats cfg (some id))) :
    (cfg.featsRow id).isSome = true ∧ before.traitor.featsReward id = false := by
  cases found : cfg.featsRow id with
  | none =>
      have quiet := once.quiet
      rw [RewardState.claimFeats, RewardConfig.getFeatsReward, found] at quiet
      cases quiet
  | some row =>
      refine ⟨rfl, ?_⟩
      rw [← Bool.not_eq_true]
      intro known
      have mem := (inv.claimed id).mp known
      obtain ⟨row', found', enough⟩ := inv.featsMet id mem
      cases found.symm.trans found'
      have featsOnce := once.featsOnce
      rw [RewardState.claimFeats, RewardConfig.getFeatsReward, found, Option.map_some,
        if_neg (not_lt.mpr enough)] at featsOnce
      obtain ⟨-, -, disjoint⟩ := List.nodup_append.mp featsOnce
      exact disjoint id mem id List.mem_cons_self rfl

theorem rewardStep_inv {next : RewardState} {label : RewardLabel} (fresh : Fresh cfg before label)
    (taken : rewardStep cfg before label = some next) : RewardInv cfg next := by
  cases label with
  | boss label =>
      obtain ⟨after, moved, rfl⟩ := Option.map_eq_some_iff.mp taken
      rcases Classical.em (∃ rewardId, label = .act (.takeReward rewardId)) with ⟨rewardId, rfl⟩ | other
      · exact bossStep_takeReward inv rewardId moved
      · exact bossStep_other inv (fun rewardId same => other ⟨rewardId, same⟩) moved
  | challengeTraitor hurt double =>
      rw [rewardStep] at taken
      split at taken
      · cases taken
        refine { inv with featsMet := ?_ }
        intro id mem
        obtain ⟨row, found, enough⟩ := inv.featsMet id mem
        refine ⟨row, found, le_trans enough ?_⟩
        dsimp only [Feats.challenge]
        split <;> omega
      · cases taken
  | getFeatsReward rewardId =>
      rw [rewardStep] at taken
      split at taken
      · cases taken
        apply claimFeats_inv inv
        rintro id same
        obtain rfl : rewardId = some id := same
        exact fresh
      · cases taken
  | dailyTraitor =>
      cases taken
      exact ⟨fun _ => iff_of_false nofun List.not_mem_nil, List.nodup_nil, nofun, inv.marked, inv.taken,
        inv.bossOnce, inv.items, inv.quiet⟩

/-- After a step the rewards have been granted once exactly if its claim was fresh. -/
theorem grantedOnce_iff_fresh {next : RewardState} {label : RewardLabel}
    (taken : rewardStep cfg before label = some next) :
    GrantedOnce cfg next ↔ Fresh cfg before label := by
  constructor
  · intro once
    cases label with
    | getFeatsReward rewardId =>
        rw [rewardStep] at taken
        split at taken
        · cases taken
          cases rewardId with
          | none => trivial
          | some id => exact fresh_of_claimFeats inv once
        · cases taken
    | boss label => trivial
    | challengeTraitor hurt double => trivial
    | dailyTraitor => trivial
  · intro fresh
    exact (rewardStep_inv inv fresh taken).grantedOnce

end

end

/-- In every run the rewards are granted once, and for what they require, exactly if no claim of one feats
reward names an unknown one or one that was granted on that day. -/
theorem always_grantedOnce_iff (cfg : RewardConfig) (labels : List RewardLabel) (final : RewardState)
    (execution : run (rewardStep cfg) RewardState.initial labels = some final) :
    Always (rewardStep cfg) (GrantedOnce cfg) RewardState.initial labels ↔
      Guarded (rewardStep cfg) (Fresh cfg) RewardState.initial labels :=
  always_iff_guarded (fun inv fresh taken => rewardStep_inv inv fresh taken)
    (fun inv _ taken => grantedOnce_iff_fresh inv taken) execution rewardInv_initial
    rewardInv_initial.grantedOnce

/-- The first rewards of the game. -/
def firstRewards : RewardConfig where
  toRoleConfig := excelRoleConfig
  traitorRewardData := [⟨3500000, 101002, 90000⟩, ⟨3625000, 602016, 4⟩, ⟨3750000, 101002, 90000⟩,
    ⟨3875000, 602017, 4⟩, ⟨4000000, 101002, 90000⟩]
  featsRatio := 1
  itemDict := fun id => ([(1, [(301015, 5)]), (2, [(101002, 50000)]), (3, [(301015, 5)]),
    (4, [(301011, 20)]), (43, [(301011, 5)])].lookup id).getD []

/-- A role fights the boss and a traitor, and takes some rewards alone and the others together. -/
def freshLabels : List RewardLabel :=
  [.boss .login, .boss .openBoss, .boss (.act (.challenge [(1, 100)] "Ann" 0)),
    .boss (.act (.takeReward (some 1))), .boss (.act (.takeReward (some 1))),
    .boss (.act (.takeReward none)), .challengeTraitor 1850000 true, .getFeatsReward (some 1),
    .getFeatsReward none, .dailyTraitor, .challengeTraitor 4000000 false, .getFeatsReward none]

theorem always_grantedOnce_freshLabels :
    Always (rewardStep firstRewards) (GrantedOnce firstRewards) RewardState.initial freshLabels := by
  have ended : ∃ final ∈ run (rewardStep firstRewards) RewardState.initial freshLabels,
      final.items.read 101002 = 90000 + 50000 + 180000 + 90000 := by
    decide +kernel
  obtain ⟨final, execution, -⟩ := ended
  exact (always_grantedOnce_iff firstRewards freshLabels final execution).mpr (by decide +kernel)

def repeatedLabels : List RewardLabel :=
  [.boss .login, .challengeTraitor 4000000 false, .getFeatsReward (some 1), .getFeatsReward (some 1)]

/-- It gets the reward twice. -/
theorem repeatedLabels_not_once : ∃ final,
    run (rewardStep firstRewards) RewardState.initial repeatedLabels = some final ∧
      final.items.read 101002 = 180000 ∧ final.featsGranted = [1, 1] ∧
        ¬ GrantedOnce firstRewards final := by
  have ended : ∃ final ∈ run (rewardStep firstRewards) RewardState.initial repeatedLabels,
      final.items.read 101002 = 180000 ∧ final.featsGranted = [1, 1] := by
    decide +kernel
  obtain ⟨final, execution, items, twice⟩ := ended
  refine ⟨final, execution, items, twice, fun once => ?_⟩
  have nodup := once.featsOnce
  rw [twice] at nodup
  exact absurd nodup (by decide)

end UEServer.TraitorBoss
