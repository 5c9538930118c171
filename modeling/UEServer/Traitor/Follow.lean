import UEServer.Traitor.Role

/-!
# When a role follows the traitor boss

A login gives a role the record of one that has stayed online, in every execution in which no
opening, recovery or reward for a level is missed in a way that the two flags and two counters do
not show.
-/

namespace UEServer.TraitorBoss

/-- A role that is online has the record of one that has stayed online. -/
def Follows (state : RoleState) : Prop :=
  state.online = true → state.record = state.stayed

/-- What a login must find. After a missed opening the role was outside the activity, the boss is
in it, and nothing has recovered since; otherwise nothing has recovered before a missed closing.
No reward for a level is pending that the role would, or would not, have been given for the
killings it has missed. -/
def Noticed (cfg : RoleConfig) (state : RoleState) : RoleLabel → Prop
  | .login =>
      (state.missed.opened = true → state.record.isOpen = false ∧ state.boss.isOpen = true ∧
        state.missed.recoveries = 0) ∧
      (state.missed.opened = false → state.missed.closed = true →
        state.missed.recoveries = 0) ∧
      ∀ pair ∈ cfg.rewardData, ∀ level ∈ pair.2.requireBossLevel,
        (state.missed.opened = true ∨ state.record.rewardDict pair.1 = some false) →
          if state.missed.died then level ≠ state.boss.bossLevel
          else state.boss.bossLevel ≤ level
  | _ => True

instance (cfg : RoleConfig) (state : RoleState) :
    (label : RoleLabel) → Decidable (Noticed cfg state label)
  | .login => inferInstanceAs (Decidable ((state.missed.opened = true →
      state.record.isOpen = false ∧ state.boss.isOpen = true ∧ state.missed.recoveries = 0) ∧
      (state.missed.opened = false → state.missed.closed = true →
        state.missed.recoveries = 0) ∧
      ∀ pair ∈ cfg.rewardData, ∀ level ∈ pair.2.requireBossLevel,
        (state.missed.opened = true ∨ state.record.rewardDict pair.1 = some false) →
          if state.missed.died then level ≠ state.boss.bossLevel
          else state.boss.bossLevel ≤ level))
  | .openBoss => inferInstanceAs (Decidable True)
  | .closeBoss => inferInstanceAs (Decidable True)
  | .recover => inferInstanceAs (Decidable True)
  | .hurt _ _ _ => inferInstanceAs (Decidable True)
  | .revive => inferInstanceAs (Decidable True)
  | .logout => inferInstanceAs (Decidable True)
  | .act _ => inferInstanceAs (Decidable True)

/-- Every reward for an honour that the role has is marked. -/
def Paid (cfg : RoleConfig) (role : RoleBoss) : Prop :=
  ∀ id row, cfg.rewardData.lookup id = some row → role.rewardDict id = some false →
    RoleBoss.honoured row role.honour = false

theorem mem_of_lookup {id : Int} {row : RewardRow} {rewards : List (Int × RewardRow)}
    (found : rewards.lookup id = some row) : (id, row) ∈ rewards := by
  induction rewards with
  | nil => simp at found
  | cons pair rewards ih =>
      rw [List.lookup_cons] at found
      split at found
      · rename_i same
        cases found
        obtain rfl : id = pair.1 := by simpa using same
        exact List.mem_cons_self
      · exact List.mem_cons_of_mem _ (ih found)

section
variable {cfg : RoleConfig} {role : RoleBoss}

theorem paid_opened (cfg : RoleConfig) : Paid cfg (RoleBoss.opened cfg) := by
  intro id row found _
  simp only [RoleBoss.honoured, RoleBoss.opened]
  cases required : row.requireHonour with
  | none => rfl
  | some honour =>
      have positive := cfg.honour_pos (mem_of_lookup found) required
      exact decide_eq_false (Int.not_le.mpr positive)

theorem setRewardDict_apply {id : Int} {row : RewardRow}
    (found : cfg.rewardData.lookup id = some row) (bossLevel : Option Int) (role : RoleBoss) :
    (role.setRewardDict cfg bossLevel).rewardDict id =
      if role.rewardDict id = some false ∧ RoleBoss.reached row role.honour bossLevel then some true
      else role.rewardDict id := by
  simp only [RoleBoss.setRewardDict, found]

theorem setRewardDict_unlisted {id : Int} (missing : cfg.rewardData.lookup id = none)
    (bossLevel : Option Int) (role : RoleBoss) :
    (role.setRewardDict cfg bossLevel).rewardDict id = role.rewardDict id := by
  simp only [RoleBoss.setRewardDict, missing]

theorem setRewardDict_congr {other : RoleBoss} (honour : role.honour = other.honour)
    (rewards : role.rewardDict = other.rewardDict) (bossLevel : Option Int) :
    (role.setRewardDict cfg bossLevel).rewardDict =
      (other.setRewardDict cfg bossLevel).rewardDict := by
  simp only [RoleBoss.setRewardDict, honour, rewards]

/-- After `set_traitor_boss_reward_dict` every reward for the honour is marked. -/
theorem paid_setRewardDict (cfg : RoleConfig) (bossLevel : Option Int) (role : RoleBoss) :
    Paid cfg (role.setRewardDict cfg bossLevel) := by
  intro id row found pending
  rw [setRewardDict_apply found] at pending
  split at pending
  · cases pending
  · rename_i unreached
    by_contra honoured
    have honoured : RoleBoss.honoured row role.honour = true := by
      simpa [RoleBoss.setRewardDict] using honoured
    exact unreached ⟨pending, by simp [RoleBoss.reached, honoured]⟩

theorem Paid.of_rewardDict (paid : Paid cfg role) {other : RoleBoss}
    (rewards : ∀ id, other.rewardDict id = some false → role.rewardDict id = some false)
    (honour : other.honour = role.honour) : Paid cfg other := by
  intro id row found pending
  rw [honour]
  exact paid id row found (rewards id pending)

theorem Paid.setRewardDict_apply (paid : Paid cfg role) {id : Int} {row : RewardRow}
    (found : cfg.rewardData.lookup id = some row) (level : Int) :
    (role.setRewardDict cfg (some level)).rewardDict id =
      if role.rewardDict id = some false ∧ RoleBoss.levelled row level then some true
      else role.rewardDict id := by
  rw [TraitorBoss.setRewardDict_apply found]
  refine if_congr (and_congr_right fun pending => ?_) rfl rfl
  simp [RoleBoss.reached, paid id row found pending]

/-- A second boss level, not below the first, brings what it brings alone. -/
theorem setRewardDict_twice (cfg : RoleConfig) (role : RoleBoss) {first second : Int}
    (le : first ≤ second) (id : Int) :
    ((role.setRewardDict cfg (some first)).setRewardDict cfg (some second)).rewardDict id =
      (role.setRewardDict cfg (some second)).rewardDict id := by
  cases found : cfg.rewardData.lookup id with
  | none => simp only [setRewardDict_unlisted found]
  | some row =>
      have monotone : RoleBoss.reached row role.honour (some first) = true →
          RoleBoss.reached row role.honour (some second) = true := by
        simp only [RoleBoss.reached, RoleBoss.levelled, Option.any_some, Bool.or_eq_true,
          Option.any_eq_true, decide_eq_true_eq]
        rintro (honour | ⟨level, required, le'⟩)
        · exact .inl honour
        · exact .inr ⟨level, required, Int.le_trans le' le⟩
      have honour : (role.setRewardDict cfg (some first)).honour = role.honour := rfl
      rw [TraitorBoss.setRewardDict_apply found, TraitorBoss.setRewardDict_apply found,
        TraitorBoss.setRewardDict_apply found, honour]
      grind

end

/-- The record from which the absence counts: that of the last opening in it, or the role's. -/
def RoleState.base (cfg : RoleConfig) (state : RoleState) : RoleBoss :=
  if state.missed.opened then RoleBoss.opened cfg else state.record

/-- That record with the rewards for the killings of the absence. -/
def RoleState.killed (cfg : RoleConfig) (state : RoleState) : RoleBoss :=
  if state.missed.died then (state.base cfg).setRewardDict cfg (some state.boss.bossLevel)
  else state.base cfg

/-- What is missed accounts for the difference of the two records. -/
structure Offline (cfg : RoleConfig) (state : RoleState) : Prop where
  paid : Paid cfg (state.base cfg)
  stayed : state.stayed =
    { state.base cfg with
      isOpen := state.boss.isOpen
      challengeRecoverNum := (state.base cfg).challengeRecoverNum + state.missed.recoveries
      challengeNum :=
        if state.missed.closed then 0
        else (state.base cfg).challengeNum + state.missed.recoveries
      rewardDict := (state.killed cfg).rewardDict }
  /-- Unless the activity has been closed, the role is in it as it was. -/
  unclosed : state.missed.closed = false → (state.base cfg).isOpen = state.boss.isOpen
  closed : state.missed.closed = true →
    (state.base cfg).isOpen = true ∧ state.boss.isOpen = false
  recoverNum : (state.base cfg).isOpen = true →
    state.boss.challengeRecoverNum =
      (state.base cfg).challengeRecoverNum + state.missed.recoveries
  unrecovered : (state.base cfg).isOpen = false → state.missed.recoveries = 0

section
variable {cfg : RoleConfig} {state : RoleState}

section
variable (offline : Offline cfg state) (noticed : Noticed cfg state .login)
include offline noticed

/-- The branches of `load_traitor_boss` give what the absence has brought, but for the rewards. -/
theorem synced_eq :
    state.record.synced cfg state.boss =
      { state.stayed with rewardDict := (state.base cfg).rewardDict } := by
  obtain ⟨-, stayed, unclosed, closed, recoverNum, unrecovered⟩ := offline
  obtain ⟨afterOpening, afterClosing, -⟩ := noticed
  rw [stayed]
  cases opened : state.missed.opened with
  | true =>
      obtain ⟨outside, inTime, nothing⟩ := afterOpening opened
      have base : state.base cfg = RoleBoss.opened cfg := by simp [RoleState.base, opened]
      have stillOpen : state.missed.closed = false := by
        by_contra shut
        simp [(closed (by simpa using shut)).2] at inTime
      ext <;> simp [RoleBoss.synced, inTime, outside, base, stillOpen, nothing, RoleBoss.opened]
  | false =>
      have base : state.base cfg = state.record := by simp [RoleState.base, opened]
      rw [base] at unclosed closed recoverNum unrecovered ⊢
      cases shut : state.missed.closed with
      | true =>
          obtain ⟨inside, ended⟩ := closed shut
          have nothing := afterClosing opened shut
          ext <;> simp [RoleBoss.synced, RoleBoss.closed, inside, ended, nothing]
      | false =>
          have same := unclosed shut
          cases inside : state.record.isOpen with
          | true =>
              have inTime : state.boss.isOpen = true := same.symm.trans inside
              have counted := recoverNum inside
              unfold RoleBoss.synced
              rw [if_pos inTime, if_pos inside]
              split
              · have gain : state.record.challengeRecoverNum + state.missed.recoveries -
                    state.record.challengeRecoverNum = state.missed.recoveries := by omega
                ext <;> simp [counted, inside, inTime, gain]
              · have nothing : state.missed.recoveries = 0 := by omega
                ext <;> simp [nothing, inside, inTime]
          | false =>
              have ended : state.boss.isOpen = false := same.symm.trans inside
              have nothing := unrecovered inside
              ext <;> simp [RoleBoss.synced, inside, ended, nothing]

/-- The level of the boss at the login brings the rewards of the killings of the absence. -/
theorem killed_rewardDict (id : Int) :
    ((state.base cfg).setRewardDict cfg (some (state.boss.bossLevel - 1))).rewardDict id =
      (state.killed cfg).rewardDict id := by
  cases found : cfg.rewardData.lookup id with
  | none =>
      rw [setRewardDict_unlisted found]
      unfold RoleState.killed
      split
      · rw [setRewardDict_unlisted found]
      · rfl
  | some row =>
      rw [offline.paid.setRewardDict_apply found]
      have agree : ∀ level ∈ row.requireBossLevel, (state.base cfg).rewardDict id = some false →
          if state.missed.died then level ≠ state.boss.bossLevel
          else state.boss.bossLevel ≤ level := by
        intro level required pending
        refine noticed.2.2 (id, row) (mem_of_lookup found) level required ?_
        cases opened : state.missed.opened with
        | true => exact .inl rfl
        | false => exact .inr (by simpa [RoleState.base, opened] using pending)
      cases died : state.missed.died with
      | true =>
          simp only [RoleState.killed, died, if_true]
          rw [offline.paid.setRewardDict_apply found]
          refine if_congr (and_congr_right fun pending => ?_) rfl rfl
          cases required : row.requireBossLevel with
          | none => simp [RoleBoss.levelled, required]
          | some level =>
              have different := agree level required pending
              simp only [died, if_true] at different
              simp only [RoleBoss.levelled, required, Option.any_some, decide_eq_true_eq]
              omega
      | false =>
          simp only [RoleState.killed, died, Bool.false_eq_true, if_false]
          refine if_neg ?_
          rintro ⟨pending, levelled⟩
          cases required : row.requireBossLevel with
          | none => simp [RoleBoss.levelled, required] at levelled
          | some level =>
              have higher := agree level required pending
              simp only [died, Bool.false_eq_true, if_false] at higher
              simp only [RoleBoss.levelled, required, Option.any_some, decide_eq_true_eq]
                at levelled
              omega

/-- A login gives the role the record of the one that has stayed online. -/
theorem load_eq : state.record.load cfg state.boss = state.stayed := by
  have rewards : ∀ id, (state.record.load cfg state.boss).rewardDict id =
      state.stayed.rewardDict id := by
    intro id
    have honour : state.stayed.honour = (state.base cfg).honour := by rw [offline.stayed]
    have same : (state.record.load cfg state.boss).rewardDict id =
        ((state.base cfg).setRewardDict cfg (some (state.boss.bossLevel - 1))).rewardDict id := by
      unfold RoleBoss.load
      rw [synced_eq offline noticed]
      simp only [RoleBoss.setRewardDict, honour]
    rw [same, killed_rewardDict offline noticed, offline.stayed]
  have synced := synced_eq offline noticed
  unfold RoleBoss.load at rewards ⊢
  rw [synced] at rewards ⊢
  ext : 1
  case rewardDict => exact funext rewards
  all_goals rfl

end

end

/-- The record that has stayed online follows the boss, and the role's is that record or accounts
for it. -/
structure RoleInv (cfg : RoleConfig) (state : RoleState) : Prop where
  sync : state.stayed.isOpen = state.boss.isOpen
  recoverNum : state.boss.isOpen = true →
    state.stayed.challengeRecoverNum = state.boss.challengeRecoverNum
  paid : Paid cfg state.stayed
  online : state.online = true → state.record = state.stayed
  /-- What the role that is offline has missed accounts for it. -/
  offline : state.online = false → Offline cfg state

section
variable {cfg : RoleConfig} {state : RoleState}

theorem roleInitial_inv (cfg : RoleConfig) : RoleInv cfg roleInitial where
  sync := rfl
  recoverNum := by simp [roleInitial]
  paid := by
    intro id row _ pending
    simp [roleInitial] at pending
  online := by simp [roleInitial]
  offline _ := by
    refine ⟨?_, rfl, fun _ => rfl, by simp [roleInitial], by simp [RoleState.base, roleInitial],
      fun _ => rfl⟩
    intro id row _ pending
    simp [RoleState.base, roleInitial] at pending

section
variable (inv : RoleInv cfg state)
include inv

theorem login_inv (away : state.online = false) (noticed : Noticed cfg state .login) :
    RoleInv cfg { state with record := state.record.load cfg state.boss, online := true } :=
  ⟨inv.sync, inv.recoverNum, inv.paid, fun _ => load_eq (inv.offline away) noticed, by simp⟩

theorem logout_inv (here : state.online = true) :
    RoleInv cfg { state with online := false, missed := {} } := by
  have same := inv.online here
  refine ⟨inv.sync, inv.recoverNum, inv.paid, by simp, fun _ => ?_⟩
  have base : RoleState.base cfg { state with online := false, missed := {} } = state.stayed := same
  refine ⟨base ▸ inv.paid, ?_, fun _ => base ▸ inv.sync, by simp, fun inside => ?_, fun _ => rfl⟩
  · rw [RoleState.killed, base]
    ext : 1 <;> simp [inv.sync]
  · rw [base] at inside ⊢
    simpa using (inv.recoverNum (inv.sync ▸ inside)).symm

theorem notify_online {change : RoleBoss → RoleBoss} (boss : BossData) (missed : Missed) :
    state.online = true →
      (RoleState.notify { state with boss := boss, missed := missed } change).record =
        (RoleState.notify { state with boss := boss, missed := missed } change).stayed := by
  intro here
  simp [RoleState.notify, here, inv.online here]

theorem openBoss_follows :
    RoleInv cfg ({ state with
      boss := state.boss.opened cfg.toConfig
      missed := { opened := true } }.notify fun _ => RoleBoss.opened cfg) := by
  refine ⟨rfl, fun _ => rfl, paid_opened cfg, notify_online inv _ _, fun away => ?_⟩
  refine ⟨paid_opened cfg, ?_, fun _ => rfl, by simp [RoleState.notify], fun _ => rfl, ?_⟩
  · ext : 1 <;> simp [RoleState.base, RoleState.killed, RoleState.notify, RoleBoss.opened,
      BossData.opened]
  · intro outside
    simp [RoleState.base, RoleState.notify, RoleBoss.opened] at outside

theorem closeBoss_follows (inTime : state.boss.isOpen = true) :
    RoleInv cfg ({ state with
      boss := state.boss.closed
      missed := { state.missed with closed := true } }.notify RoleBoss.closed) := by
  refine ⟨rfl, by simp [RoleState.notify, BossData.closed],
    inv.paid.of_rewardDict (fun _ => id) rfl, notify_online inv _ _, fun away => ?_⟩
  have away : state.online = false := away
  have offline := inv.offline away
  have unclosed : state.missed.closed = false := by
    by_contra shut
    simp [(offline.closed (by simpa using shut)).2] at inTime
  have base : RoleState.base cfg ({ state with
      boss := state.boss.closed
      missed := { state.missed with closed := true } }.notify RoleBoss.closed) =
      state.base cfg := by
    simp [RoleState.base, RoleState.notify, away]
  have killed : RoleState.killed cfg ({ state with
      boss := state.boss.closed
      missed := { state.missed with closed := true } }.notify RoleBoss.closed) =
      state.killed cfg := by
    simp only [RoleState.killed, base]
    rfl
  refine ⟨base ▸ offline.paid, ?_, by simp [RoleState.notify], fun _ => ⟨?_, rfl⟩,
    base ▸ offline.recoverNum, base ▸ offline.unrecovered⟩
  · rw [base, killed]
    simp only [RoleState.notify, offline.stayed]
    ext : 1 <;> simp [RoleBoss.closed, BossData.closed]
  · rw [base, offline.unclosed unclosed, inTime]

theorem recover_follows (inTime : state.boss.isOpen = true) :
    RoleInv cfg ({ state with
      boss := state.boss.recovered
      missed := { state.missed with recoveries := state.missed.recoveries + 1 } }.notify
        RoleBoss.recovered) := by
  refine ⟨inv.sync, fun _ => ?_, inv.paid.of_rewardDict (fun _ => id) rfl, notify_online inv _ _,
    fun away => ?_⟩
  · simp [RoleState.notify, RoleBoss.recovered, BossData.recovered, inv.recoverNum inTime]
  · have away : state.online = false := away
    have offline := inv.offline away
    have unclosed : state.missed.closed = false := by
      by_contra shut
      simp [(offline.closed (by simpa using shut)).2] at inTime
    have base : RoleState.base cfg ({ state with
        boss := state.boss.recovered
        missed := { state.missed with recoveries := state.missed.recoveries + 1 } }.notify
          RoleBoss.recovered) = state.base cfg := by
      simp [RoleState.base, RoleState.notify, away]
    have killed : RoleState.killed cfg ({ state with
        boss := state.boss.recovered
        missed := { state.missed with recoveries := state.missed.recoveries + 1 } }.notify
          RoleBoss.recovered) = state.killed cfg := by
      simp only [RoleState.killed, base]
      rfl
    have inside : (state.base cfg).isOpen = true := (offline.unclosed unclosed).trans inTime
    refine ⟨base ▸ offline.paid, ?_, base ▸ offline.unclosed, base ▸ offline.closed, fun _ => ?_,
      fun outside => ?_⟩
    · rw [base, killed]
      simp only [RoleState.notify, offline.stayed]
      ext : 1 <;> simp [RoleBoss.recovered, BossData.recovered, unclosed, Int.add_assoc]
    · rw [base]
      simp [RoleState.notify, BossData.recovered, offline.recoverNum inside, Int.add_assoc]
    · simp [base, inside] at outside

theorem boss_follows {boss : BossData} (isOpen : boss.isOpen = state.boss.isOpen)
    (level : boss.bossLevel = state.boss.bossLevel)
    (recoverNum : boss.challengeRecoverNum = state.boss.challengeRecoverNum) :
    RoleInv cfg { state with boss := boss } := by
  refine ⟨inv.sync.trans isOpen.symm, fun inTime => ?_, inv.paid, inv.online, fun away => ?_⟩
  · exact (inv.recoverNum (isOpen.symm.trans inTime)).trans recoverNum.symm
  · have offline := inv.offline away
    refine ⟨offline.paid, ?_, fun unclosed => ?_, fun shut => ?_, fun inside => ?_,
      offline.unrecovered⟩
    · simp only [offline.stayed, RoleState.killed, isOpen, level]
      rfl
    · exact (offline.unclosed unclosed).trans isOpen.symm
    · exact ⟨(offline.closed shut).1, isOpen.trans (offline.closed shut).2⟩
    · exact recoverNum.trans (offline.recoverNum inside)

theorem death_follows {boss : BossData} (isOpen : boss.isOpen = state.boss.isOpen)
    (level : state.boss.bossLevel ≤ boss.bossLevel)
    (recoverNum : boss.challengeRecoverNum = state.boss.challengeRecoverNum) :
    RoleInv cfg ({ state with
      boss := boss
      missed := { state.missed with died := true } }.notify
        (RoleBoss.setRewardDict cfg (some boss.bossLevel))) := by
  refine ⟨inv.sync.trans isOpen.symm, fun inTime => ?_, paid_setRewardDict cfg _ _,
    notify_online inv _ _, fun away => ?_⟩
  · exact (inv.recoverNum (isOpen.symm.trans inTime)).trans recoverNum.symm
  · have away : state.online = false := away
    have offline := inv.offline away
    have base : RoleState.base cfg ({ state with
        boss := boss
        missed := { state.missed with died := true } }.notify
          (RoleBoss.setRewardDict cfg (some boss.bossLevel))) = state.base cfg := by
      simp [RoleState.base, RoleState.notify, away]
    have killed : RoleState.killed cfg ({ state with
        boss := boss
        missed := { state.missed with died := true } }.notify
          (RoleBoss.setRewardDict cfg (some boss.bossLevel))) =
        (state.base cfg).setRewardDict cfg (some boss.bossLevel) := by
      rw [RoleState.killed, base]
      rfl
    have rewards : (state.stayed.setRewardDict cfg (some boss.bossLevel)).rewardDict =
        ((state.base cfg).setRewardDict cfg (some boss.bossLevel)).rewardDict := by
      have honour : state.stayed.honour = (state.base cfg).honour := by rw [offline.stayed]
      have dict : state.stayed.rewardDict = (state.killed cfg).rewardDict := by
        rw [offline.stayed]
      cases died : state.missed.died with
      | true =>
          simp only [RoleState.killed, died, if_true] at dict
          have honour : state.stayed.honour =
              ((state.base cfg).setRewardDict cfg (some state.boss.bossLevel)).honour := honour
          rw [setRewardDict_congr honour dict]
          exact funext (setRewardDict_twice cfg _ level)
      | false =>
          simp only [RoleState.killed, died, Bool.false_eq_true, if_false] at dict
          exact setRewardDict_congr honour dict _
    refine ⟨base ▸ offline.paid, ?_, fun unclosed => ?_, fun shut => ?_, fun inside => ?_,
      base ▸ offline.unrecovered⟩
    · rw [base, killed]
      simp only [RoleState.notify]
      ext : 1
      case rewardDict => exact rewards
      all_goals simp [RoleBoss.setRewardDict, offline.stayed, isOpen]
    · exact (base ▸ offline.unclosed unclosed).trans isOpen.symm
    · exact ⟨base ▸ (offline.closed shut).1, isOpen.trans (offline.closed shut).2⟩
    · rw [base] at inside ⊢
      exact recoverNum.trans (offline.recoverNum inside)

theorem onHurt_follows (hpDict : List (Nat × Int)) (roleName : String) (reviveTs : Int) :
    RoleInv cfg (state.onHurt cfg hpDict roleName reviveTs) := by
  unfold RoleState.onHurt
  split
  · refine death_follows inv rfl ?_ rfl
    simp only [BossData.died]
    split <;> omega
  · exact boss_follows inv rfl rfl rfl

/-- A role that is online does something that concerns its challenges and its rewards. -/
theorem notify_follows (here : state.online = true) (change : RoleBoss → RoleBoss)
    (isOpen : ∀ role, (change role).isOpen = role.isOpen)
    (recoverNum : ∀ role, (change role).challengeRecoverNum = role.challengeRecoverNum)
    (paid : ∀ role, Paid cfg role → Paid cfg (change role)) :
    RoleInv cfg (state.notify change) := by
  refine ⟨(isOpen _).trans inv.sync, fun inTime => ?_, paid _ inv.paid,
    notify_online inv state.boss state.missed, fun away => ?_⟩
  · exact (recoverNum _).trans (inv.recoverNum inTime)
  · have away : state.online = false := away
    simp [here] at away

theorem act_follows (here : state.online = true) (action : Action) :
    RoleInv cfg (state.act cfg action) := by
  cases action with
  | challenge hpDict roleName reviveTs =>
      simp only [RoleState.act, RoleState.challenge]
      split
      · exact inv
      · have spent := notify_follows inv here
          (fun role => { role with challengeNum := role.challengeNum - 1 })
          (fun _ => rfl) (fun _ => rfl) fun _ paid => paid.of_rewardDict (fun _ => id) rfl
        have fought := onHurt_follows spent hpDict roleName reviveTs
        refine notify_follows fought ?_ _ (fun _ => rfl) (fun _ => rfl)
          fun _ _ => paid_setRewardDict cfg _ _
        unfold RoleState.onHurt
        split <;> exact here
  | crossFight hurt =>
      exact notify_follows inv here _ (fun _ => rfl) (fun _ => rfl)
        fun _ _ => paid_setRewardDict cfg _ _
  | buy num maxBuyNum consumed =>
      refine notify_follows inv here _ (fun role => ?_) (fun role => ?_) fun role paid => ?_ <;>
        unfold RoleBoss.buy <;> split
      · rfl
      · rfl
      · rfl
      · rfl
      · exact paid
      · exact paid.of_rewardDict (fun _ => id) rfl
  | takeReward rewardId =>
      refine notify_follows inv here _ (fun _ => rfl) (fun _ => rfl) fun role paid => ?_
      refine paid.of_rewardDict (fun id pending => ?_) rfl
      simp only [RoleBoss.takeReward] at pending
      split at pending
      · cases pending
      · exact pending

end

theorem roleStep_inv {after : RoleState} {label : RoleLabel} (inv : RoleInv cfg state)
    (noticed : Noticed cfg state label) (taken : roleStep cfg state label = some after) :
    RoleInv cfg after := by
  cases label with
  | openBoss =>
      cases taken
      exact openBoss_follows inv
  | closeBoss =>
      simp only [roleStep] at taken
      split at taken
      · rename_i inTime
        cases taken
        exact closeBoss_follows inv inTime
      · cases taken
  | recover =>
      simp only [roleStep] at taken
      split at taken
      · rename_i inTime
        cases taken
        exact recover_follows inv inTime
      · cases taken
  | hurt hpDict roleName reviveTs =>
      simp only [roleStep] at taken
      split at taken
      · cases taken
        exact onHurt_follows inv hpDict roleName reviveTs
      · cases taken
  | revive =>
      cases taken
      exact boss_follows inv rfl rfl rfl
  | login =>
      simp only [roleStep] at taken
      split at taken
      · cases taken
      · rename_i away
        cases taken
        exact login_inv inv (by simpa using away) noticed
  | logout =>
      simp only [roleStep] at taken
      split at taken
      · rename_i here
        cases taken
        exact logout_inv inv here
      · cases taken
  | act action =>
      simp only [roleStep] at taken
      split at taken
      · rename_i here
        cases taken
        exact act_follows inv here action
      · cases taken

end

/-- In an execution whose logins find what they must, the role has, whenever it is online, the
record of a role that has stayed online. -/
theorem follows_of_noticed {cfg : RoleConfig} {labels : List RoleLabel}
    (noticed : Execution.Guarded (roleStep cfg) (Noticed cfg) roleInitial labels) :
    Execution.Always (roleStep cfg) Follows roleInitial labels :=
  (Execution.always_of_guarded roleStep_inv noticed (roleInitial_inv cfg)).mono
    fun _ inv => inv.online

/-- A role that is away during recoveries, and then for an opening. -/
def noticedRun : List RoleLabel :=
  [.login, .openBoss, .act (.challenge [(1, 250000)] "Ann" 0), .act (.buy 2 5 true), .logout,
    .recover, .recover, .hurt [(1, 100)] "Tom" 0, .login, .act (.takeReward none), .logout,
    .closeBoss, .login, .logout, .openBoss, .login, .recover]

theorem follows_of_noticed_noticedRun :
    Execution.Always (roleStep excelRoleConfig) Follows roleInitial noticedRun :=
  follows_of_noticed (by decide +kernel)

/-- A role logs out during one opening, and logs in during the next. -/
def nextOpeningRun : List RoleLabel :=
  [.login, .openBoss, .act (.challenge [(1, 100)] "Ann" 0), .logout, .closeBoss, .openBoss, .login]

/-- The role keeps the honour and the rewards of the first opening. -/
theorem nextOpeningRun_not_follows :
    ∃ state, Execution.run (roleStep excelRoleConfig) roleInitial nextOpeningRun = some state ∧
      state.record.honour = 299 ∧ state.stayed.honour = 0 ∧
      state.record.rewardDict 3 = some true ∧ state.stayed.rewardDict 3 = some false ∧
      ¬ Follows state := by
  have final : ((Execution.run (roleStep excelRoleConfig) roleInitial nextOpeningRun).map
      fun state => (state.online, state.record.honour, state.stayed.honour,
        state.record.rewardDict 3, state.stayed.rewardDict 3)) =
      some (true, 299, 0, some true, some false) := by decide +kernel
  obtain ⟨state, execution, fields⟩ := Option.map_eq_some_iff.mp final
  obtain ⟨here, honour, none_yet, kept, reset⟩ : state.online = true ∧
      state.record.honour = 299 ∧ state.stayed.honour = 0 ∧
      state.record.rewardDict 3 = some true ∧ state.stayed.rewardDict 3 = some false := by
    simpa using fields
  refine ⟨state, execution, honour, none_yet, kept, reset, fun follows => ?_⟩
  have same := congrArg RoleBoss.honour (follows here)
  omega

end UEServer.TraitorBoss
