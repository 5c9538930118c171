import UEServer.Dynasty.Basic

/-!
# What an operation does to the dynasties

Every operation of the service is a sequence of a few kinds of effects.  An invariant is proved by
cases on the effects.
-/

namespace UEServer.DynastyUtils

variable {ι υ : Type} [DecidableEq ι] [DecidableEq υ]

/-- The godfather that the daily refresh finds has been absent too long. -/
def absentGodfather (state : State ι υ) (dynasty : Dynasty υ) (order : List υ) : Option υ :=
  (dynasty.getGodfatherInfo order).filter fun godfather =>
    dynasty.isGodfatherAbsent godfather state.now

/-- A daily refresh dissolves a dynasty: its only member is an absent godfather, and it has not
applied for the competition. -/
def Expires (state : State ι υ) : Label ι υ → Prop
  | .dailyRefresh id order _ =>
      ∃ dynasty ∈ state.dynastyDict.get id, (absentGodfather state dynasty order).isSome ∧
        dynasty.memberCount ≤ 1 ∧ dynasty.isApply = false
  | _ => False

/-- A daily refresh makes another member of a dynasty the godfather. -/
def Succeeds (state : State ι υ) : Label ι υ → Prop
  | .dailyRefresh id order next =>
      ∃ dynasty ∈ state.dynastyDict.get id, ∃ godfather ∈ absentGodfather state dynasty order,
        1 < dynasty.memberCount ∧ next ≠ godfather
  | _ => False

instance decidableExpires (state : State ι υ) (label : Label ι υ) :
    Decidable (Expires state label) :=
  match label with
  | .dailyRefresh id order _ =>
      inferInstanceAs (Decidable (∃ dynasty ∈ state.dynastyDict.get id,
        (absentGodfather state dynasty order).isSome ∧ dynasty.memberCount ≤ 1 ∧
          dynasty.isApply = false))
  | .create .. | .apply .. | .cancelApply .. | .agree .. | .refuse .. | .join .. | .login ..
  | .logout .. | .quit .. | .kick .. | .appoint .. | .dissolve .. | .updateRoleInfo ..
  | .modifyName .. | .addExp .. | .spendExp .. | .competeApply .. | .competeOpen ..
  | .updateRank .. | .save .. | .tick .. => isFalse id

instance decidableSucceeds (state : State ι υ) (label : Label ι υ) :
    Decidable (Succeeds state label) :=
  match label with
  | .dailyRefresh id order next =>
      inferInstanceAs (Decidable (∃ dynasty ∈ state.dynastyDict.get id,
        ∃ godfather ∈ absentGodfather state dynasty order,
          1 < dynasty.memberCount ∧ next ≠ godfather))
  | .create .. | .apply .. | .cancelApply .. | .agree .. | .refuse .. | .join .. | .login ..
  | .logout .. | .quit .. | .kick .. | .appoint .. | .dissolve .. | .updateRoleInfo ..
  | .modifyName .. | .addExp .. | .spendExp .. | .competeApply .. | .competeOpen ..
  | .updateRank .. | .save .. | .tick .. => isFalse id

/-- What an operation does to a dynasty that keeps its members; `succession` allows a member to
become godfather beside another. -/
inductive Edit (succession : Prop) (dynasty : Dynasty υ) : Dynasty υ → Prop
  | other {after : Dynasty υ} (members : after.memberDict = dynasty.memberDict)
      (count : after.memberCount = dynasty.memberCount)
      (score : after.dynastyScore = dynasty.dynastyScore)
      (grown : dynasty.dynastyLevel ≤ after.dynastyLevel)
      (bounded : after.dynastyLevel ≤ max dynasty.dynastyLevel dynastyData.length) :
      Edit succession dynasty after
  | presence {uuid : υ} {info : RoleInfo} (found : dynasty.memberDict.get uuid = some info)
      (offlineTs : Option Nat) :
      Edit succession dynasty
        { dynasty with memberDict := dynasty.memberDict.set uuid (some { info with offlineTs }) }
  | info {uuid : υ} {info : RoleInfo} (found : dynasty.memberDict.get uuid = some info)
      (dedicate fightScore : Option Int) :
      Edit succession dynasty (dynasty.updateRoleInfo uuid info dedicate fightScore)
  /-- A godfather gives another member a job that is not his own. -/
  | appoint {uuid member : υ} {own info : RoleInfo} {job : Job} (different : uuid ≠ member)
      (own_found : dynasty.memberDict.get uuid = some own) (own_job : own.job = .godFather)
      (found : dynasty.memberDict.get member = some info) (lower : job ≠ .godFather)
      (room : ∀ limit ∈ job.maxNum, dynasty.holders job < limit) :
      Edit succession dynasty (dynasty.modifyMemberJob member job)
  | transfer {uuid member : υ} {own info : RoleInfo} (different : uuid ≠ member)
      (own_found : dynasty.memberDict.get uuid = some own) (own_job : own.job = .godFather)
      (found : dynasty.memberDict.get member = some info) (job : info.job = .secondChief) :
      Edit succession dynasty
        ((dynasty.modifyMemberJob member .godFather).modifyMemberJob uuid .member)
  | succeed {uuid : υ} {info : RoleInfo} (found : dynasty.memberDict.get uuid = some info)
      (allowed : succession ∨ info.job = .godFather) :
      Edit succession dynasty (dynasty.modifyMemberJob uuid .godFather)

variable {dynasty : Dynasty υ} {uuid : υ}

theorem modifyMemberJob_eq {info : RoleInfo}
    (found : dynasty.memberDict.get uuid = some info) (job : Job) :
    dynasty.modifyMemberJob uuid job =
      { dynasty with memberDict := dynasty.memberDict.set uuid (some { info with job }) } := by
  unfold Dynasty.modifyMemberJob
  rw [found]

theorem isSome_get_set {members : Table υ RoleInfo} {info : RoleInfo}
    (found : members.get uuid = some info) (after : RoleInfo) (other : υ) :
    ((members.set uuid (some after)).get other).isSome = (members.get other).isSome := by
  rw [Table.get_set]
  split
  · rename_i same
    simp [same, found]
  · rfl

theorem isSome_modifyMemberJob (dynasty : Dynasty υ) (uuid : υ) (job : Job) (other : υ) :
    ((dynasty.modifyMemberJob uuid job).memberDict.get other).isSome =
      (dynasty.memberDict.get other).isSome := by
  cases found : dynasty.memberDict.get uuid with
  | none => simp only [Dynasty.modifyMemberJob, found]
  | some info =>
      rw [modifyMemberJob_eq found]
      exact isSome_get_set found _ other

theorem Edit.members {succession : Prop} {dynasty after : Dynasty υ}
    (edit : Edit succession dynasty after) (uuid : υ) :
    (after.memberDict.get uuid).isSome = (dynasty.memberDict.get uuid).isSome := by
  cases edit with
  | other members count score grown bounded => rw [members]
  | presence found offlineTs => exact isSome_get_set found _ uuid
  | info found dedicate fightScore => exact isSome_get_set found _ uuid
  | appoint _ _ _ found _ _ => exact isSome_modifyMemberJob _ _ _ uuid
  | transfer _ _ _ found _ =>
      exact (isSome_modifyMemberJob _ _ _ uuid).trans (isSome_modifyMemberJob _ _ _ uuid)
  | succeed found _ => exact isSome_modifyMemberJob _ _ _ uuid

/-- Only one dynasty has changed, and it has been saved. -/
structure Changed (state after : State ι υ) (id : ι) (dynasty : Dynasty υ) : Prop where
  dynasties : ∀ other, after.dynastyDict.get other =
    if other = id then some dynasty else state.dynastyDict.get other
  list : after.dynastyList = state.dynastyList
  roles : after.roleDynastyDict = state.roleDynastyDict
  ranks : after.rankDict = state.rankDict
  rows : after.rows = state.rows
  created : after.created = state.created
  cached : ∀ other, other ≠ id → after.mgr.dbLru.get other = state.mgr.dbLru.get other
  marks : ∀ other, other ≠ id → after.mgr.saveLru.get other = state.mgr.saveLru.get other
  mark : after.mgr.saveLru.get id = some .insert → state.mgr.saveLru.get id = some .insert

omit [DecidableEq υ] in
theorem get_set_dbLru (mgr : OfflineDb.Mgr ι Unit (Dynasty υ)) (id other : ι)
    (value : OfflineDb.Obj Unit (Dynasty υ)) (time : Nat) :
    (mgr.set id value time).dbLru.get other =
      if other = id then some value else mgr.dbLru.get other :=
  Lru.get_put mgr.dbLru id other value time

omit [DecidableEq υ] in
theorem get_set_saveLru (mgr : OfflineDb.Mgr ι Unit (Dynasty υ)) (id other : ι)
    (value : OfflineDb.Obj Unit (Dynasty υ)) (time : Nat) :
    (mgr.set id value time).saveLru.get other =
      if other = id then some ((mgr.saveLru.get id).getD .save) else mgr.saveLru.get other := by
  simp only [OfflineDb.Mgr.set]
  cases marked : mgr.saveLru.get id with
  | none => exact Lru.get_put mgr.saveLru id other .save time
  | some op =>
      simp only [Option.getD_some]
      split
      · rename_i same
        rw [same, marked]
      · rfl

variable {id : ι}

section
omit [DecidableEq υ]

theorem saveDynasty_changed {state : State ι υ}
    (found : state.dynastyDict.get id = some dynasty) :
    Changed state (state.saveDynasty id dynasty) id dynasty := by
  refine ⟨fun other => ?_, rfl, rfl, rfl, rfl, rfl, fun other different => ?_,
    fun other different => ?_, fun marked => ?_⟩
  · split
    · rename_i same
      rw [same]
      exact found
    · rfl
  · exact (get_set_dbLru _ _ _ _ _).trans (if_neg different)
  · exact (get_set_saveLru _ _ _ _ _).trans (if_neg different)
  · have after := (get_set_saveLru state.mgr id id (State.obj dynasty) state.now).symm.trans marked
    rw [if_pos rfl] at after
    cases before : state.mgr.saveLru.get id with
    | none =>
        rw [before] at after
        cases after
    | some op =>
        rw [before] at after
        exact after

theorem Changed.trans {state middle after : State ι υ} {dynasty edited : Dynasty υ}
    (first : Changed state middle id dynasty) (second : Changed middle after id edited) :
    Changed state after id edited := by
  refine ⟨fun other => ?_, second.list.trans first.list, second.roles.trans first.roles,
    second.ranks.trans first.ranks, second.rows.trans first.rows,
    second.created.trans first.created,
    fun other different => (second.cached other different).trans (first.cached other different),
    fun other different => (second.marks other different).trans (first.marks other different),
    fun marked => first.mark (second.mark marked)⟩
  rw [second.dynasties, first.dynasties]
  split <;> rfl

theorem change_changed (state : State ι υ) (id : ι) (dynasty : Dynasty υ) :
    Changed state (state.change id dynasty) id dynasty := by
  have assigned : Changed state
      { state with dynastyDict := state.dynastyDict.set id (some dynasty) } id dynasty :=
    ⟨fun other => Table.get_set _ _ _ _, rfl, rfl, rfl, rfl, rfl, fun _ _ => rfl, fun _ _ => rfl,
      fun marked => marked⟩
  exact assigned.trans (saveDynasty_changed (Table.get_set_self _ _ _))

end

/-- The dynasty that `create_dynasty` makes, and the use of its id. -/
def State.establish (state : State ι υ) (uuid : υ) (id : ι) (name : String) (fightScore : Int) :
    State ι υ :=
  { (state.getDynasty id).1.newDynastyCls id uuid
      ((state.getDynasty id).2.create uuid name fightScore) with
    created := id :: state.created }

/-- The effects of which operations are made; `expiry` allows a dissolution by the daily refresh. -/
inductive Effect (expiry succession : Prop) (state : State ι υ) : State ι υ → Prop
  | tick (seconds : Nat) :
      Effect expiry succession state { state with now := state.now + seconds }
  | save (id : ι) : Effect expiry succession state (state.checkSave id)
  | rank {rankDict : String → ι → Option Int}
      (ranked : ∀ rank id, (rankDict rank id).isSome →
        (state.rankDict rank id).isSome ∨ (state.dynastyDict.get id).isSome) :
      Effect expiry succession state { state with rankDict }
  | change {id : ι} {dynasty edited : Dynasty υ} {after : State ι υ}
      (found : state.dynastyDict.get id = some dynasty) (edit : Edit succession dynasty edited)
      (changed : Changed state after id edited) :
      Effect expiry succession state after
  | attempt (id : ι) : Effect expiry succession state { state with created := id :: state.created }
  | establish {uuid : υ} {id : ι} (unused : id ∉ state.created)
      (free : state.roleDynastyDict uuid = none) (name : String) (fightScore : Int) :
      Effect expiry succession state (state.establish uuid id name fightScore)
  | join {id : ι} {dynasty : Dynasty υ} {uuid : υ}
      (found : state.dynastyDict.get id = some dynasty)
      (free : state.roleDynastyDict uuid = none) (room : dynasty.isMemberFull = false)
      (fightScore : Int) :
      Effect expiry succession state
        ((state.setRole uuid (some id)).change id
          (dynasty.addDynastyMember uuid fightScore state.now))
  /-- One of several members leaves, and if he was godfather another one becomes it. -/
  | leave {id : ι} {dynasty after : Dynasty υ} {uuid : υ} {info : RoleInfo}
      (found : state.dynastyDict.get id = some dynasty) (several : 1 < dynasty.memberCount)
      (member : dynasty.memberDict.get uuid = some info)
      (followed : info.job ≠ .godFather ∧ after = dynasty.removeMember uuid info ∨
        info.job = .godFather ∧
          ∃ next, (dynasty.removeMember uuid info).setNextGodfather next = some after) :
      Effect expiry succession state ((state.setRole uuid none).change id after)
  /-- A role is no longer said to be in a dynasty of which it is no member. -/
  | forget {id : ι} {dynasty : Dynasty υ} {uuid : υ}
      (found : state.dynastyDict.get id = some dynasty)
      (own : state.roleDynastyDict uuid = some id) (missing : dynasty.memberDict.get uuid = none) :
      Effect expiry succession state (state.setRole uuid none)
  | dissolve {id : ι} {dynasty : Dynasty υ} {uuid : υ}
      (found : state.dynastyDict.get id = some dynasty) (alone : dynasty.memberCount ≤ 1)
      (own : state.roleDynastyDict uuid = some id ∨ (dynasty.memberDict.get uuid).isSome) :
      Effect expiry succession state ((state.setRole uuid none).remove id)
  /-- A dynasty is dissolved by the daily refresh, and saved after that. -/
  | expire (allowed : expiry) (id : ι) (dynasty : Dynasty υ) :
      Effect expiry succession state ((state.remove id).saveDynasty id dynasty)

variable {expiry succession : Prop} {state : State ι υ}

theorem Effect.edit {dynasty edited : Dynasty υ}
    (found : state.dynastyDict.get id = some dynasty) (edit : Edit succession dynasty edited) :
    Effect expiry succession state (state.change id edited) :=
  .change found edit (change_changed state id edited)

/-- A sequence of effects. -/
abbrev Effects (expiry succession : Prop) : State ι υ → State ι υ → Prop :=
  Relation.ReflTransGen (Effect expiry succession)

theorem Effects.invariant {expiry succession : Prop} {inv : State ι υ → Prop}
    (preserved : ∀ {before after}, inv before → Effect expiry succession before after → inv after)
    {state after : State ι υ} (effects : Effects expiry succession state after)
    (base : inv state) : inv after := by
  induction effects with
  | refl => exact base
  | tail _ effect ih => exact preserved ih effect

theorem foldl_effects {α : Type} {operate : State ι υ → α → State ι υ}
    (each : ∀ state element, Effects expiry succession state (operate state element))
    (elements : List α) (state : State ι υ) :
    Effects expiry succession state (elements.foldl operate state) := by
  induction elements generalizing state with
  | nil => exact .refl
  | cons element elements ih => exact (each state element).trans (ih (operate state element))

theorem Edit.unchanged_members {dynasty after : Dynasty υ}
    (members : after.memberDict = dynasty.memberDict)
    (count : after.memberCount = dynasty.memberCount)
    (score : after.dynastyScore = dynasty.dynastyScore)
    (level : after.dynastyLevel = dynasty.dynastyLevel) :
    Edit succession dynasty after :=
  .other members count score (by omega) (by omega)

omit [DecidableEq υ] in
theorem getDynasty_eq (state : State ι υ) (id : ι) :
    ∃ mgr, (state.getDynasty id).1 = { state with mgr } := by
  unfold State.getDynasty
  cases state.mgr.dbLru.get id with
  | none => exact ⟨_, rfl⟩
  | some found => exact ⟨state.mgr, rfl⟩

/-- The members, their number, the score and the level are as before, whoever has applied. -/
theorem deleteRoleApply_found
    (found : state.dynastyDict.get id = some dynasty) (uuid : υ) :
    ∃ applyDict, (state.deleteRoleApply id uuid).dynastyDict.get id =
      some { dynasty with applyDict } := by
  cases applied : dynasty.applyDict.get uuid with
  | none =>
      have same : state.deleteRoleApply id uuid = state := by
        simp only [State.deleteRoleApply, found, applied]
      rw [same]
      exact ⟨dynasty.applyDict, found⟩
  | some fightScore =>
      have changed : state.deleteRoleApply id uuid =
          state.change id { dynasty with applyDict := dynasty.applyDict.set uuid none } := by
        simp only [State.deleteRoleApply, found, applied]
      rw [changed]
      exact ⟨_, Table.get_set_self _ _ _⟩

theorem deleteRoleApply_roleDynastyDict (state : State ι υ) (id : ι) (uuid : υ) :
    (state.deleteRoleApply id uuid).roleDynastyDict = state.roleDynastyDict := by
  unfold State.deleteRoleApply
  split
  · rfl
  · split <;> rfl

theorem deleteRoleApply_created (state : State ι υ) (id : ι) (uuid : υ) :
    (state.deleteRoleApply id uuid).created = state.created := by
  unfold State.deleteRoleApply
  split
  · rfl
  · split <;> rfl

theorem deleteRoleApply_setRole (state : State ι υ) (id : ι) (uuid role : υ)
    (mapped : Option ι) :
    (state.setRole role mapped).deleteRoleApply id uuid =
      (state.deleteRoleApply id uuid).setRole role mapped := by
  have same : (state.setRole role mapped).dynastyDict = state.dynastyDict := rfl
  unfold State.deleteRoleApply
  rw [same]
  cases state.dynastyDict.get id with
  | none => rfl
  | some dynasty =>
      simp only
      cases dynasty.applyDict.get uuid <;> rfl

theorem deleteRoleApply_effects (id : ι) (uuid : υ) :
    Effects expiry succession state (state.deleteRoleApply id uuid) := by
  unfold State.deleteRoleApply
  split
  · exact .refl
  · rename_i dynasty found
    split
    · exact .refl
    · refine .single (.edit found ?_)
      exact .unchanged_members rfl rfl rfl rfl

theorem foldl_deleteRoleApply (id : ι) (uuids : List υ) (state : State ι υ)
    (found : state.dynastyDict.get id = some dynasty) :
    let cleared := uuids.foldl (fun state uuid => state.deleteRoleApply id uuid) state
    Effects expiry succession state cleared ∧ cleared.roleDynastyDict = state.roleDynastyDict ∧
      ∃ applyDict, cleared.dynastyDict.get id = some { dynasty with applyDict } := by
  induction uuids generalizing state dynasty with
  | nil => exact ⟨.refl, rfl, dynasty.applyDict, found⟩
  | cons uuid uuids ih =>
      obtain ⟨applied, next_found⟩ := deleteRoleApply_found found uuid
      obtain ⟨effects, roles, applyDict, last_found⟩ := ih _ next_found
      refine ⟨(deleteRoleApply_effects id uuid).trans effects, ?_, applyDict, last_found⟩
      exact roles.trans (deleteRoleApply_roleDynastyDict state id uuid)

omit [DecidableEq υ] in
theorem of_getDynastyCls
    (own : state.getDynastyCls uuid = some (id, dynasty)) :
    state.roleDynastyDict uuid = some id ∧ state.dynastyDict.get id = some dynasty := by
  unfold State.getDynastyCls at own
  cases role : state.roleDynastyDict uuid with
  | none =>
      rw [role] at own
      cases own
  | some other =>
      rw [role] at own
      obtain ⟨found, dict, same⟩ := Option.map_eq_some_iff.mp own
      cases same
      exact ⟨rfl, dict⟩

theorem dissolveDynasty_effects
    (found : state.dynastyDict.get id = some dynasty) (alone : dynasty.memberCount ≤ 1)
    (own : state.roleDynastyDict uuid = some id ∨ (dynasty.memberDict.get uuid).isSome) :
    Effects expiry succession state ((state.setRole uuid none).dissolveDynasty id dynasty) := by
  have commuted : dynasty.applyDict.keys.foldl (fun state uuid => state.deleteRoleApply id uuid)
        (state.setRole uuid none) =
      (dynasty.applyDict.keys.foldl (fun state uuid => state.deleteRoleApply id uuid)
        state).setRole uuid none :=
    List.foldl_hom (State.setRole · uuid none)
      fun state applied => deleteRoleApply_setRole state id applied uuid none
  obtain ⟨effects, roles, applyDict, cleared⟩ :=
    foldl_deleteRoleApply id dynasty.applyDict.keys state found
  unfold State.dissolveDynasty
  rw [commuted]
  refine effects.tail (.dissolve cleared alone ?_)
  rw [roles]
  exact own

variable {after : State ι υ}

theorem deleteDynastyMember_effects {uuid next : υ} (found : state.dynastyDict.get id = some dynasty)
    (own : state.roleDynastyDict uuid = some id ∨ (dynasty.memberDict.get uuid).isSome)
    (taken : state.deleteDynastyMember id dynasty uuid next = some after) :
    Effects expiry succession state after := by
  unfold State.deleteDynastyMember at taken
  split at taken
  · cases taken
    exact .refl
  · cases member : dynasty.memberDict.get uuid with
    | none =>
        rw [member] at taken own
        cases taken
        exact .single (.forget found (own.resolve_right (by simp)) member)
    | some info =>
        simp only [member] at taken
        split at taken
        · rename_i alone
          cases taken
          exact dissolveDynasty_effects found alone own
        · have many : 1 < dynasty.memberCount := by omega
          split at taken
          · rename_i godfather
            obtain ⟨followed, chosen, rfl⟩ := Option.map_eq_some_iff.mp taken
            exact .single (.leave found many member (.inr ⟨godfather, next, chosen⟩))
          · rename_i other
            cases taken
            exact .single (.leave found many member (.inl ⟨other, rfl⟩))

theorem quitDynasty_effects {uuid next : υ}
    (taken : state.quitDynasty uuid next = some after) :
    Effects expiry succession state after := by
  unfold State.quitDynasty at taken
  split at taken
  · cases taken
    exact .refl
  · rename_i id dynasty own
    obtain ⟨role, found⟩ := of_getDynastyCls own
    exact deleteDynastyMember_effects found (.inl role) taken

theorem kickOutDynasty_effects {uuid member next : υ}
    (taken : state.kickOutDynasty uuid member next = some after) :
    Effects expiry succession state after := by
  unfold State.kickOutDynasty at taken
  split at taken
  · cases taken
    exact .refl
  · rename_i id dynasty own
    obtain ⟨-, found⟩ := of_getDynastyCls own
    split at taken
    · rename_i kicker info kicker_found member_found
      split at taken
      · cases taken
        exact .refl
      · exact deleteDynastyMember_effects found (.inr (by simp [member_found])) taken
    · cases taken
      exact .refl

theorem getDynasty_setRole (state : State ι υ) (id : ι) (uuid : υ) (mapped : Option ι) :
    (state.setRole uuid mapped).getDynasty id =
      ((state.getDynasty id).1.setRole uuid mapped, (state.getDynasty id).2) := by
  unfold State.getDynasty State.setRole
  cases state.mgr.dbLru.get id <;> rfl

theorem newDynastyCls_setRole (state : State ι υ) (id : ι) (uuid : υ) (mapped : Option ι)
    (dynasty : Dynasty υ) :
    (state.setRole uuid mapped).newDynastyCls id uuid dynasty =
      state.newDynastyCls id uuid dynasty := by
  simp [State.newDynastyCls, State.setRole]

theorem createDynasty_effects (unused : id ∉ state.created) (name : String)
    (applied : List ι) (fightScore : Int) :
    Effects expiry succession state
      { state.createDynasty uuid id name applied fightScore with
        created := id :: state.created } := by
  unfold State.createDynasty
  split
  · exact .single (.attempt id)
  · rename_i free
    split
    · exact .single (.attempt id)
    · let operate : State ι υ → ι → State ι υ := fun state other => state.deleteRoleApply other uuid
      let cleared := applied.foldl operate state
      have commuted : applied.foldl operate (state.setRole uuid (some id)) =
          cleared.setRole uuid (some id) :=
        List.foldl_hom (State.setRole · uuid (some id))
          fun state other => deleteRoleApply_setRole state other uuid uuid (some id)
      have roles : cleared.roleDynastyDict = state.roleDynastyDict := by
        refine List.foldlRecOn applied operate (motive := fun next =>
          next.roleDynastyDict = state.roleDynastyDict) rfl fun next same other _ => ?_
        exact (deleteRoleApply_roleDynastyDict next other uuid).trans same
      have created : cleared.created = state.created := by
        refine List.foldlRecOn applied operate (motive := fun next =>
          next.created = state.created) rfl fun next same other _ => ?_
        exact (deleteRoleApply_created next other uuid).trans same
      have effects : Effects expiry succession state cleared :=
        foldl_effects (fun state other => deleteRoleApply_effects other uuid) applied state
      have free' : cleared.roleDynastyDict uuid = none := by
        rw [roles]
        simpa using free
      have established : Effect expiry succession cleared
          (cleared.establish uuid id name fightScore) :=
        .establish (created ▸ unused) free' name fightScore
      change Effects expiry succession state
        { ((applied.foldl operate (state.setRole uuid (some id))).getDynasty id).1.newDynastyCls
            id uuid (((applied.foldl operate (state.setRole uuid (some id))).getDynasty id).2.create
              uuid name fightScore) with
          created := id :: state.created }
      rw [commuted, getDynasty_setRole, newDynastyCls_setRole, ← created]
      exact effects.tail established

theorem le_checkLvlup (exp : Int) (level : Nat) : level ≤ Dynasty.checkLvlup exp level := by
  fun_induction Dynasty.checkLvlup exp level with
  | case1 => exact le_rfl
  | case2 => exact le_rfl
  | case3 level data found enough ih => omega

theorem checkLvlup_le (exp : Int) (level : Nat) :
    Dynasty.checkLvlup exp level ≤ max level dynastyData.length := by
  fun_induction Dynasty.checkLvlup exp level with
  | case1 => exact le_max_left _ _
  | case2 => exact le_max_left _ _
  | case3 level data found enough ih =>
      have inside := (List.getElem?_eq_some_iff.mp found).1
      omega

theorem onDynasty_effects {operate : Dynasty υ → Dynasty υ}
    (edit : ∀ dynasty, Edit succession dynasty (operate dynasty)) :
    Effects expiry succession state (state.onDynasty id operate) := by
  unfold State.onDynasty
  split
  · exact .refl
  · rename_i dynasty found
    exact .single (.edit found (edit dynasty))

theorem applyDynasty_effects (uuid : υ) (id : ι) (fightScore : Int) :
    Effects expiry succession state (state.applyDynasty uuid id fightScore) :=
  onDynasty_effects fun _ => .unchanged_members rfl rfl rfl rfl

theorem agreeApplyDynasty_effects (uuid member : υ) :
    Effects expiry succession state (state.agreeApplyDynasty uuid member) := by
  unfold State.agreeApplyDynasty
  split
  · exact .refl
  · rename_i id dynasty own
    obtain ⟨-, found⟩ := of_getDynastyCls own
    split
    · exact deleteRoleApply_effects id member
    · rename_i free
      split
      · exact .refl
      · split
        · exact .refl
        · rename_i room
          split
          · exact .refl
          · rename_i fightScore applied
            exact .single (.join found (by simpa using free) (by simpa using room) fightScore)

theorem refuseApplyDynasty_effects (uuid : υ) (member : Option υ) :
    Effects expiry succession state (state.refuseApplyDynasty uuid member) := by
  unfold State.refuseApplyDynasty
  split
  · exact .refl
  · rename_i id dynasty own
    split
    · exact .refl
    · split
      · rename_i member
        exact deleteRoleApply_effects id member
      · exact foldl_effects (fun state uuid => deleteRoleApply_effects id uuid) _ state

theorem setOfflineTs_effects (uuid : υ) (offlineTs : Option Nat) :
    Effects expiry succession state (state.setOfflineTs uuid offlineTs) := by
  unfold State.setOfflineTs
  split
  · exact .refl
  · rename_i id dynasty own
    obtain ⟨-, found⟩ := of_getDynastyCls own
    split
    · exact .refl
    · rename_i info member
      exact .single (.edit found (.presence member offlineTs))

theorem updateDynastyRoleInfo_effects (uuid : υ) (dedicate fightScore : Option Int) :
    Effects expiry succession state (state.updateDynastyRoleInfo uuid dedicate fightScore) := by
  unfold State.updateDynastyRoleInfo
  split
  · exact .refl
  · rename_i id dynasty own
    obtain ⟨-, found⟩ := of_getDynastyCls own
    split
    · exact .refl
    · rename_i info member
      exact .single (.edit found (.info member dedicate fightScore))

theorem of_isGodfather (godfather : dynasty.isGodfather uuid) :
    ∃ info, dynasty.memberDict.get uuid = some info ∧ info.job = .godFather := by
  unfold Dynasty.isGodfather at godfather
  split at godfather
  · cases godfather
  · rename_i info found
    exact ⟨info, found, by simpa using godfather⟩

theorem of_setNextGodfather {dynasty after : Dynasty υ} {next : υ}
    (chosen : dynasty.setNextGodfather next = some after) :
    ∃ info, dynasty.memberDict.get next = some info ∧
      after = dynasty.modifyMemberJob next .godFather := by
  unfold Dynasty.setNextGodfather at chosen
  split at chosen
  · rename_i follows
    unfold Dynasty.mayFollow at follows
    split at follows
    · cases follows
    · rename_i info found
      exact ⟨info, found, (Option.some.inj chosen).symm⟩
  · cases chosen

theorem appointDynastyMember_effects (uuid member : υ) (job : Job) :
    Effects expiry succession state (state.appointDynastyMember uuid member job) := by
  unfold State.appointDynastyMember
  split
  · exact .refl
  · rename_i different
    split
    · exact .refl
    · rename_i id dynasty own
      obtain ⟨-, found⟩ := of_getDynastyCls own
      split
      · exact .refl
      · rename_i info member_found
        split
        · exact .refl
        · split
          · exact .refl
          · rename_i not_godfather
            obtain ⟨own_info, own_found, own_job⟩ := of_isGodfather (by simpa using not_godfather)
            split
            · split
              · exact .refl
              · rename_i second
                refine .single (.change found
                  (.transfer different own_found own_job member_found (by simpa using second))
                  ?_)
                exact (change_changed _ _ _).trans (change_changed _ _ _)
            · split
              · exact .refl
              · rename_i room
                refine .single (.edit found
                  (.appoint different own_found own_job member_found (by simp) ?_))
                simpa [Job.maxNum] using room
            · refine .single (.edit found
                (.appoint different own_found own_job member_found (by simp) ?_))
              simp [Job.maxNum]

theorem dissolveOwnDynasty_effects (uuid : υ) :
    Effects expiry succession state (state.dissolveOwnDynasty uuid) := by
  unfold State.dissolveOwnDynasty
  split
  · exact .refl
  · rename_i id dynasty own
    obtain ⟨role, found⟩ := of_getDynastyCls own
    split
    · exact .refl
    · exact dissolveDynasty_effects found (by omega) (.inl role)

theorem dynastyCompeteApply_effects (uuid : υ) :
    Effects expiry succession state (state.dynastyCompeteApply uuid) := by
  unfold State.dynastyCompeteApply
  split
  · exact .refl
  · rename_i id dynasty own
    obtain ⟨-, found⟩ := of_getDynastyCls own
    split
    · exact .refl
    · refine .single (.edit found ?_)
      exact .unchanged_members rfl rfl rfl rfl

theorem dailyRefresh_effects {order : List υ} {next : υ}
    (taken : state.dailyRefresh id order next = some after) :
    Effects (Expires state (.dailyRefresh id order next))
      (Succeeds state (.dailyRefresh id order next)) state after := by
  unfold State.dailyRefresh at taken
  split at taken
  · cases taken
  · rename_i dynasty found
    split at taken
    · split at taken
      · cases taken
      · rename_i godfather recorded
        obtain ⟨checked, check, rfl⟩ := Option.map_eq_some_iff.mp taken
        obtain ⟨info, member, job⟩ := of_isGodfather (List.find?_some recorded)
        have resaved : ∀ {expiry succession : Prop},
            Effects expiry succession state (state.saveDynasty id dynasty) :=
          .single (.change found (.unchanged_members rfl rfl rfl rfl) (saveDynasty_changed found))
        unfold State.checkDynastyGodfather at check
        split at check
        · rename_i absent
          have found_absent : absentGodfather state dynasty order = some godfather := by
            unfold absentGodfather
            rw [recorded]
            simpa using absent
          split at check
          · rename_i alone
            split at check
            · cases check
              exact resaved
            · rename_i not_applied
              cases check
              have expires : Expires state (.dailyRefresh id order next) :=
                ⟨dynasty, found, by simp [found_absent], alone, by simpa using not_applied⟩
              obtain ⟨effects, -, -⟩ :=
                foldl_deleteRoleApply id dynasty.applyDict.keys state found
              exact effects.tail (.expire expires id _)
          · obtain ⟨followed, chosen, rfl⟩ := Option.map_eq_some_iff.mp check
            obtain ⟨next_info, next_member, rfl⟩ := of_setNextGodfather chosen
            refine .single (.change found (.succeed next_member ?_)
              ((change_changed state id _).trans
                (saveDynasty_changed (Table.get_set_self _ _ _))))
            by_cases same : next = godfather
            · subst same
              cases member.symm.trans next_member
              exact .inr job
            · exact .inl ⟨dynasty, found, godfather, found_absent, by omega, same⟩
        · cases check
          exact resaved
    · cases taken

theorem step_effects {label : Label ι υ}
    (taken : step state label = some after) :
    Effects (Expires state label) (Succeeds state label) state after := by
  cases label with
  | create uuid id name applied fightScore =>
      simp only [step] at taken
      split at taken
      · cases taken
      · rename_i unused
        cases taken
        exact createDynasty_effects unused name applied fightScore
  | apply uuid id fightScore =>
      cases taken
      exact applyDynasty_effects uuid id fightScore
  | cancelApply uuid id =>
      cases taken
      exact deleteRoleApply_effects id uuid
  | agree uuid member =>
      cases taken
      exact agreeApplyDynasty_effects uuid member
  | refuse uuid member =>
      cases taken
      exact refuseApplyDynasty_effects uuid member
  | join uuid fightScore =>
      cases taken
      exact (setOfflineTs_effects uuid none).trans
        (updateDynastyRoleInfo_effects uuid none (some fightScore))
  | login uuid =>
      cases taken
      exact setOfflineTs_effects uuid none
  | logout uuid =>
      cases taken
      exact setOfflineTs_effects uuid (some state.now)
  | quit uuid next => exact quitDynasty_effects taken
  | kick uuid member next => exact kickOutDynasty_effects taken
  | appoint uuid member job =>
      cases taken
      exact appointDynastyMember_effects uuid member job
  | dissolve uuid =>
      cases taken
      exact dissolveOwnDynasty_effects uuid
  | dailyRefresh id order next => exact dailyRefresh_effects taken
  | updateRoleInfo uuid dedicate fightScore =>
      cases taken
      exact updateDynastyRoleInfo_effects uuid dedicate fightScore
  | modifyName id name =>
      simp only [step] at taken
      split at taken
      · cases taken
        exact .refl
      · cases taken
        exact onDynasty_effects fun _ => .unchanged_members rfl rfl rfl rfl
  | addExp id exp =>
      cases taken
      exact onDynasty_effects fun _ =>
        .other rfl rfl rfl (le_checkLvlup _ _) (checkLvlup_le _ _)
  | spendExp id exp =>
      cases taken
      exact onDynasty_effects fun _ => .unchanged_members rfl rfl rfl rfl
  | competeApply uuid =>
      cases taken
      exact dynastyCompeteApply_effects uuid
  | competeOpen id =>
      cases taken
      exact onDynasty_effects fun _ => .unchanged_members rfl rfl rfl rfl
  | updateRank id rank score dropped =>
      simp only [step] at taken
      split at taken
      · cases taken
      · rename_i dynasty found
        cases taken
        refine .single (.rank fun other_rank other ranked => ?_)
        by_cases same_rank : other_rank = rank
        · subst same_rank
          rw [Function.update_self] at ranked
          by_cases same : other = id
          · subst same
            exact .inr (by simp [found])
          · rw [Function.update_of_ne same] at ranked
            cases dropped with
            | none => exact .inl ranked
            | some last =>
                refine .inl ?_
                by_cases is_last : other = last
                · simp [is_last] at ranked
                · simpa [Function.update_of_ne is_last] using ranked
        · rw [Function.update_of_ne same_rank] at ranked
          exact .inl ranked
  | save id =>
      cases taken
      exact .single (.save id)
  | tick seconds =>
      cases taken
      exact .single (.tick seconds)

end UEServer.DynastyUtils
