import UEServer.Dynasty.Effect

/-!
# The bookkeeping of the members

The number of the members, their score, the dynasties of the roles, the list of the dynasties and
what the manager holds of them agree, as long as no daily refresh dissolves a dynasty: that leaves
its member mapped to it and saves it again.
-/

namespace UEServer.DynastyUtils

variable {ι υ : Type} [DecidableEq ι] [DecidableEq υ]

omit [DecidableEq υ] in
structure Sound (dynasty : Dynasty υ) : Prop where
  count : dynasty.memberCount = dynasty.memberDict.size
  level : 1 ≤ dynasty.dynastyLevel ∧ dynasty.dynastyLevel ≤ dynastyData.length
  room : dynasty.memberCount ≤ maxNum dynasty.dynastyLevel
  score : dynasty.dynastyScore = dynasty.memberDict.total RoleInfo.fightScore

theorem maxNum_mono {low high : Nat} (positive : 1 ≤ low) (le : low ≤ high)
    (bounded : high ≤ dynastyData.length) : maxNum low ≤ maxNum high := by
  have table : ∀ high ∈ Finset.range 11, ∀ low ∈ Finset.range 11, 1 ≤ low → low ≤ high →
      maxNum low ≤ maxNum high := by decide
  have last : high < 11 := by
    have := bounded
    simp only [dynastyData, List.length_cons, List.length_nil] at this
    omega
  exact table high (Finset.mem_range.mpr last) low (Finset.mem_range.mpr (by omega)) positive le

variable {dynasty : Dynasty υ} {uuid : υ}

theorem Sound.replaced (sound : Sound dynasty)
    {info after : RoleInfo} (found : dynasty.memberDict.get uuid = some info) {score : Int}
    (scored : score = dynasty.dynastyScore - info.fightScore + after.fightScore) :
    Sound
      { dynasty with
        memberDict := dynasty.memberDict.set uuid (some after), dynastyScore := score } := by
  have size := Table.size_set dynasty.memberDict uuid (some after)
  have total := Table.total_set RoleInfo.fightScore dynasty.memberDict uuid (some after)
  rw [found] at size total
  simp only [Table.weight_some, Table.weighed_some] at size total
  have count := sound.count
  have old_score := sound.score
  refine ⟨?_, sound.level, sound.room, ?_⟩
  · change dynasty.memberCount = (dynasty.memberDict.set uuid (some after)).size
    omega
  · change score = (dynasty.memberDict.set uuid (some after)).total RoleInfo.fightScore
    omega

theorem Sound.modifyMemberJob (sound : Sound dynasty)
    {info : RoleInfo} (found : dynasty.memberDict.get uuid = some info) (job : Job) :
    Sound (dynasty.modifyMemberJob uuid job) := by
  rw [modifyMemberJob_eq found]
  exact sound.replaced found (by simp)

theorem Sound.addDynastyMember (sound : Sound dynasty)
    (missing : dynasty.memberDict.get uuid = none) (room : dynasty.isMemberFull = false)
    (fightScore : Int) (now : Nat) : Sound (dynasty.addDynastyMember uuid fightScore now) := by
  let info : RoleInfo :=
    { job := .member, fightScore, historyDedicate := 0, offlineTs := some now }
  have size := Table.size_set dynasty.memberDict uuid (some info)
  have total := Table.total_set RoleInfo.fightScore dynasty.memberDict uuid (some info)
  rw [missing] at size total
  simp only [Table.weight_some, Table.weight_none, Table.weighed_some, Table.weighed_none]
    at size total
  have count := sound.count
  have score := sound.score
  have less : dynasty.memberCount < maxNum dynasty.dynastyLevel := by
    simpa [Dynasty.isMemberFull] using room
  refine ⟨?_, sound.level, less, ?_⟩
  · change dynasty.memberCount + 1 = (dynasty.memberDict.set uuid (some info)).size
    omega
  · change dynasty.dynastyScore + fightScore =
      (dynasty.memberDict.set uuid (some info)).total RoleInfo.fightScore
    have scored : info.fightScore = fightScore := rfl
    omega

theorem Sound.removeMember (sound : Sound dynasty)
    {info : RoleInfo} (found : dynasty.memberDict.get uuid = some info) :
    Sound (dynasty.removeMember uuid info) := by
  have size := Table.size_set dynasty.memberDict uuid none
  have total := Table.total_set RoleInfo.fightScore dynasty.memberDict uuid none
  rw [found] at size total
  simp only [Table.weight_some, Table.weight_none, Table.weighed_some, Table.weighed_none]
    at size total
  have count := sound.count
  have score := sound.score
  have room := sound.room
  refine ⟨?_, sound.level, ?_, ?_⟩
  · change dynasty.memberCount - 1 = (dynasty.memberDict.set uuid none).size
    omega
  · change dynasty.memberCount - 1 ≤ maxNum dynasty.dynastyLevel
    omega
  · change dynasty.dynastyScore - info.fightScore =
      (dynasty.memberDict.set uuid none).total RoleInfo.fightScore
    omega

theorem sound_create (uuid : υ) (name : String) (fightScore : Int) :
    Sound (Dynasty.fresh.create uuid name fightScore) := by
  let info : RoleInfo :=
    { job := .godFather, fightScore, historyDedicate := 0, offlineTs := none }
  have size := Table.size_set Table.empty uuid (some info)
  have total := Table.total_set RoleInfo.fightScore Table.empty uuid (some info)
  simp only [Table.get_empty, Table.weight_some, Table.weight_none, Table.weighed_some,
    Table.weighed_none, Table.size_empty, Table.total_empty] at size total
  have level : 1 ≤ 1 ∧ 1 ≤ dynastyData.length := by decide
  have room : 1 ≤ maxNum 1 := by decide
  refine ⟨?_, level, room, ?_⟩
  · change 1 = (Table.empty.set uuid (some info)).size
    omega
  · change fightScore = (Table.empty.set uuid (some info)).total RoleInfo.fightScore
    have scored : info.fightScore = fightScore := rfl
    omega

theorem Edit.sound {succession : Prop} {dynasty after : Dynasty υ}
    (edit : Edit succession dynasty after) (sound : Sound dynasty) : Sound after := by
  cases edit with
  | other members count score grown bounded =>
      have level := sound.level
      have top : after.dynastyLevel ≤ dynastyData.length := by omega
      refine ⟨?_, by omega, ?_, ?_⟩
      · rw [members, count]
        exact sound.count
      · rw [count]
        exact sound.room.trans (maxNum_mono level.1 grown top)
      · rw [members, score]
        exact sound.score
  | presence found offlineTs => exact sound.replaced found (by simp)
  | info found dedicate fightScore =>
      refine sound.replaced found ?_
      cases fightScore <;> simp
  | appoint _ _ _ found _ _ => exact sound.modifyMemberJob found _
  | transfer different own_found own_job found job =>
      have promoted := sound.modifyMemberJob found .godFather
      rw [modifyMemberJob_eq found] at promoted ⊢
      exact promoted.modifyMemberJob ((Table.get_set_of_ne _ _ different).trans own_found) .member
  | succeed found _ => exact sound.modifyMemberJob found .godFather

structure Books (state : State ι υ) : Prop where
  /-- The members are counted, and the level has room for them. -/
  count : ∀ id dynasty, state.dynastyDict.get id = some dynasty →
    dynasty.memberCount = dynasty.memberDict.size ∧
      dynasty.memberCount ≤ maxNum dynasty.dynastyLevel
  score : ∀ id dynasty, state.dynastyDict.get id = some dynasty →
    dynasty.dynastyScore = dynasty.memberDict.total RoleInfo.fightScore
  /-- A role is mapped to the dynasty of which it is a member. -/
  members : ∀ uuid id, state.roleDynastyDict uuid = some id ↔
    ∃ dynasty, state.dynastyDict.get id = some dynasty ∧ (dynasty.memberDict.get uuid).isSome
  alone : ∀ uuid id other dynasty second, state.dynastyDict.get id = some dynasty →
    (dynasty.memberDict.get uuid).isSome → state.dynastyDict.get other = some second →
      (second.memberDict.get uuid).isSome → id = other
  unreferred : ∀ id, state.dynastyDict.get id = none → id ∉ state.dynastyList ∧
    (∀ uuid, state.roleDynastyDict uuid ≠ some id) ∧ ∀ rank, state.rankDict rank id = none
  /-- A dynasty that is not there is neither held by the manager nor marked to be written, and has
  no row when its deletion has been made. -/
  unwritten : ∀ id, state.dynastyDict.get id = none → state.mgr.dbLru.get id = none ∧
    (state.mgr.saveLru.get id = some .delete ∨
      state.mgr.saveLru.get id = none ∧ state.rows id = none)

/-- What every effect but the dissolution by the daily refresh keeps. -/
structure Kept (state : State ι υ) : Prop where
  sound : ∀ id dynasty, state.dynastyDict.get id = some dynasty → Sound dynasty
  /-- A role is mapped to the dynasty of which it is a member. -/
  members : ∀ uuid id, state.roleDynastyDict uuid = some id ↔
    ∃ dynasty, state.dynastyDict.get id = some dynasty ∧ (dynasty.memberDict.get uuid).isSome
  nodup : state.dynastyList.Nodup
  listed : ∀ id, id ∈ state.dynastyList ↔ (state.dynastyDict.get id).isSome
  ranked : ∀ rank id, (state.rankDict rank id).isSome → (state.dynastyDict.get id).isSome
  created : ∀ id, (state.dynastyDict.get id).isSome → id ∈ state.created
  unused : ∀ id, id ∉ state.created → state.mgr.saveLru.get id = none
  insert : ∀ id, state.mgr.saveLru.get id = some .insert → state.rows id = none
  gone : ∀ id, state.dynastyDict.get id = none → state.mgr.dbLru.get id = none ∧
    (state.mgr.saveLru.get id = some .delete ∨
      state.mgr.saveLru.get id = none ∧ state.rows id = none)

variable {state : State ι υ}

theorem Kept.books (kept : Kept state) : Books state := by
  refine ⟨fun id dynasty found => ?_, fun id dynasty found => (kept.sound id dynasty found).score,
    kept.members, fun uuid id other dynasty second found member other_found other_member => ?_,
    fun id missing => ⟨fun mem => ?_, fun uuid role => ?_, fun rank => ?_⟩, kept.gone⟩
  · have sound := kept.sound id dynasty found
    exact ⟨sound.count, sound.room⟩
  · have role := (kept.members uuid id).mpr ⟨dynasty, found, member⟩
    have other_role := (kept.members uuid other).mpr ⟨second, other_found, other_member⟩
    exact Option.some.inj (role.symm.trans other_role)
  · have there := (kept.listed id).mp mem
    simp [missing] at there
  · obtain ⟨dynasty, found, -⟩ := (kept.members uuid id).mp role
    simp [missing] at found
  · cases score : state.rankDict rank id with
    | none => rfl
    | some value =>
        have there := kept.ranked rank id (by simp [score])
        simp [missing] at there

theorem initial_kept : Kept (initial : State ι υ) := by
  refine ⟨?_, ?_, List.nodup_nil, ?_, ?_, ?_, ?_, ?_, ?_⟩ <;> simp [initial]

variable {id : ι}

theorem Kept.changed {state after : State ι υ} (kept : Kept state)
    {dynasty edited : Dynasty υ} (found : state.dynastyDict.get id = some dynasty)
    {roles : υ → Option ι}
    (changed : Changed { state with roleDynastyDict := roles } after id edited)
    (sound : Sound edited)
    (mapped : ∀ uuid, roles uuid = some id ↔ (edited.memberDict.get uuid).isSome)
    (others : ∀ uuid other, other ≠ id →
      (roles uuid = some other ↔ state.roleDynastyDict uuid = some other)) : Kept after := by
  have there : ∀ other, (after.dynastyDict.get other).isSome =
      (state.dynastyDict.get other).isSome := by
    intro other
    rw [changed.dynasties]
    split
    · rename_i same
      simp [same, found]
    · rfl
  refine ⟨fun other edited_dynasty other_found => ?_, fun uuid other => ?_, ?_, fun other => ?_,
    fun rank other => ?_, fun other => ?_, fun other unused => ?_, fun other marked => ?_,
    fun other missing => ?_⟩
  · rw [changed.dynasties] at other_found
    split at other_found
    · cases other_found
      exact sound
    · exact kept.sound other edited_dynasty other_found
  · rw [changed.roles, changed.dynasties]
    split
    · rename_i same
      subst same
      simp [mapped]
    · rename_i different
      rw [others uuid other different]
      exact kept.members uuid other
  · rw [changed.list]
    exact kept.nodup
  · rw [changed.list, there]
    exact kept.listed other
  · rw [changed.ranks, there]
    exact kept.ranked rank other
  · rw [changed.created, there]
    exact kept.created other
  · rw [changed.created] at unused
    have different : other ≠ id := by
      rintro rfl
      exact unused (kept.created other (by simp [found]))
    rw [changed.marks other different]
    exact kept.unused other unused
  · rw [changed.rows]
    by_cases same : other = id
    · subst same
      exact kept.insert other (changed.mark marked)
    · rw [changed.marks other same] at marked
      exact kept.insert other marked
  · have different : other ≠ id := by
      rintro rfl
      rw [changed.dynasties, if_pos rfl] at missing
      cases missing
    rw [changed.dynasties, if_neg different] at missing
    rw [changed.cached other different, changed.marks other different, changed.rows]
    exact kept.gone other missing

theorem Kept.mapped (kept : Kept state)
    (found : state.dynastyDict.get id = some dynasty) (uuid : υ) :
    state.roleDynastyDict uuid = some id ↔ (dynasty.memberDict.get uuid).isSome := by
  rw [kept.members]
  simp [found]

theorem Kept.edit {state after : State ι υ} (kept : Kept state) {succession : Prop}
    {dynasty edited : Dynasty υ} (found : state.dynastyDict.get id = some dynasty)
    (edit : Edit succession dynasty edited) (changed : Changed state after id edited) :
    Kept after := by
  have mapped : ∀ uuid, state.roleDynastyDict uuid = some id ↔
      (edited.memberDict.get uuid).isSome := by
    intro uuid
    rw [edit.members]
    exact kept.mapped found uuid
  have frame : Changed { state with roleDynastyDict := state.roleDynastyDict } after id edited :=
    changed
  exact kept.changed found frame (edit.sound (kept.sound id dynasty found)) mapped
    fun _ _ _ => Iff.rfl

theorem Kept.join (kept : Kept state)
    (found : state.dynastyDict.get id = some dynasty) (free : state.roleDynastyDict uuid = none)
    (room : dynasty.isMemberFull = false) (fightScore : Int) :
    Kept ((state.setRole uuid (some id)).change id
      (dynasty.addDynastyMember uuid fightScore state.now)) := by
  have missing : dynasty.memberDict.get uuid = none := by
    have unmapped := kept.mapped found uuid
    rw [free] at unmapped
    simpa using unmapped
  refine kept.changed found (change_changed (state.setRole uuid (some id)) id _)
    ((kept.sound id dynasty found).addDynastyMember missing room fightScore state.now)
    (fun other => ?_) fun other place different => ?_
  · change Function.update state.roleDynastyDict uuid (some id) other = some id ↔
      ((dynasty.memberDict.set uuid (some _)).get other).isSome
    rw [Table.get_set]
    by_cases same : other = uuid
    · simp [same]
    · rw [Function.update_of_ne same, if_neg same]
      exact kept.mapped found other
  · by_cases same : other = uuid
    · subst same
      simp [free, Ne.symm different]
    · rw [Function.update_of_ne same]

theorem Kept.leave (kept : Kept state) {dynasty after : Dynasty υ} {info : RoleInfo} (found : state.dynastyDict.get id = some dynasty)
    (member : dynasty.memberDict.get uuid = some info)
    (followed : info.job ≠ .godFather ∧ after = dynasty.removeMember uuid info ∨
      info.job = .godFather ∧
        ∃ next, (dynasty.removeMember uuid info).setNextGodfather next = some after) :
    Kept ((state.setRole uuid none).change id after) := by
  have role := (kept.mapped found uuid).mpr (by simp [member])
  have removed := (kept.sound id dynasty found).removeMember member
  have left : Sound after ∧ ∀ other, (after.memberDict.get other).isSome =
      ((dynasty.memberDict.set uuid none).get other).isSome := by
    rcases followed with ⟨-, rfl⟩ | ⟨-, next, chosen⟩
    · exact ⟨removed, fun _ => rfl⟩
    · obtain ⟨next_info, next_found, rfl⟩ := of_setNextGodfather chosen
      exact ⟨removed.modifyMemberJob next_found _, isSome_modifyMemberJob _ _ _⟩
  refine kept.changed found (change_changed (state.setRole uuid none) id after) left.1
    (fun other => ?_) fun other place different => ?_
  · rw [left.2, Table.get_set]
    by_cases same : other = uuid
    · simp [same]
    · rw [Function.update_of_ne same, if_neg same]
      exact kept.mapped found other
  · by_cases same : other = uuid
    · subst same
      simp [role, Ne.symm different]
    · rw [Function.update_of_ne same]

omit [DecidableEq υ] in
theorem get_delete_saveLru (mgr : OfflineDb.Mgr ι Unit (Dynasty υ)) (id other : ι) (time : Nat) :
    (mgr.delete id time).saveLru.get other =
      if other = id then
        if mgr.saveLru.get id = some .insert then none else some .delete
      else mgr.saveLru.get other := by
  simp only [OfflineDb.Mgr.delete]
  cases marked : mgr.saveLru.get id with
  | none => simpa [marked] using Lru.get_put mgr.saveLru id other .delete time
  | some op =>
      cases op with
      | insert => simpa [marked] using Lru.get_erase mgr.saveLru id other
      | save => simpa [marked] using Lru.get_put mgr.saveLru id other .delete time
      | delete => simpa [marked] using Lru.get_put mgr.saveLru id other .delete time

theorem Kept.dissolve (kept : Kept state) (found : state.dynastyDict.get id = some dynasty) (alone : dynasty.memberCount ≤ 1)
    (member : (dynasty.memberDict.get uuid).isSome) :
    Kept ((state.setRole uuid none).remove id) := by
  have only : ∀ other, (dynasty.memberDict.get other).isSome → other = uuid := by
    intro other other_member
    have count := (kept.sound id dynasty found).count
    exact Table.eq_of_size_le_one (by omega) other_member member
  have dict : ∀ other, ((state.setRole uuid none).remove id).dynastyDict.get other =
      if other = id then none else state.dynastyDict.get other :=
    fun other => Table.get_set state.dynastyDict id other none
  have marks : ∀ other, ((state.setRole uuid none).remove id).mgr.saveLru.get other =
      if other = id then
        if state.mgr.saveLru.get id = some .insert then none else some .delete
      else state.mgr.saveLru.get other :=
    fun other => get_delete_saveLru state.mgr id other state.now
  have cached : ∀ other, ((state.setRole uuid none).remove id).mgr.dbLru.get other =
      if other = id then none else state.mgr.dbLru.get other :=
    fun other => Lru.get_erase state.mgr.dbLru id other
  have role_of : state.roleDynastyDict uuid = some id := (kept.mapped found uuid).mpr member
  refine ⟨fun other other_dynasty other_found => ?_, fun role other => ?_,
    kept.nodup.erase id, fun other => ?_, fun rank other ranked => ?_, fun other there => ?_,
    fun other unused => ?_, fun other marked => ?_, fun other missing => ?_⟩
  · rw [dict] at other_found
    split at other_found
    · cases other_found
    · exact kept.sound other other_dynasty other_found
  · rw [dict]
    change Function.update state.roleDynastyDict uuid none role = some other ↔ _
    have before := kept.members role other
    by_cases same_role : role = uuid
    · subst same_role
      split
      · simp
      · rename_i different
        rw [← before, role_of]
        simp [Ne.symm different]
    · rw [Function.update_of_ne same_role]
      split
      · rename_i same
        subst same
        rw [kept.mapped found role]
        simpa using mt (only role) same_role
      · exact before
  · rw [dict]
    change other ∈ state.dynastyList.erase id ↔ _
    rw [kept.nodup.mem_erase_iff, kept.listed]
    split <;> simp_all
  · change (Function.update (state.rankDict rank) id none other).isSome at ranked
    rw [dict]
    by_cases same : other = id
    · simp [same] at ranked
    · rw [Function.update_of_ne same] at ranked
      rw [if_neg same]
      exact kept.ranked rank other ranked
  · rw [dict] at there
    split at there
    · cases there
    · exact kept.created other there
  · have different : other ≠ id := by
      rintro rfl
      exact unused (kept.created other (by simp [found]))
    rw [marks, if_neg different]
    exact kept.unused other unused
  · rw [marks] at marked
    split at marked
    · split at marked <;> cases marked
    · exact kept.insert other marked
  · rw [cached, marks]
    rw [dict] at missing
    by_cases same : other = id
    · subst same
      simp only [if_pos]
      by_cases inserting : state.mgr.saveLru.get other = some .insert
      · exact ⟨trivial, .inr ⟨if_pos inserting, kept.insert other inserting⟩⟩
      · exact ⟨trivial, .inl (if_neg inserting)⟩
    · rw [if_neg same] at missing ⊢
      rw [if_neg same]
      exact kept.gone other missing

theorem Kept.checkSave (kept : Kept state) (id : ι) :
    Kept (state.checkSave id) := by
  cases marked : state.mgr.saveLru.get id with
  | none =>
      have same : state.checkSave id = state := by
        unfold State.checkSave
        rw [marked]
      rw [same]
      exact kept
  | some op =>
      have saved : state.checkSave id =
          { state with
            mgr := { state.mgr with saveLru := state.mgr.saveLru.erase id }
            rows := Function.update state.rows id
              (OfflineDb.write op (state.mgr.dbLru.get id) (state.rows id)) } := by
        unfold State.checkSave
        rw [marked]
      have marks := Lru.get_erase state.mgr.saveLru id
      rw [saved]
      refine { kept with
        unused := fun other unused => ?_
        insert := fun other inserting => ?_
        gone := fun other missing => ?_ }
      · rw [marks, kept.unused other unused, ite_self]
      · rw [marks] at inserting
        split at inserting
        · cases inserting
        · rename_i different
          change Function.update state.rows id _ other = none
          rw [Function.update_of_ne different]
          exact kept.insert other inserting
      · obtain ⟨cached, mark⟩ := kept.gone other missing
        refine ⟨cached, ?_⟩
        change (state.mgr.saveLru.erase id).get other = _ ∨
          (state.mgr.saveLru.erase id).get other = _ ∧ Function.update state.rows id _ other = none
        rw [marks]
        by_cases same : other = id
        · subst same
          rw [marked] at mark
          obtain rfl : op = .delete := by simpa using mark
          exact .inr ⟨if_pos rfl, Function.update_self _ _ _⟩
        · rw [if_neg same, Function.update_of_ne same]
          exact mark

theorem Kept.getDynasty (kept : Kept state)
    (unused : id ∉ state.created) :
    state.dynastyDict.get id = none ∧ state.getDynasty id =
      ({ state with mgr := state.mgr.loaded State.newObj id none state.now }, Dynasty.fresh) := by
  have missing : state.dynastyDict.get id = none := by
    simpa using mt (kept.created id) unused
  obtain ⟨cached, mark⟩ := kept.gone id missing
  rw [kept.unused id unused] at mark
  have row : state.rows id = none := by simpa using mark
  refine ⟨missing, ?_⟩
  unfold State.getDynasty
  rw [cached, row]
  rfl

theorem Kept.establish (kept : Kept state)
    (unused : id ∉ state.created) (free : state.roleDynastyDict uuid = none) (name : String)
    (fightScore : Int) : Kept (state.establish uuid id name fightScore) := by
  obtain ⟨missing, loaded⟩ := kept.getDynasty unused
  let created := Dynasty.fresh.create uuid name fightScore
  let base : State ι υ :=
    { state.setRole uuid (some id) with
      dynastyList := state.dynastyList ++ [id]
      mgr := state.mgr.loaded State.newObj id none state.now }
  have established : state.establish uuid id name fightScore =
      { base.change id created with created := id :: state.created } := by
    unfold State.establish
    rw [loaded]
    rfl
  have changed := change_changed base id created
  have member : ∀ other, (created.memberDict.get other).isSome ↔ other = uuid := by
    intro other
    change ((Table.empty.set uuid (some _)).get other).isSome ↔ _
    rw [Table.get_set]
    split <;> simp_all
  have unlisted : id ∉ state.dynastyList := by simp [kept.listed, missing]
  have base_mark : ∀ other, other ≠ id →
      base.mgr.saveLru.get other = state.mgr.saveLru.get other := fun other different =>
    (Lru.get_put state.mgr.saveLru id other .insert state.now).trans (if_neg different)
  have base_cached : ∀ other, other ≠ id →
      base.mgr.dbLru.get other = state.mgr.dbLru.get other := fun other different =>
    (Lru.get_put state.mgr.dbLru id other _ state.now).trans (if_neg different)
  have row : state.rows id = none := by
    obtain ⟨-, mark⟩ := kept.gone id missing
    rw [kept.unused id unused] at mark
    simpa using mark
  rw [established]
  refine ⟨fun other other_dynasty other_found => ?_, fun role other => ?_, ?_, fun other => ?_,
    fun rank other ranked => ?_, fun other there => ?_, fun other other_unused => ?_,
    fun other marked => ?_, fun other other_missing => ?_⟩
  · rw [changed.dynasties] at other_found
    split at other_found
    · cases other_found
      exact sound_create uuid name fightScore
    · exact kept.sound other other_dynasty other_found
  · change Function.update state.roleDynastyDict uuid (some id) role = some other ↔
      ∃ dynasty, (base.change id created).dynastyDict.get other = some dynasty ∧ _
    rw [changed.dynasties]
    change _ ↔ ∃ dynasty, (if other = id then some created else state.dynastyDict.get other) =
      some dynasty ∧ _
    have before := kept.members role other
    by_cases same_role : role = uuid
    · subst same_role
      rw [free] at before
      split
      · rename_i same
        simp [same, member]
      · rename_i different
        rw [← before]
        simp [Ne.symm different]
    · rw [Function.update_of_ne same_role]
      split
      · rename_i same
        subst same
        rw [before, missing]
        simp [member, same_role]
      · exact before
  · refine List.nodup_append.mpr ⟨kept.nodup, List.nodup_singleton id, ?_⟩
    rintro other mem _ last rfl
    exact unlisted (List.mem_singleton.mp last ▸ mem)
  · change other ∈ state.dynastyList ++ [id] ↔
      ((base.change id created).dynastyDict.get other).isSome
    rw [changed.dynasties, List.mem_append, kept.listed]
    change _ ↔ (if other = id then some created else state.dynastyDict.get other).isSome
    split <;> simp_all
  · rw [changed.dynasties]
    split
    · rfl
    · exact kept.ranked rank other ranked
  · rw [changed.dynasties] at there
    split at there
    · rename_i same
      rw [same]
      exact List.mem_cons_self
    · exact List.mem_cons_of_mem id (kept.created other there)
  · have different : other ≠ id := fun same => other_unused (same ▸ List.mem_cons_self)
    rw [changed.marks other different, base_mark other different]
    exact kept.unused other fun mem => other_unused (List.mem_cons_of_mem id mem)
  · by_cases same : other = id
    · rw [same]
      exact row
    · rw [changed.marks other same, base_mark other same] at marked
      exact kept.insert other marked
  · have different : other ≠ id := by
      rintro rfl
      rw [changed.dynasties, if_pos rfl] at other_missing
      cases other_missing
    rw [changed.dynasties, if_neg different] at other_missing
    rw [changed.marks other different, base_mark other different,
      changed.cached other different, base_cached other different]
    exact kept.gone other other_missing

/-- Every effect but the dissolution by the daily refresh keeps the books. -/
theorem Effect.kept {succession : Prop} {state after : State ι υ}
    (effect : Effect False succession state after) (kept : Kept state) : Kept after := by
  cases effect with
  | tick seconds => exact { kept with }
  | save id => exact kept.checkSave id
  | rank ranked =>
      refine { kept with ranked := fun rank id there => ?_ }
      exact (ranked rank id there).elim (kept.ranked rank id) fun exists_dynasty => exists_dynasty
  | change found edit changed => exact kept.edit found edit changed
  | attempt id =>
      refine { kept with
        created := fun other there => List.mem_cons_of_mem id (kept.created other there)
        unused := fun other unused => kept.unused other fun mem => ?_ }
      exact unused (List.mem_cons_of_mem id mem)
  | establish unused free name fightScore => exact kept.establish unused free name fightScore
  | join found free room fightScore => exact kept.join found free room fightScore
  | leave found several member followed => exact kept.leave found member followed
  | forget found own missing =>
      have member := (kept.mapped found _).mp own
      simp [missing] at member
  | dissolve found alone own =>
      exact kept.dissolve found alone (own.elim (kept.mapped found _).mp id)
  | expire allowed => exact allowed.elim

/-- As long as no daily refresh dissolves a dynasty, the books of the service are kept. -/
theorem membership_bookkept (labels : List (Label ι υ))
    (calm : Execution.Guarded step (fun state label => ¬ Expires state label) initial labels) :
    Execution.Always step Books initial labels := by
  refine (Execution.always_of_guarded (fun kept calm taken => ?_) calm initial_kept).mono
    fun _ kept => kept.books
  have effects := step_effects taken
  rw [eq_false calm] at effects
  exact effects.invariant (fun kept effect => effect.kept kept) kept

/-- One role creates a dynasty, another one joins it, their fight scores change, the first quits,
the days pass with the other one online, and he dissolves the dynasty. -/
def calmRun : List (Label Nat Nat) :=
  [.create 1 10 "a" [] 100, .apply 2 10 50, .agree 1 2, .join 2 60, .updateRoleInfo 1 (some 5) none,
    .updateRoleInfo 2 none (some 80), .save 10, .quit 1 2, .tick (8 * 86400),
    .dailyRefresh 10 [2] 2, .dissolve 2, .save 10]

theorem membership_bookkept_calmRun : Execution.Always step Books initial calmRun :=
  membership_bookkept calmRun (by decide)

/-- A role creates a dynasty and goes offline for eight days, and the daily refresh dissolves it. -/
def expiredRun : List (Label Nat Nat) :=
  [.create 1 10 "a" [] 100, .logout 1, .tick (8 * 86400), .dailyRefresh 10 [1] 1]

/-- The role stays mapped to the dynasty, and the manager holds it again. -/
theorem expiredRun_not_bookkept :
    ¬ ∀ (labels : List (Label Nat Nat)) (state : State Nat Nat),
      Execution.run step initial labels = some state → Books state := by
  intro claim
  have ends : ∃ state, Execution.run step initial expiredRun = some state ∧
      state.dynastyDict.get 10 = none ∧ state.roleDynastyDict 1 = some 10 := by
    exact ⟨_, rfl, rfl, rfl⟩
  obtain ⟨state, execution, missing, role⟩ := ends
  exact ((claim expiredRun state execution).unreferred 10 missing).2.1 1 role

end UEServer.DynastyUtils
