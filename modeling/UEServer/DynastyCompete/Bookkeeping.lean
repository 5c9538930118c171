import UEServer.DynastyCompete.Basic

/-!
# What the books of a dynasty war say

The snapshot on which the members fight is a copy of `compete.enemy_dict`, also while it is being built:
an enemy of which buildings are still missing is not in the snapshot, so that no fight changes it.  A
fight takes from the building what it adds to the marks of the dynasty and of the member, and a building
is destroyed by one fight at most, which grants its reward.
-/

namespace UEServer.DynastyCompete

section
variable {υ φ : Type*} [DecidableEq υ]

/-- `is_building_destroy`, for what is kept of the building. -/
def SavedBuilding.Destroyed (saved : SavedBuilding υ) : Prop :=
  saved.buildingHp ≤ 0 ∨ ∀ defendNum ∈ saved.roleDict.values, defendNum ≤ 0

omit [DecidableEq υ] in
instance (saved : SavedBuilding υ) : Decidable saved.Destroyed :=
  inferInstanceAs (Decidable (_ ∨ ∀ _ ∈ _, _))

/-- Neither hit points nor lives are negative. -/
structure SavedBuilding.NonNeg (saved : SavedBuilding υ) : Prop where
  buildingHp : 0 ≤ saved.buildingHp
  /-- Every `defend_num`. -/
  defendNum : ∀ uuid defendNum, saved.roleDict.get uuid = some defendNum → 0 ≤ defendNum

/-- A building in the snapshot is the building that is kept. -/
structure BuildingInfo.Copies (building : BuildingInfo υ φ) (saved : SavedBuilding υ) : Prop where
  buildingHp : building.buildingHp = saved.buildingHp
  roleDict : ∀ uuid,
    (building.roleDict.get uuid).map FightRole.defendNum = saved.roleDict.get uuid

/-- An enemy in the snapshot is the enemy that is kept. -/
def EnemyCopies (buildingDict : Table ℕ (BuildingInfo υ φ)) (enemy : Table ℕ (SavedBuilding υ)) :
    Prop :=
  ∀ buildingId, Option.Rel BuildingInfo.Copies (buildingDict.get buildingId) (enemy.get buildingId)

/-- What has been read of an enemy is what is kept. -/
def PartCopies (buildingDict : Table ℕ (BuildingInfo υ φ)) (enemy : Table ℕ (SavedBuilding υ)) :
    Prop :=
  ∀ buildingId building, buildingDict.get buildingId = some building →
    ∃ saved, enemy.get buildingId = some saved ∧ building.Copies saved

/-- What has been read of a building's defenders is what is kept. -/
def RolesRead (roleDict : Table υ (FightRole φ)) (saved : SavedBuilding υ) : Prop :=
  ∀ uuid role, roleDict.get uuid = some role → saved.roleDict.get uuid = some role.defendNum

theorem SavedBuilding.destroyed_iff (saved : SavedBuilding υ) :
    saved.Destroyed ↔ saved.buildingHp ≤ 0 ∨
      ∀ uuid defendNum, saved.roleDict.get uuid = some defendNum → defendNum ≤ 0 := by
  apply or_congr_right
  constructor
  · intro all uuid defendNum found
    exact all defendNum (Table.mem_values.mpr ⟨uuid, found⟩)
  · intro all defendNum mem
    obtain ⟨uuid, found⟩ := Table.mem_values.mp mem
    exact all uuid defendNum found

theorem BuildingInfo.isBuildingDestroy_iff (building : BuildingInfo υ φ) :
    building.IsBuildingDestroy ↔ building.buildingHp ≤ 0 ∨
      ∀ uuid role, building.roleDict.get uuid = some role → role.defendNum ≤ 0 := by
  apply or_congr_right
  constructor
  · intro all uuid role found
    exact all role (Table.mem_values.mpr ⟨uuid, found⟩)
  · intro all role mem
    obtain ⟨uuid, found⟩ := Table.mem_values.mp mem
    exact all uuid role found

theorem BuildingInfo.Copies.destroyed_iff {building : BuildingInfo υ φ} {saved : SavedBuilding υ}
    (copies : building.Copies saved) : building.IsBuildingDestroy ↔ saved.Destroyed := by
  rw [building.isBuildingDestroy_iff, saved.destroyed_iff, copies.buildingHp]
  apply or_congr_right
  constructor
  · intro all uuid defendNum found
    rw [← copies.roleDict] at found
    obtain ⟨role, role_found, rfl⟩ := Option.map_eq_some_iff.mp found
    exact all uuid role role_found
  · intro all uuid role found
    exact all uuid role.defendNum (by rw [← copies.roleDict, found, Option.map_some])

theorem BuildingInfo.Copies.struck {building : BuildingInfo υ φ} {saved : SavedBuilding υ}
    (copies : building.Copies saved) (hp : ℤ) (uuid : υ) (role : FightRole φ) :
    BuildingInfo.Copies ⟨hp, building.roleDict.set uuid (some role)⟩
      ⟨hp, saved.roleDict.set uuid (some role.defendNum)⟩ where
  buildingHp := rfl
  roleDict other := by
    rw [Table.get_set, Table.get_set, ← copies.roleDict other]
    split
    · rfl
    · rfl

end

variable {δ υ φ : Type*} [DecidableEq δ] [DecidableEq υ]

namespace War

omit [DecidableEq δ] in
def numbers (war : War δ υ φ) (uuid : υ) : Option Numbers :=
  (war.memberDict.get uuid).bind MemberInfo.numbers

/-- A building in `compete.enemy_dict`. -/
def saved (war : War δ υ φ) (id : δ) (buildingId : ℕ) : Option (SavedBuilding υ) :=
  (war.enemyDict.get id).bind fun enemy => enemy.get buildingId

def building (war : War δ υ φ) (id : δ) (buildingId : ℕ) : Option (BuildingInfo υ φ) :=
  (war.competeEnemyDict.get id).bind fun enemy => enemy.get buildingId

def marksOf (war : War δ υ φ) (uuid : υ) : ℤ :=
  ((war.blows.filter fun blow => blow.uuid = uuid).map Blow.mark).sum

/-- The marks of the fights against a building. -/
def marksAt (war : War δ υ φ) (id : δ) (buildingId : ℕ) : ℤ :=
  ((war.blows.filter fun blow => blow.dynastyId = id ∧ blow.buildingId = buildingId).map
    Blow.mark).sum

/-- Neither the buildings nor the members start with anything negative. -/
structure NonNeg (war : War δ υ φ) : Prop where
  building : ∀ id buildingId saved, war.saved id buildingId = some saved → saved.NonNeg
  attackNum : ∀ uuid numbers, war.numbers uuid = some numbers → 0 ≤ numbers.attackNum

end War

def Config.expReward (config : Config φ) (buildingId : ℕ) : ℤ :=
  ((config.buildingData buildingId).map BuildingData.dynastyExpReward).getD 0

/-- What has happened to a building since the start, after fights with these marks and grants. -/
structure Besieged (marks : ℤ) (grants : ℕ) (first saved : SavedBuilding υ) : Prop where
  removed : marks = first.buildingHp - saved.buildingHp
  stays : first.Destroyed → saved.Destroyed
  /-- The reward has been granted if the building has been destroyed since the start, once, and else it
  has not. -/
  granted : grants = if ¬ first.Destroyed ∧ saved.Destroyed then 1 else 0

/-- The books of a war are right, from the start on. -/
structure Bookkept (config : Config φ) (start war : War δ υ φ) : Prop where
  nonNeg : war.NonNeg
  /-- An enemy in the snapshot is the one in `compete.enemy_dict`. -/
  copies : ∀ id buildingDict, war.competeEnemyDict.get id = some buildingDict →
    ∃ enemy, war.enemyDict.get id = some enemy ∧ EnemyCopies buildingDict enemy
  complete : war.builder = .ended →
    ∀ id, war.enemyDict.get id ≠ none → war.competeEnemyDict.get id ≠ none
  attackMark : war.attackMark = start.attackMark + (war.blows.map Blow.mark).sum
  totalMark : war.totalMark = start.totalMark + (war.blows.map Blow.mark).sum
  member : ∀ uuid numbers, start.numbers uuid = some numbers →
    ∃ now, war.numbers uuid = some now ∧
      now.dailyMark = numbers.dailyMark + war.marksOf uuid ∧
      now.totalMark = numbers.totalMark + war.marksOf uuid
  stranger : ∀ uuid, start.numbers uuid = none → war.numbers uuid = none
  /-- Every fight is one of a member with numbers, against a building. -/
  blow : ∀ blow ∈ war.blows, start.numbers blow.uuid ≠ none ∧
    start.saved blow.dynastyId blow.buildingId ≠ none
  grant : ∀ key ∈ war.grants, start.saved key.1 key.2 ≠ none
  besieged : ∀ id buildingId, Option.Rel
    (Besieged (war.marksAt id buildingId) (war.grants.count (id, buildingId)))
    (start.saved id buildingId) (war.saved id buildingId)
  dynastyExp : war.dynastyExp =
    start.dynastyExp + (war.grants.map fun key => config.expReward key.2).sum

theorem nested_set {ν : Type*} (table : Table δ (Table ℕ ν)) {id : δ} {enemy : Table ℕ ν}
    (found : table.get id = some enemy) (buildingId : ℕ) (value : ν) (other : δ) (otherId : ℕ) :
    ((table.set id (some (enemy.set buildingId (some value)))).get other).bind
        (fun enemy => enemy.get otherId) =
      if other = id ∧ otherId = buildingId then some value
      else (table.get other).bind fun enemy => enemy.get otherId := by
  rw [Table.get_set]
  split
  · rename_i same
    subst same
    rw [Option.bind_some, Table.get_set, found, Option.bind_some]
    simp
  · rename_i different
    rw [if_neg fun both => different both.1]

/-- What the checks of a fight have found is there. -/
structure War.Target.Found (war : War δ υ φ) (uuid : υ) (info : FightInfo δ υ φ)
    (target : War.Target υ φ) : Prop where
  member : war.memberDict.get uuid = some target.member
  numbers : target.member.numbers = some target.numbers
  attackNum : 0 < target.numbers.attackNum
  enemy : war.competeEnemyDict.get info.dynastyId = some target.buildingDict
  building : target.buildingDict.get info.buildingId = some target.building
  standing : ¬ target.building.IsBuildingDestroy
  fightRole : target.building.roleDict.get info.uuid = some target.fightRole
  defendNum : 0 < target.fightRole.defendNum

variable {target : War.Target υ φ} {info : FightInfo δ υ φ}

theorem War.found_of_checkFight {config : Config φ} {war : War δ υ φ} {uuid : υ} {now : ℤ}
    (checked : war.checkFight config uuid info now = .ok target) : target.Found war uuid info := by
  unfold War.checkFight at checked
  split at checked
  · cases checked
  rename_i member member_found
  split at checked
  · cases checked
  split at checked
  · cases checked
  rename_i numbers numbers_found
  split at checked
  · cases checked
  rename_i attempts
  split at checked
  · cases checked
  rename_i buildingDict enemy_found
  split at checked
  · cases checked
  rename_i building building_found
  split at checked
  · cases checked
  rename_i standing
  split at checked
  · cases checked
  split at checked
  · cases checked
  rename_i fightRole role_found
  split at checked
  · cases checked
  rename_i lives
  cases checked
  exact
    { member := member_found
      numbers := numbers_found
      attackNum := Int.not_le.mp attempts
      enemy := enemy_found
      building := building_found
      standing := standing
      fightRole := role_found
      defendNum := Int.not_le.mp lives }

omit [DecidableEq δ] in
theorem giveReached_numbers (reached : List ℕ) (uuids : List υ) (members : Table υ MemberInfo)
    (uuid : υ) :
    ((giveReached reached uuids members).1.get uuid).bind MemberInfo.numbers =
      (members.get uuid).bind MemberInfo.numbers := by
  induction uuids generalizing members with
  | nil => rfl
  | cons first rest induction =>
      unfold giveReached
      split
      · exact induction members
      · rename_i member found
        split
        · rfl
        · rw [induction, Table.get_set]
          split
          · rename_i same
            rw [same, found]
            rfl
          · rfl

omit [DecidableEq δ] in
theorem War.destroy_spec (config : Config φ) (war : War δ υ φ) (info : FightInfo δ υ φ)
    (data : BuildingData) :
    ∃ members level, (war.destroy config info data).1 =
        { war with
          memberDict := members
          dynastyExp := war.dynastyExp + data.dynastyExpReward
          dynastyLevel := level
          grants := war.grants ++ [(info.dynastyId, info.buildingId)] } ∧
      ∀ uuid, (members.get uuid).bind MemberInfo.numbers = war.numbers uuid := by
  unfold War.destroy War.setCompeteReward
  split
  · exact ⟨_, _, rfl, fun _ => rfl⟩
  · exact ⟨_, _, rfl, fun _ => rfl⟩
  · exact ⟨_, _, rfl, fun uuid => giveReached_numbers _ _ _ uuid⟩

/-- What a fight does that reaches its end. -/
structure Fought (config : Config φ) (before after : War δ υ φ) (uuid : υ) (id : δ)
    (buildingId : ℕ) (numbers : Numbers) (enemy : Table ℕ (SavedBuilding υ))
    (saved struckSaved : SavedBuilding υ) (buildingDict : Table ℕ (BuildingInfo υ φ))
    (struck : BuildingInfo υ φ) : Prop where
  member : before.numbers uuid = some numbers
  attackNum : 0 < numbers.attackNum
  numbersAfter : ∀ other, after.numbers other = if other = uuid then
      some
        { attackNum := numbers.attackNum - 1
          dailyMark := numbers.dailyMark + (saved.buildingHp - struckSaved.buildingHp)
          totalMark := numbers.totalMark + (saved.buildingHp - struckSaved.buildingHp) }
    else before.numbers other
  enemyFound : before.enemyDict.get id = some enemy
  buildingFound : enemy.get buildingId = some saved
  standing : ¬ saved.Destroyed
  nonNeg : struckSaved.NonNeg
  enemyDict : after.enemyDict =
    before.enemyDict.set id (some (enemy.set buildingId (some struckSaved)))
  snapshot : before.competeEnemyDict.get id = some buildingDict
  competeEnemyDict : after.competeEnemyDict =
    before.competeEnemyDict.set id (some (buildingDict.set buildingId (some struck)))
  copies : struck.Copies struckSaved
  attackMark : after.attackMark =
    before.attackMark + (saved.buildingHp - struckSaved.buildingHp)
  totalMark : after.totalMark = before.totalMark + (saved.buildingHp - struckSaved.buildingHp)
  builder : after.builder = before.builder
  blows : after.blows = before.blows ++
    [⟨uuid, id, buildingId, saved.buildingHp - struckSaved.buildingHp⟩]
  grants : after.grants =
    before.grants ++ if struckSaved.Destroyed then [(id, buildingId)] else []
  dynastyExp : after.dynastyExp =
    before.dynastyExp + if struckSaved.Destroyed then config.expReward buildingId else 0

theorem clamped_nonneg (hp : ℤ) : 0 ≤ if hp < 0 then 0 else hp := by
  split
  · exact Int.le_refl 0
  · rename_i positive
    exact Int.not_lt.mp positive

omit [DecidableEq δ] in
theorem War.Target.struck_nonNeg {saved : SavedBuilding υ}
    (nonNeg : saved.NonNeg) (lives : 0 < target.fightRole.defendNum) (data : BuildingData)
    (isWin : Bool) (uuid : υ) :
    SavedBuilding.NonNeg ⟨target.struckHp data isWin,
      saved.roleDict.set uuid (some (target.struckRole isWin).defendNum)⟩ where
  buildingHp := clamped_nonneg _
  defendNum other defendNum found := by
    rw [Table.get_set] at found
    split at found
    · obtain rfl := Option.some.inj found
      unfold War.Target.struckRole
      split
      · exact Int.le_sub_one_of_lt lives
      · exact Int.le_of_lt lives
    · exact nonNeg.defendNum other defendNum found

/-- What holds of a war at every moment: besides its books, what has been read for the snapshot is what is
kept, and the enemy that is being read is not in the snapshot. -/
def War.BuilderSound (war : War δ υ φ) : Prop :=
  match war.builder with
  | .buildings id buildingDict => war.competeEnemyDict.get id = none ∧
      ∃ enemy, war.enemyDict.get id = some enemy ∧ PartCopies buildingDict enemy
  | .roles id buildingDict buildingId roleDict => war.competeEnemyDict.get id = none ∧
      ∃ enemy, war.enemyDict.get id = some enemy ∧ PartCopies buildingDict enemy ∧
        ∃ saved, enemy.get buildingId = some saved ∧ RolesRead roleDict saved
  | .call id buildingDict buildingId roleDict uuid defendNum =>
      war.competeEnemyDict.get id = none ∧
      ∃ enemy, war.enemyDict.get id = some enemy ∧ PartCopies buildingDict enemy ∧
        ∃ saved, enemy.get buildingId = some saved ∧ RolesRead roleDict saved ∧
          saved.roleDict.get uuid = some defendNum
  | _ => True

/-- A step that touches neither the builder nor an enemy that is not in the snapshot. -/
theorem War.BuilderSound.of_kept {before after : War δ υ φ} (sound : before.BuilderSound)
    (builder : after.builder = before.builder)
    (absent : ∀ id, before.competeEnemyDict.get id = none →
      after.competeEnemyDict.get id = none ∧ after.enemyDict.get id = before.enemyDict.get id) :
    after.BuilderSound := by
  unfold War.BuilderSound at sound ⊢
  rw [builder]
  split at sound
  · obtain ⟨missing, enemy, found, copies⟩ := sound
    obtain ⟨still, same⟩ := absent _ missing
    exact ⟨still, enemy, same.trans found, copies⟩
  · obtain ⟨missing, enemy, found, copies, rest⟩ := sound
    obtain ⟨still, same⟩ := absent _ missing
    exact ⟨still, enemy, same.trans found, copies, rest⟩
  · obtain ⟨missing, enemy, found, copies, rest⟩ := sound
    obtain ⟨still, same⟩ := absent _ missing
    exact ⟨still, enemy, same.trans found, copies, rest⟩
  · trivial

structure Inv (config : Config φ) (start war : War δ υ φ) : Prop extends
    Bookkept config start war where
  builder : war.BuilderSound

variable {config : Config φ} {start before after : War δ υ φ}

section
variable (inv : Inv config start before)
include inv

theorem Inv.rebuilt {builder : Builder δ υ φ} (sound : War.BuilderSound { before with builder })
    (going : builder ≠ .ended) : Inv config start { before with builder } where
  nonNeg := { inv.nonNeg with }
  copies := inv.copies
  complete ended := absurd ended going
  attackMark := inv.attackMark
  totalMark := inv.totalMark
  member := inv.member
  stranger := inv.stranger
  blow := inv.blow
  grant := inv.grant
  besieged := inv.besieged
  dynastyExp := inv.dynastyExp
  builder := sound

theorem Inv.answer {fightData : φ} (taken : before.answer fightData = some after) :
    Inv config start after := by
  unfold War.answer at taken
  split at taken
  · rename_i id buildingDict buildingId roleDict uuid defendNum called
    cases taken
    have sound := inv.builder
    simp only [War.BuilderSound, called] at sound
    obtain ⟨missing, enemy, found, copies, saved, saved_found, read, defend⟩ := sound
    refine inv.rebuilt ⟨missing, enemy, found, copies, saved, saved_found, ?_⟩ (by rintro ⟨⟩)
    intro other role role_found
    rw [Table.get_set] at role_found
    split at role_found
    · rename_i same
      cases role_found
      rw [same]
      exact defend
    · exact read other role role_found
  · cases taken

theorem Inv.nextDynasty {id : δ} (taken : before.nextDynasty id = some after) :
    Inv config start after := by
  unfold War.nextDynasty at taken
  split at taken
  · split at taken
    · rename_i free
      cases taken
      obtain ⟨enemy, found⟩ := Option.ne_none_iff_exists'.mp ((Table.mem_keys _ _).mp free.1)
      have missing := not_not.mp (mt (Table.mem_keys _ _).mpr free.2)
      refine inv.rebuilt ⟨missing, enemy, found, ?_⟩ nofun
      intro buildingId building building_found
      cases building_found
    · cases taken
  · cases taken

theorem Inv.nextBuilding {buildingId : ℕ} (taken : before.nextBuilding buildingId = some after) :
    Inv config start after := by
  unfold War.nextBuilding at taken
  split at taken
  · rename_i id buildingDict standing
    have sound := inv.builder
    simp only [War.BuilderSound, standing] at sound
    obtain ⟨missing, enemy, found, copies⟩ := sound
    rw [found, Option.bind_some] at taken
    split at taken
    · rename_i saved saved_found
      split at taken
      · cases taken
      · cases taken
        refine inv.rebuilt ⟨missing, enemy, found, copies, saved, saved_found, ?_⟩ (by rintro ⟨⟩)
        intro uuid role role_found
        cases role_found
    · cases taken
  · cases taken

theorem Inv.nextRole {uuid : υ} (taken : before.nextRole uuid = some after) :
    Inv config start after := by
  unfold War.nextRole at taken
  split at taken
  · rename_i id buildingDict buildingId roleDict standing
    have sound := inv.builder
    simp only [War.BuilderSound, standing] at sound
    obtain ⟨missing, enemy, found, copies, saved, saved_found, read⟩ := sound
    rw [found, Option.bind_some, saved_found] at taken
    simp only at taken
    split at taken
    · rename_i defendNum defend
      split at taken
      · cases taken
      · cases taken
        exact inv.rebuilt ⟨missing, enemy, found, copies, saved, saved_found, read, defend⟩ (by rintro ⟨⟩)
    · cases taken
  · cases taken

theorem Inv.raise (taken : before.raise = some after) : Inv config start after := by
  unfold War.raise at taken
  split at taken
  · cases taken
    exact inv.rebuilt trivial nofun
  · cases taken

end

theorem RolesRead.copies {roleDict : Table υ (FightRole φ)} {saved : SavedBuilding υ}
    (read : RolesRead roleDict saved)
    (all : ∀ uuid ∈ saved.roleDict.keys, uuid ∈ roleDict.keys) :
    BuildingInfo.Copies ⟨saved.buildingHp, roleDict⟩ saved where
  buildingHp := rfl
  roleDict uuid := by
    cases found : roleDict.get uuid with
    | some role => exact (read uuid role found).symm
    | none =>
        cases kept : saved.roleDict.get uuid with
        | none => rfl
        | some defendNum =>
            have mem := all uuid ((Table.mem_keys _ _).mpr (by rw [kept]; exact nofun))
            exact absurd found ((Table.mem_keys _ _).mp mem)

section
variable (inv : Inv config start before)
include inv

theorem Inv.endRoles (taken : before.endRoles = some after) : Inv config start after := by
  unfold War.endRoles at taken
  split at taken
  · rename_i id buildingDict buildingId roleDict standing
    have sound := inv.builder
    simp only [War.BuilderSound, standing] at sound
    obtain ⟨missing, enemy, found, copies, saved, saved_found, read⟩ := sound
    rw [found, Option.bind_some, saved_found] at taken
    simp only at taken
    split at taken
    · rename_i all
      cases taken
      refine inv.rebuilt ⟨missing, enemy, found, ?_⟩ (by rintro ⟨⟩)
      intro other building building_found
      rw [Table.get_set] at building_found
      split at building_found
      · rename_i same
        cases building_found
        exact ⟨saved, same ▸ saved_found, read.copies all⟩
      · exact copies other building building_found
    · cases taken
  · cases taken

omit inv in
theorem PartCopies.enemyCopies {buildingDict : Table ℕ (BuildingInfo υ φ)}
    {enemy : Table ℕ (SavedBuilding υ)} (copies : PartCopies buildingDict enemy)
    (all : ∀ buildingId ∈ enemy.keys, buildingId ∈ buildingDict.keys) :
    EnemyCopies buildingDict enemy := by
  intro buildingId
  cases found : buildingDict.get buildingId with
  | some building =>
      obtain ⟨saved, saved_found, same⟩ := copies buildingId building found
      rw [saved_found]
      exact .some same
  | none =>
      cases kept : enemy.get buildingId with
      | none => exact .none
      | some saved =>
          have mem := all buildingId ((Table.mem_keys _ _).mpr (by rw [kept]; exact nofun))
          exact absurd found ((Table.mem_keys _ _).mp mem)

theorem Inv.endBuildings (taken : before.endBuildings = some after) : Inv config start after := by
  unfold War.endBuildings at taken
  split at taken
  · rename_i id buildingDict standing
    have sound := inv.builder
    simp only [War.BuilderSound, standing] at sound
    obtain ⟨missing, enemy, found, copies⟩ := sound
    rw [found] at taken
    simp only at taken
    split at taken
    · rename_i all
      cases taken
      exact
        { inv with
          nonNeg := { inv.nonNeg with }
          copies := by
            intro other dict dict_found
            rw [Table.get_set] at dict_found
            split at dict_found
            · rename_i same
              cases dict_found
              exact ⟨enemy, same ▸ found, copies.enemyCopies all⟩
            · exact inv.copies other dict dict_found
          complete := by rintro ⟨⟩
          builder := trivial }
    · cases taken
  · cases taken

theorem Inv.endDynasties (taken : before.endDynasties = some after) : Inv config start after := by
  unfold War.endDynasties at taken
  split at taken
  · split at taken
    · rename_i all
      cases taken
      exact
        { inv with
          nonNeg := { inv.nonNeg with }
          complete := fun _ id present =>
            (Table.mem_keys _ _).mp (all id ((Table.mem_keys _ _).mpr present))
          builder := trivial }
    · cases taken
  · cases taken

theorem Inv.renumbered {members : Table υ MemberInfo} {attempts : ℤ} {uuid : υ}
    {numbers after : Numbers} (found : before.numbers uuid = some numbers)
    (changed : ∀ other, (members.get other).bind MemberInfo.numbers = if other = uuid then some after else before.numbers other)
    (nonNeg : 0 ≤ after.attackNum) (dailyMark : after.dailyMark = numbers.dailyMark)
    (totalMark : after.totalMark = numbers.totalMark) :
    Inv config start { before with memberDict := members, totalAttackNum := attempts } :=
  { inv with
    nonNeg :=
      { building := inv.nonNeg.building
        attackNum := by
          intro other now now_found
          have value := (changed other).symm.trans now_found
          split at value
          · cases value
            exact nonNeg
          · exact inv.nonNeg.attackNum other now value }
    member := by
      intro other first first_found
      obtain ⟨now, now_found, daily, total⟩ := inv.member other first first_found
      by_cases same : other = uuid
      · subst same
        cases found.symm.trans now_found
        refine ⟨after, (changed other).trans (if_pos rfl), ?_, ?_⟩
        · exact dailyMark.trans daily
        · exact totalMark.trans total
      · exact ⟨now, ((changed other).trans (if_neg same)).trans now_found, daily, total⟩
    stranger := by
      intro other absent
      have missing := inv.stranger other absent
      refine (changed other).trans ?_
      split
      · rename_i same
        subst same
        cases found.symm.trans missing
      · exact missing }

omit inv in
omit [DecidableEq δ] in
theorem numbers_set (members : Table υ MemberInfo) (uuid : υ) (member : MemberInfo) (other : υ) :
    ((members.set uuid (some member)).get other).bind MemberInfo.numbers =
      if other = uuid then member.numbers else (members.get other).bind MemberInfo.numbers := by
  rw [Table.get_set]
  split
  · rfl
  · rfl

theorem Inv.buy (uuid : υ) (addNum : ℕ) :
    Inv config start (before.addCompeteAttackNum uuid addNum) := by
  unfold War.addCompeteAttackNum
  split
  · split
    · exact inv
    · rename_i member member_found
      cases known : member.numbers with
      | none =>
          refine { inv with nonNeg := ⟨inv.nonNeg.building, ?_⟩, member := ?_, stranger := ?_ }
          all_goals
            have same : ∀ other, ((before.memberDict.set uuid (some { member with
                  numbers := none.map fun numbers : Numbers =>
                    { numbers with attackNum := numbers.attackNum + addNum } })).get other).bind
                MemberInfo.numbers = before.numbers other := by
              intro other
              rw [numbers_set]
              split
              · rename_i same
                rw [War.numbers, same, member_found]
                exact known.symm
              · rfl
          · intro other now found
            exact inv.nonNeg.attackNum other now ((same other).symm.trans found)
          · intro other first first_found
            obtain ⟨now, found, rest⟩ := inv.member other first first_found
            exact ⟨now, (same other).trans found, rest⟩
          · intro other absent
            exact (same other).trans (inv.stranger other absent)
      | some numbers =>
          have found : before.numbers uuid = some numbers := by
            rw [War.numbers, member_found]
            exact known
          have enough := inv.nonNeg.attackNum uuid numbers found
          have changed : ∀ other, ((before.memberDict.set uuid (some { member with
                numbers := (some numbers).map fun numbers =>
                  { numbers with attackNum := numbers.attackNum + addNum } })).get other).bind
              MemberInfo.numbers = if other = uuid then
                some { numbers with attackNum := numbers.attackNum + addNum }
              else before.numbers other := by
            exact fun other => numbers_set before.memberDict uuid _ other
          exact inv.renumbered found changed
            (Int.add_nonneg enough (Int.natCast_nonneg addNum)) rfl rfl
  · exact inv

theorem Inv.spend {uuid : υ} (found : target.Found before uuid info) :
    Inv config start (before.spend uuid target) := by
  have numbers_found : before.numbers uuid = some target.numbers := by
    rw [War.numbers, found.member]
    exact found.numbers
  have changed : ∀ other, ((before.spend uuid target).memberDict.get other).bind
      MemberInfo.numbers = if other = uuid then
        some { target.numbers with attackNum := target.numbers.attackNum - 1 }
      else before.numbers other :=
    fun other => numbers_set before.memberDict uuid _ other
  exact inv.renumbered numbers_found changed (Int.le_sub_one_of_lt found.attackNum) rfl rfl

end

omit [DecidableEq δ] in
theorem marksOf_append (war : War δ υ φ) (blow : Blow δ υ) (uuid : υ) :
    War.marksOf { war with blows := war.blows ++ [blow] } uuid =
      war.marksOf uuid + if blow.uuid = uuid then blow.mark else 0 := by
  unfold War.marksOf
  rw [List.filter_append, List.map_append, List.sum_append]
  congr 1
  by_cases same : blow.uuid = uuid
  · simp [same]
  · simp [same]

omit [DecidableEq υ] in
theorem marksAt_append (war : War δ υ φ) (blow : Blow δ υ) (id : δ) (buildingId : ℕ) :
    War.marksAt { war with blows := war.blows ++ [blow] } id buildingId =
      war.marksAt id buildingId +
        if blow.dynastyId = id ∧ blow.buildingId = buildingId then blow.mark else 0 := by
  unfold War.marksAt
  rw [List.filter_append, List.map_append, List.sum_append]
  congr 1
  by_cases same : blow.dynastyId = id ∧ blow.buildingId = buildingId
  · simp [same]
  · simp [same]

namespace Fought

variable {uuid : υ} {id : δ} {buildingId : ℕ} {numbers : Numbers} {enemy : Table ℕ (SavedBuilding υ)}
  {saved struckSaved : SavedBuilding υ} {buildingDict : Table ℕ (BuildingInfo υ φ)}
  {struck : BuildingInfo υ φ}
  (fought : Fought config before after uuid id buildingId numbers enemy saved struckSaved
    buildingDict struck)
include fought

theorem saved_before : before.saved id buildingId = some saved := by
  rw [War.saved, fought.enemyFound]
  exact fought.buildingFound

theorem saved_after (other : δ) (otherId : ℕ) : after.saved other otherId =
    if other = id ∧ otherId = buildingId then some struckSaved else before.saved other otherId := by
  rw [War.saved, fought.enemyDict]
  exact nested_set before.enemyDict fought.enemyFound buildingId struckSaved other otherId

theorem marksOf (other : υ) : after.marksOf other = before.marksOf other +
    if uuid = other then saved.buildingHp - struckSaved.buildingHp else 0 := by
  have counted := marksOf_append before
    ⟨uuid, id, buildingId, saved.buildingHp - struckSaved.buildingHp⟩ other
  rw [← counted, War.marksOf, War.marksOf, fought.blows]

theorem marksAt (other : δ) (otherId : ℕ) : after.marksAt other otherId =
    before.marksAt other otherId +
      if id = other ∧ buildingId = otherId then saved.buildingHp - struckSaved.buildingHp
      else 0 := by
  have counted := marksAt_append before
    ⟨uuid, id, buildingId, saved.buildingHp - struckSaved.buildingHp⟩ other otherId
  rw [← counted, War.marksAt, War.marksAt, fought.blows]

theorem marks_sum : (after.blows.map Blow.mark).sum =
    (before.blows.map Blow.mark).sum + (saved.buildingHp - struckSaved.buildingHp) := by
  rw [fought.blows, List.map_append, List.sum_append, List.map_singleton, List.sum_singleton]

theorem nonNeg_after (nonNeg : before.NonNeg) : after.NonNeg where
  building other otherId now found := by
    rw [fought.saved_after] at found
    split at found
    · cases found
      exact fought.nonNeg
    · exact nonNeg.building other otherId now found
  attackNum other now found := by
    rw [fought.numbersAfter] at found
    split at found
    · cases found
      exact Int.le_sub_one_of_lt fought.attackNum
    · exact nonNeg.attackNum other now found

section
variable (inv : Inv config start before)
include inv

theorem copies_after (other : δ) (dict : Table ℕ (BuildingInfo υ φ))
    (found : after.competeEnemyDict.get other = some dict) :
    ∃ enemy, after.enemyDict.get other = some enemy ∧ EnemyCopies dict enemy := by
  rw [fought.competeEnemyDict, Table.get_set] at found
  rw [fought.enemyDict, Table.get_set]
  split at found
  · rename_i same
    cases found
    rw [if_pos same]
    refine ⟨_, rfl, fun otherId => ?_⟩
    obtain ⟨kept, kept_found, copies⟩ := inv.copies id buildingDict fought.snapshot
    cases fought.enemyFound.symm.trans kept_found
    rw [Table.get_set, Table.get_set]
    split
    · exact .some fought.copies
    · exact copies otherId
  · rename_i different
    rw [if_neg different]
    exact inv.copies other dict found

theorem besieged_after (other : δ) (otherId : ℕ) :
    Option.Rel (Besieged (after.marksAt other otherId) (after.grants.count (other, otherId)))
      (start.saved other otherId) (after.saved other otherId) := by
  have besieged := inv.besieged other otherId
  rw [fought.saved_after, fought.marksAt, fought.grants, List.count_append]
  by_cases same : other = id ∧ otherId = buildingId
  · obtain ⟨rfl, rfl⟩ := same
    rw [fought.saved_before] at besieged
    simp only [and_self, if_true]
    generalize start.saved other otherId = firstSaved at besieged ⊢
    cases besieged
    rename_i first siege
    have first_standing : ¬ first.Destroyed := mt siege.stays fought.standing
    have nothing : before.grants.count (other, otherId) = 0 := by
      rw [siege.granted, if_neg fun both => fought.standing both.2]
    refine .some ⟨?_, fun destroyed => absurd destroyed first_standing, ?_⟩
    · rw [siege.removed]
      omega
    · rw [nothing]
      by_cases destroyed : struckSaved.Destroyed
      · simp [first_standing, destroyed]
      · simp [destroyed]
  · have elsewhere : ¬ (id = other ∧ buildingId = otherId) :=
      fun both => same ⟨both.1.symm, both.2.symm⟩
    rw [if_neg same, if_neg elsewhere, Int.add_zero]
    have absent : (if struckSaved.Destroyed then [(id, buildingId)] else []).count
        (other, otherId) = 0 := by
      apply List.count_eq_zero.mpr
      intro mem
      split at mem
      · cases List.mem_singleton.mp mem
        exact same ⟨rfl, rfl⟩
      · cases mem
    rw [absent, Nat.add_zero]
    exact besieged

theorem start_numbers : start.numbers uuid ≠ none := by
  intro absent
  cases fought.member.symm.trans (inv.stranger uuid absent)

theorem start_saved : start.saved id buildingId ≠ none := by
  have besieged := inv.besieged id buildingId
  rw [fought.saved_before] at besieged
  intro absent
  rw [absent] at besieged
  cases besieged

end

theorem inv (inv : Inv config start before) : Inv config start after where
  nonNeg := fought.nonNeg_after inv.nonNeg
  copies := fought.copies_after inv
  complete ended other present := by
    rw [fought.competeEnemyDict, Table.get_set]
    rw [fought.enemyDict, Table.get_set] at present
    split
    · rintro ⟨⟩
    · rename_i different
      rw [if_neg different] at present
      exact inv.complete (fought.builder.symm.trans ended) other present
  attackMark := by rw [fought.attackMark, inv.attackMark, fought.marks_sum, Int.add_assoc]
  totalMark := by rw [fought.totalMark, inv.totalMark, fought.marks_sum, Int.add_assoc]
  member other first first_found := by
    obtain ⟨now, now_found, daily, total⟩ := inv.member other first first_found
    rw [fought.numbersAfter, fought.marksOf]
    by_cases same : other = uuid
    · obtain rfl := same
      cases now_found.symm.trans fought.member
      rw [if_pos rfl, if_pos rfl]
      refine ⟨_, rfl, ?_, ?_⟩
      · rw [daily, Int.add_assoc]
      · rw [total, Int.add_assoc]
    · rw [if_neg same, if_neg (Ne.symm same), Int.add_zero]
      exact ⟨now, now_found, daily, total⟩
  stranger other absent := by
    rw [fought.numbersAfter]
    split
    · rename_i same
      exact absurd (same ▸ absent) (fought.start_numbers inv)
    · exact inv.stranger other absent
  blow blow mem := by
    rw [fought.blows] at mem
    rcases List.mem_append.mp mem with old | new
    · exact inv.blow blow old
    · cases List.mem_singleton.mp new
      exact ⟨fought.start_numbers inv, fought.start_saved inv⟩
  grant key mem := by
    rw [fought.grants] at mem
    rcases List.mem_append.mp mem with old | new
    · exact inv.grant key old
    · split at new
      · cases List.mem_singleton.mp new
        exact fought.start_saved inv
      · cases new
  besieged := fought.besieged_after inv
  dynastyExp := by
    rw [fought.dynastyExp, inv.dynastyExp, fought.grants, List.map_append, List.sum_append,
      Int.add_assoc]
    split
    · rw [List.map_singleton, List.sum_singleton]
    · rfl
  builder := by
    refine inv.builder.of_kept fought.builder fun other absent => ?_
    have different : other ≠ id := by
      rintro rfl
      cases fought.snapshot.symm.trans absent
    rw [fought.competeEnemyDict, fought.enemyDict, Table.get_set_of_ne _ _ different,
      Table.get_set_of_ne _ _ different]
    exact ⟨absent, rfl⟩

end Fought

/-- A fight with a battle goes to its end: the building is there in `compete.enemy_dict`. -/
theorem Inv.settle_fought (inv : Inv config start before) {uuid : υ} (found : target.Found before uuid info) {data : BuildingData}
    (data_found : config.buildingData info.buildingId = some data) (isWin : Bool) :
    ∃ enemy saved struckSaved, Fought config before
      ((before.spend uuid target).settle config uuid info target data isWin).1 uuid info.dynastyId
      info.buildingId target.numbers enemy saved struckSaved target.buildingDict
      (target.struck data isWin info.uuid) := by
  obtain ⟨enemy, enemy_found, same⟩ := inv.copies info.dynastyId target.buildingDict found.enemy
  have building := same info.buildingId
  rw [found.building] at building
  generalize building_found : enemy.get info.buildingId = kept at building
  cases building
  rename_i saved copies
  have saved_found : before.saved info.dynastyId info.buildingId = some saved := by
    rw [War.saved, enemy_found]
    exact building_found
  let struckSaved : SavedBuilding υ :=
    { buildingHp := target.struckHp data isWin
      roleDict := saved.roleDict.set info.uuid (some (target.struckRole isWin).defendNum) }
  have struck_copies : (target.struck data isWin info.uuid).Copies struckSaved :=
    copies.struck (target.struckHp data isWin) info.uuid (target.struckRole isWin)
  have standing : ¬ saved.Destroyed := mt copies.destroyed_iff.mpr found.standing
  have nonNeg : struckSaved.NonNeg :=
    War.Target.struck_nonNeg (inv.nonNeg.building _ _ saved saved_found) found.defendNum data isWin
      info.uuid
  have reward : config.expReward info.buildingId = data.dynastyExpReward := by
    rw [Config.expReward, data_found]
    rfl
  have member : before.numbers uuid = some target.numbers := by
    rw [War.numbers, found.member]
    exact found.numbers
  -- The marks are those of the member and of the dynasty, whatever follows.
  have numbers : ∀ (members : Table υ MemberInfo), (∀ other,
      (members.get other).bind MemberInfo.numbers =
        (((before.spend uuid target).memberDict.set uuid (some { target.member with
          numbers := some
            { attackNum := target.numbers.attackNum - 1
              dailyMark := target.numbers.dailyMark +
                (target.building.buildingHp - target.struckHp data isWin)
              totalMark := target.numbers.totalMark +
                (target.building.buildingHp - target.struckHp data isWin) } })).get other).bind
          MemberInfo.numbers) → ∀ other, (members.get other).bind MemberInfo.numbers =
        if other = uuid then
          some
            { attackNum := target.numbers.attackNum - 1
              dailyMark := target.numbers.dailyMark + (saved.buildingHp - struckSaved.buildingHp)
              totalMark := target.numbers.totalMark + (saved.buildingHp - struckSaved.buildingHp) }
        else before.numbers other := by
    intro members written other
    rw [written, numbers_set, copies.buildingHp]
    split
    · rfl
    · rename_i different
      rw [War.spend, numbers_set, if_neg different]
      rfl
  refine ⟨enemy, saved, struckSaved, ?_⟩
  unfold War.settle
  have kept : (War.strike (before.spend uuid target) info target data isWin).enemyDict.get
      info.dynastyId = some enemy := enemy_found
  simp only [kept, building_found]
  split
  · rename_i destroyed
    have kept_destroyed := struck_copies.destroyed_iff.mp destroyed
    obtain ⟨members, level, after_eq, same_numbers⟩ := War.destroy_spec config
      (War.mark (War.save (War.strike (before.spend uuid target) info target data isWin) info target
        data isWin enemy saved) uuid info target
        (target.building.buildingHp - target.struckHp data isWin)) info data
    have fought : Fought config before
        (War.destroy config (War.mark (War.save (War.strike (before.spend uuid target) info target
          data isWin) info target data isWin enemy saved) uuid info target
          (target.building.buildingHp - target.struckHp data isWin)) info data).1 uuid
        info.dynastyId info.buildingId target.numbers enemy saved struckSaved target.buildingDict
        (target.struck data isWin info.uuid) := by
      rw [after_eq]
      exact
        { member := member
          attackNum := found.attackNum
          numbersAfter := numbers members same_numbers
          enemyFound := enemy_found
          buildingFound := building_found
          standing := standing
          nonNeg := nonNeg
          enemyDict := rfl
          snapshot := found.enemy
          competeEnemyDict := rfl
          copies := struck_copies
          attackMark := by rw [← copies.buildingHp]; rfl
          totalMark := by rw [← copies.buildingHp]; rfl
          builder := rfl
          blows := by rw [← copies.buildingHp]; rfl
          grants := by rw [if_pos kept_destroyed]; rfl
          dynastyExp := by rw [if_pos kept_destroyed, reward]; rfl }
    split
    · exact fought
    · exact fought
  · rename_i still
    have kept_standing : ¬ struckSaved.Destroyed := mt struck_copies.destroyed_iff.mpr still
    exact
      { member := member
        attackNum := found.attackNum
        numbersAfter := numbers _ fun _ => rfl
        enemyFound := enemy_found
        buildingFound := building_found
        standing := standing
        nonNeg := nonNeg
        enemyDict := rfl
        snapshot := found.enemy
        competeEnemyDict := rfl
        copies := struck_copies
        attackMark := by rw [← copies.buildingHp]; rfl
        totalMark := by rw [← copies.buildingHp]; rfl
        builder := rfl
        blows := by rw [← copies.buildingHp]; rfl
        grants := by rw [if_neg kept_standing, List.append_nil]; rfl
        dynastyExp := by rw [if_neg kept_standing, Int.add_zero]; rfl }

theorem Inv.fight (inv : Inv config start before) (uuid : υ) (info : FightInfo δ υ φ) (now : ℤ)
    (seed : ℕ) : Inv config start (before.dynastyCompeteFight config uuid info now seed).1 := by
  unfold War.dynastyCompeteFight
  split
  · exact inv
  · rename_i target checked
    have found := War.found_of_checkFight checked
    split
    · rename_i isWin data _ data_found
      obtain ⟨enemy, saved, struckSaved, fought⟩ := inv.settle_fought found data_found isWin
      exact fought.inv inv
    · exact inv.spend found

theorem Inv.step {event : Event δ υ φ} (inv : Inv config start before)
    (taken : step config before event = some after) : Inv config start after := by
  cases event with
  | fight uuid info now seed =>
      cases taken
      exact inv.fight uuid info now seed
  | buy uuid addNum =>
      cases taken
      exact inv.buy uuid addNum
  | nextDynasty id => exact inv.nextDynasty taken
  | nextBuilding buildingId => exact inv.nextBuilding taken
  | nextRole uuid => exact inv.nextRole taken
  | answer fightData => exact inv.answer taken
  | endRoles => exact inv.endRoles taken
  | endBuildings => exact inv.endBuildings taken
  | endDynasties => exact inv.endDynasties taken
  | raise => exact inv.raise taken

theorem Inv.base {war : War δ υ φ} (nonNeg : war.NonNeg)
    (copies : ∀ id buildingDict, war.competeEnemyDict.get id = some buildingDict →
      ∃ enemy, war.enemyDict.get id = some enemy ∧ EnemyCopies buildingDict enemy)
    (complete : war.builder = .ended →
      ∀ id, war.enemyDict.get id ≠ none → war.competeEnemyDict.get id ≠ none)
    (builder : war.BuilderSound) (blows : war.blows = []) (grants : war.grants = []) :
    Inv config war war where
  nonNeg := nonNeg
  copies := copies
  complete := complete
  attackMark := by rw [blows]; exact (Int.add_zero _).symm
  totalMark := by rw [blows]; exact (Int.add_zero _).symm
  member uuid numbers found := by
    refine ⟨numbers, found, ?_, ?_⟩
    · rw [War.marksOf, blows]
      exact (Int.add_zero _).symm
    · rw [War.marksOf, blows]
      exact (Int.add_zero _).symm
  stranger _ absent := absent
  blow blow mem := by
    rw [blows] at mem
    cases mem
  grant key mem := by
    rw [grants] at mem
    cases mem
  besieged id buildingId := by
    rw [War.marksAt, blows, grants]
    cases war.saved id buildingId with
    | none => exact .none
    | some saved =>
        refine .some ⟨(Int.sub_self _).symm, fun destroyed => destroyed, ?_⟩
        exact (if_neg fun both => both.1 both.2).symm
  dynastyExp := by rw [grants]; exact (Int.add_zero _).symm
  builder := builder

theorem Inv.build {war : War δ υ φ} (nonNeg : war.NonNeg) :
    Inv config war.buildCompeteEnemyDict war.buildCompeteEnemyDict := by
  refine .base ⟨nonNeg.building, nonNeg.attackNum⟩ ?_ nofun trivial rfl rfl
  intro id buildingDict found
  have empty : (Table.empty : Table δ (Table ℕ (BuildingInfo υ φ))).get id = some buildingDict :=
    found
  cases empty

/-- `compete_open` gives the members their attempts and keeps the snapshot. -/
theorem Inv.opened (inv : Inv config start before) :
    Inv config (before.openFights config) (before.openFights config) := by
  refine .base ⟨inv.nonNeg.building, ?_⟩ inv.copies inv.complete inv.builder rfl rfl
  have kept : ∀ (uuids : List υ) (members : Table υ MemberInfo),
      (∀ uuid numbers, (members.get uuid).bind MemberInfo.numbers = some numbers →
        0 ≤ numbers.attackNum) →
      ∀ uuid numbers, ((uuids.foldl (fun members uuid =>
        members.set uuid ((members.get uuid).map fun member => { member with
          numbers := some { attackNum := config.initAttackNum, dailyMark := 0, totalMark := 0 }
          competeReward := some (Table.tabulate (fun _ => false)
            (config.rewards.map CompeteRewardData.id)) })) members).get uuid).bind
          MemberInfo.numbers = some numbers → 0 ≤ numbers.attackNum := by
    intro uuids
    induction uuids with
    | nil => exact fun members nonNeg => nonNeg
    | cons first uuids induction =>
        intro members nonNeg
        apply induction
        intro uuid numbers found
        rw [Table.get_set] at found
        split at found
        · cases present : members.get first with
          | none =>
              rw [present] at found
              cases found
          | some member =>
              rw [present] at found
              cases found
              exact Int.natCast_nonneg config.initAttackNum
        · exact nonNeg uuid numbers found
  exact kept before.memberDict.keys before.memberDict inv.nonNeg.attackNum

/-- The books of a dynasty war are right after every run of fights, bought attempts and steps that build
the snapshot, and again after every run once `compete_open` has reset the members. -/
theorem war_bookkept (config : Config φ) (start : War δ υ φ) (nonNeg : start.NonNeg)
    (events : List (Event δ υ φ)) (built : War δ υ φ)
    (building : Execution.run (step config) start.buildCompeteEnemyDict events = some built) :
    Bookkept config start.buildCompeteEnemyDict built ∧
      ∀ (later : List (Event δ υ φ)) (final : War δ υ φ), built.builder = .ended →
        Execution.run (step config) (built.openFights config) later = some final →
        Bookkept config (built.openFights config) final := by
  have built_inv : Inv config start.buildCompeteEnemyDict built :=
    Execution.run_invariant Inv.step building (.build nonNeg)
  refine ⟨built_inv.toBookkept, fun later final _ fights => ?_⟩
  have final_inv : Inv config (built.openFights config) final :=
    Execution.run_invariant Inv.step fights built_inv.opened
  exact final_inv.toBookkept

/-- A war with one enemy, of which one building has one defender. -/
def firstSiege : War ℕ ℕ Unit where
  memberDict := Table.empty.set 7 (some
    { joinTs := 0, numbers := some ⟨1, 0, 0⟩, competeReward := some .empty })
  isOpen := false
  attackMark := 0
  totalMark := 0
  totalAttackNum := 0
  enemyDict := Table.empty.set 3 (some
    (Table.empty.set 1 (some { buildingHp := 10, roleDict := Table.empty.set 9 (some 1) })))
  competeEnemyDict := .empty
  builder := .ended
  dynastyExp := 0
  dynastyLevel := 1
  blows := []
  grants := []

/-- A game with two buildings, in which every battle is won. -/
def siegeConfig : Config Unit where
  buildings := [⟨10, 1, 50, 5, 1000⟩, ⟨20, 1, 50, 5, 1000⟩]
  rewards := []
  levelExps := [0]
  initAttackNum := 1
  day := 86400
  goToFight _ _ _ := some true

/-- The snapshot is built and the building destroyed. -/
def siegeEvents : List (Event ℕ ℕ Unit) :=
  [.nextDynasty 3, .nextBuilding 1, .nextRole 9, .answer (), .endRoles, .endBuildings,
    .fight 7 ⟨(), 3, 1, 9⟩ 86400 1, .endDynasties]

theorem firstSiege_nonNeg : firstSiege.NonNeg where
  building id buildingId saved found := by
    rw [War.saved, firstSiege, Table.get_set] at found
    split at found
    · rw [Option.bind_some, Table.get_set] at found
      split at found
      · cases found
        refine ⟨by decide, fun uuid defendNum defend => ?_⟩
        rw [Table.get_set] at defend
        split at defend
        · cases defend
          decide
        · cases defend
      · cases found
    · cases found
  attackNum uuid numbers found := by
    rw [War.numbers, firstSiege, Table.get_set] at found
    split at found
    · cases found
      decide
    · cases found

theorem war_bookkept_firstSiege :
    ∃ built, Execution.run (step siegeConfig) firstSiege.buildCompeteEnemyDict siegeEvents =
        some built ∧ built.grants = [(3, 1)] ∧
      Bookkept siegeConfig firstSiege.buildCompeteEnemyDict built ∧
      Bookkept siegeConfig (built.openFights siegeConfig) (built.openFights siegeConfig) := by
  have bookkept := war_bookkept siegeConfig firstSiege firstSiege_nonNeg siegeEvents _ rfl
  exact ⟨_, rfl, rfl, bookkept.1, bookkept.2 [] _ rfl (Execution.run_nil _)⟩

end UEServer.DynastyCompete
