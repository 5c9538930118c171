import UEServer.Dynasty.Defend

/-!
# The two records of the defence agree

Every step keeps the `building_id` of the members and the `member_dict` of the buildings in agreement.  The
room of a building is kept exactly if nobody is assigned to a building that is full; the checks of the code
read the length of a table whose keys are no indices, which is 0.
-/

namespace UEServer.DynastyDefend

open Execution

variable {υ : Type*} [DecidableEq υ]

section
variable {dict : Table ℕ (Table υ Unit)} {buildingId : ℕ}

theorem setListed_eq {memberDict : Table υ Unit} (known : dict.get buildingId = some memberDict) (uuid : υ)
    (value : Option Unit) :
    setListed dict buildingId uuid value = dict.set buildingId (some (memberDict.set uuid value)) := by
  rw [setListed, known]

theorem isListed_setListed (known : (dict.get buildingId).isSome = true) (uuid other : υ)
    (value : Option Unit) (otherId : ℕ) :
    isListed (setListed dict buildingId uuid value) otherId other =
      if otherId = buildingId ∧ other = uuid then value.isSome else isListed dict otherId other := by
  obtain ⟨memberDict, known⟩ := Option.isSome_iff_exists.mp known
  rw [setListed_eq known, isListed, Table.get_set]
  by_cases here : otherId = buildingId
  · subst here
    rw [if_pos rfl, Option.bind_some, Table.get_set]
    by_cases same : other = uuid
    · rw [if_pos same, if_pos ⟨rfl, same⟩]
    · rw [if_neg same, if_neg fun both => same both.2, isListed, known, Option.bind_some]
  · rw [if_neg here, if_neg fun both => here both.1, isListed]

theorem isSome_get_setListed (uuid : υ) (value : Option Unit) (otherId : ℕ) :
    ((setListed dict buildingId uuid value).get otherId).isSome = (dict.get otherId).isSome := by
  cases known : dict.get buildingId with
  | none => rw [setListed, known]
  | some memberDict =>
      rw [setListed_eq known, Table.get_set]
      split
      · rename_i here
        rw [here, known]
        rfl
      · rfl

theorem numListed_setListed (known : (dict.get buildingId).isSome = true) (uuid : υ) (value : Option Unit)
    (otherId : ℕ) :
    numListed (setListed dict buildingId uuid value) otherId +
        (if otherId = buildingId ∧ isListed dict buildingId uuid = true then 1 else 0) =
      numListed dict otherId + if otherId = buildingId ∧ value.isSome = true then 1 else 0 := by
  obtain ⟨memberDict, known⟩ := Option.isSome_iff_exists.mp known
  rw [setListed_eq known, numListed, numListed, Table.get_set, isListed, known, Option.bind_some]
  by_cases here : otherId = buildingId
  · subst here
    have weight : ∀ entry : Option Unit, Table.weight entry = if entry.isSome = true then 1 else 0 := by
      intro entry
      cases entry with
      | none => rfl
      | some _ => rfl
    have size := Table.size_set memberDict uuid value
    rw [weight, weight] at size
    rw [if_pos rfl, known]
    simpa using size
  · simp [here]

end

/-- The two records agree, and a registered dynasty has all buildings. -/
structure Sound (config : Config) (dynasty : Dynasty υ) : Prop where
  assigned : ∀ uuid buildingId,
    isListed dynasty.buildings buildingId uuid = true ↔ dynasty.buildingOf uuid = some (some buildingId)
  /-- The buildings are those of the table, as soon as the dynasty has registered. -/
  known : ∀ buildingId, (dynasty.buildings.get buildingId).isSome = true ↔
    dynasty.isApply = true ∧ config.Has buildingId

variable {config : Config} {dynasty : Dynasty υ}

theorem Sound.good_iff (sound : Sound config dynasty) : Good config dynasty ↔
    ∀ buildingId, numListed dynasty.buildings buildingId ≤ config.defendMemberCount buildingId :=
  ⟨Good.within, fun within => ⟨sound.assigned, within⟩⟩

theorem Config.defendMemberCount_eq_zero {buildingId : ℕ} (unknown : ¬ config.Has buildingId) :
    config.defendMemberCount buildingId = 0 := by
  cases buildingId with
  | zero => rfl
  | succ index =>
      have beyond : config.defendMemberCounts.length ≤ index := by
        rw [Config.Has] at unknown
        omega
      change (config.defendMemberCounts[index]?).getD 0 = 0
      rw [List.getElem?_eq_none beyond]
      rfl

variable {uuid : υ}

theorem Sound.listed_none (sound : Sound config dynasty)
    (free : ∀ buildingId, dynasty.buildingOf uuid ≠ some (some buildingId)) (buildingId : ℕ) :
    isListed dynasty.buildings buildingId uuid = false :=
  eq_false_of_ne_true fun listed => free buildingId ((sound.assigned uuid buildingId).mp listed)

theorem buildingOf_place (buildingId : ℕ) (uuid other : υ) :
    (dynasty.place buildingId uuid).buildingOf other =
      if other = uuid then (dynasty.buildingOf uuid).map fun _ => some buildingId
      else dynasty.buildingOf other := by
  rw [Dynasty.buildingOf, Dynasty.place]
  rw [Table.get_set]
  split
  · rw [Dynasty.buildingOf, Option.map_map, Option.map_map]
    rfl
  · rfl

theorem Sound.place (sound : Sound config dynasty) (applied : dynasty.isApply = true) {buildingId : ℕ}
    (has : config.Has buildingId) (free : dynasty.buildingOf uuid = some none) :
    Sound config (dynasty.place buildingId uuid) ∧
      ∀ otherId, numListed (dynasty.place buildingId uuid).buildings otherId =
        numListed dynasty.buildings otherId + if otherId = buildingId then 1 else 0 := by
  have known := (sound.known buildingId).mpr ⟨applied, has⟩
  have unassigned : ∀ otherId, dynasty.buildingOf uuid ≠ some (some otherId) :=
    fun otherId assigned => by cases free.symm.trans assigned
  have unlisted := sound.listed_none unassigned
  refine ⟨⟨fun other otherId => ?_, fun otherId => ?_⟩, fun otherId => ?_⟩
  · change isListed (setListed dynasty.buildings buildingId uuid (some ())) otherId other = true ↔ _
    rw [isListed_setListed known, buildingOf_place, free, Option.map_some]
    by_cases same : other = uuid
    · by_cases here : otherId = buildingId
      · simp [here, same]
      · rw [if_neg fun both => here both.1, same, unlisted]
        simp [Ne.symm here]
    · rw [if_neg same, if_neg fun both => same both.2]
      exact sound.assigned other otherId
  · change ((setListed dynasty.buildings buildingId uuid (some ())).get otherId).isSome = true ↔ _
    rw [isSome_get_setListed]
    exact sound.known otherId
  · have num := numListed_setListed known uuid (some ()) otherId
    rw [unlisted, if_neg fun both => Bool.noConfusion both.2] at num
    change numListed (setListed dynasty.buildings buildingId uuid (some ())) otherId = _
    simpa using num

theorem Sound.placeAll {buildingId : ℕ} (has : config.Has buildingId) {uuids : List υ} (nodup : uuids.Nodup)
    {dynasty : Dynasty υ} (sound : Sound config dynasty) (applied : dynasty.isApply = true)
    (free : ∀ uuid ∈ uuids, dynasty.buildingOf uuid = some none) :
    Sound config (uuids.foldl (Dynasty.place buildingId) dynasty) ∧
      (uuids.foldl (Dynasty.place buildingId) dynasty).isApply = true ∧
      (∀ otherId, numListed (uuids.foldl (Dynasty.place buildingId) dynasty).buildings otherId =
        numListed dynasty.buildings otherId + if otherId = buildingId then uuids.length else 0) ∧
      ∀ other, (uuids.foldl (Dynasty.place buildingId) dynasty).buildingOf other =
        if other ∈ uuids then some (some buildingId) else dynasty.buildingOf other := by
  induction uuids generalizing dynasty with
  | nil => exact ⟨sound, applied, fun _ => by simp, fun _ => rfl⟩
  | cons uuid uuids ih =>
      obtain ⟨absent, nodup⟩ := List.nodup_cons.mp nodup
      obtain ⟨placed, num⟩ := sound.place applied has (free uuid List.mem_cons_self)
      have free' : ∀ other ∈ uuids, (dynasty.place buildingId uuid).buildingOf other = some none := by
        intro other mem
        rw [buildingOf_place, if_neg fun same : other = uuid => absent (same ▸ mem)]
        exact free other (List.mem_cons_of_mem _ mem)
      obtain ⟨sound', applied', num', of⟩ := ih nodup placed applied free'
      refine ⟨sound', applied', fun otherId => ?_, fun other => ?_⟩
      · rw [List.foldl_cons, num', num, List.length_cons]
        split <;> omega
      · rw [List.foldl_cons, of, buildingOf_place, free uuid List.mem_cons_self, Option.map_some]
        by_cases later : other ∈ uuids
        · rw [if_pos later, if_pos (List.mem_cons_of_mem _ later)]
        · rw [if_neg later]
          by_cases here : other = uuid
          · rw [if_pos here, if_pos (here ▸ List.mem_cons_self)]
          · rw [if_neg here, if_neg fun mem => (List.mem_cons.mp mem).elim here later]

theorem Sound.autoLoop {limit : ℕ} (inside : limit ≤ config.defendMemberCounts.length) {memberList : List υ}
    (nodup : memberList.Nodup) {dynasty : Dynasty υ} (sound : Sound config dynasty)
    (applied : dynasty.isApply = true)
    (free : ∀ uuid ∈ memberList, dynasty.buildingOf uuid = some none) :
    Sound config (autoLoop config limit memberList dynasty) ∧
      (∀ buildingId, numListed (DynastyDefend.autoLoop config limit memberList dynasty).buildings buildingId =
        numListed dynasty.buildings buildingId +
          if 1 ≤ buildingId ∧ buildingId ≤ limit then
            min (config.defendMemberCount buildingId)
              (memberList.length - ∑ later ∈ Finset.Ioc buildingId limit, config.defendMemberCount later)
          else 0) ∧
      ∀ uuid, (DynastyDefend.autoLoop config limit memberList dynasty).buildingOf uuid = some none →
        dynasty.buildingOf uuid = some none ∧
          (uuid ∈ memberList → ∀ buildingId, 1 ≤ buildingId → buildingId ≤ limit →
            config.defendMemberCount buildingId ≤
              numListed (DynastyDefend.autoLoop config limit memberList dynasty).buildings buildingId) := by
  induction limit generalizing memberList dynasty with
  | zero =>
      refine ⟨sound, fun buildingId => ?_, fun uuid left => ⟨left, fun _ _ positive none => ?_⟩⟩
      · rw [if_neg (by omega)]
        rfl
      · omega
  | succ limit ih =>
      have need : needMemberCount config dynasty (limit + 1) = config.defendMemberCount (limit + 1) := rfl
      rw [DynastyDefend.autoLoop, need]
      have has : config.Has (limit + 1) := ⟨by omega, inside⟩
      have takes := List.take_subset (config.defendMemberCount (limit + 1)) memberList
      have drops := List.drop_subset (config.defendMemberCount (limit + 1)) memberList
      obtain ⟨placed, applied', num, of⟩ := Sound.placeAll has (nodup.sublist (List.take_sublist _ _)) sound
        applied fun uuid mem => free uuid (takes mem)
      have parts := nodup
      rw [← List.take_append_drop (config.defendMemberCount (limit + 1)) memberList,
        List.nodup_append] at parts
      have free' : ∀ uuid ∈ memberList.drop (config.defendMemberCount (limit + 1)),
          ((memberList.take (config.defendMemberCount (limit + 1))).foldl (Dynasty.place (limit + 1))
            dynasty).buildingOf uuid = some none := by
        intro uuid mem
        rw [of, if_neg fun taken => parts.2.2 uuid taken uuid mem rfl]
        exact free uuid (drops mem)
      obtain ⟨sound', num', left'⟩ := ih (by omega) (nodup.sublist (List.drop_sublist _ _)) placed applied' free'
      refine ⟨sound', fun buildingId => ?_, fun uuid left => ?_⟩
      · rw [num', num, List.length_take, List.length_drop]
        by_cases here : buildingId = limit + 1
        · subst here
          rw [if_pos rfl, if_neg (by omega), if_pos ⟨by omega, le_rfl⟩, Finset.Ioc_self, Finset.sum_empty]
          omega
        · rw [if_neg here]
          by_cases lower : 1 ≤ buildingId ∧ buildingId ≤ limit
          · rw [if_pos lower, if_pos ⟨lower.1, by omega⟩, Finset.sum_Ioc_succ_top lower.2]
            omega
          · rw [if_neg lower, if_neg (by omega)]
      · obtain ⟨before, full⟩ := left' uuid left
        rw [of] at before
        split at before
        · cases Option.some.inj before
        rename_i later
        refine ⟨before, fun mem buildingId positive upper => ?_⟩
        have dropped : uuid ∈ memberList.drop (config.defendMemberCount (limit + 1)) := by
          rw [← List.take_append_drop (config.defendMemberCount (limit + 1)) memberList,
            List.mem_append] at mem
          exact mem.resolve_left later
        rcases Nat.lt_or_eq_of_le upper with less | rfl
        · exact full dropped buildingId positive (Nat.lt_succ_iff.mp less)
        · have length := List.length_pos_of_mem dropped
          rw [List.length_drop] at length
          rw [num', num, if_pos rfl, List.length_take]
          omega

theorem buildingOf_buildingDefend {old : Option ℕ} (member : dynasty.buildingOf uuid = some old)
    (buildingId : Option ℕ) (other : υ) :
    (dynasty.buildingDefend uuid buildingId).buildingOf other =
      if other = uuid then some buildingId else dynasty.buildingOf other := by
  obtain ⟨info, found, -⟩ := Option.map_eq_some_iff.mp member
  rw [Dynasty.buildingOf, Dynasty.buildingDefend, found]
  rw [Table.get_set]
  split
  · rfl
  · rfl

theorem buildings_buildingDefend {old : Option ℕ} (member : dynasty.buildingOf uuid = some old)
    (buildingId : Option ℕ) :
    (dynasty.buildingDefend uuid buildingId).buildings =
      enterBuilding (leaveBuilding dynasty.buildings uuid old) uuid buildingId := by
  obtain ⟨info, found, rfl⟩ := Option.map_eq_some_iff.mp member
  rw [Dynasty.buildings, Dynasty.buildingDefend, found]
  rfl

theorem isApply_buildingDefend (uuid : υ) (buildingId : Option ℕ) :
    (dynasty.buildingDefend uuid buildingId).isApply = dynasty.isApply := by
  rw [Dynasty.buildingDefend.eq_def]
  cases dynasty.memberDict.get uuid with
  | none => rfl
  | some member => rfl

/-- A member that leaves its building is listed nowhere, and its building has one less. -/
theorem Sound.left (sound : Sound config dynasty) {old : Option ℕ}
    (member : dynasty.buildingOf uuid = some old) :
    (∀ buildingId other, isListed (leaveBuilding dynasty.buildings uuid old) buildingId other =
      if other = uuid then false else isListed dynasty.buildings buildingId other) ∧
    (∀ buildingId, ((leaveBuilding dynasty.buildings uuid old).get buildingId).isSome =
      (dynasty.buildings.get buildingId).isSome) ∧
    ∀ buildingId, numListed (leaveBuilding dynasty.buildings uuid old) buildingId +
        (if old = some buildingId then 1 else 0) =
      numListed dynasty.buildings buildingId := by
  have elsewhere : ∀ buildingId, old ≠ some buildingId →
      isListed dynasty.buildings buildingId uuid = false := by
    intro buildingId different
    refine eq_false_of_ne_true fun listed => different ?_
    exact Option.some.inj (member.symm.trans ((sound.assigned uuid buildingId).mp listed))
  cases old with
  | none =>
      refine ⟨fun buildingId other => ?_, fun _ => rfl, fun _ => rfl⟩
      split
      · rename_i same
        rw [same]
        exact elsewhere buildingId (by rintro ⟨⟩)
      · rfl
  | some former =>
      have listed := (sound.assigned uuid former).mpr member
      have known : (dynasty.buildings.get former).isSome = true := by
        rw [isListed] at listed
        cases present : dynasty.buildings.get former with
        | none =>
            rw [present] at listed
            cases listed
        | some _ => rfl
      rw [leaveBuilding]
      refine ⟨fun buildingId other => ?_, fun _ => isSome_get_setListed _ _ _, fun buildingId => ?_⟩
      · rw [isListed_setListed known]
        by_cases same : other = uuid
        · split
          · rfl
          · rename_i away
            rw [same]
            exact elsewhere buildingId fun here => away ⟨(Option.some.inj here).symm, same⟩
        · rw [if_neg same, if_neg fun both => same both.2]
      · have num := numListed_setListed known uuid none buildingId
        rw [listed, Option.isSome_none, if_neg (fun both => Bool.noConfusion both.2 :
          ¬ (buildingId = former ∧ false = true)), Nat.add_zero] at num
        rw [← num]
        refine congrArg _ (if_congr ?_ rfl rfl)
        rw [Option.some.injEq, eq_comm]
        exact (and_iff_left rfl).symm

theorem Sound.buildingDefend (sound : Sound config dynasty) {isManager : Bool}
    {buildingId : Option ℕ} (accepted : Accepted config dynasty isManager uuid buildingId) :
    Sound config (dynasty.buildingDefend uuid buildingId) ∧ ∃ old, old ≠ buildingId ∧
      ∀ otherId, numListed (dynasty.buildingDefend uuid buildingId).buildings otherId +
          (if old = some otherId then 1 else 0) =
        numListed dynasty.buildings otherId + if buildingId = some otherId then 1 else 0 := by
  obtain ⟨-, present, different, applied, target⟩ := accepted
  obtain ⟨old, member⟩ := Option.ne_none_iff_exists'.mp present
  have apart : old ≠ buildingId := fun same => different (same ▸ member)
  have entered := buildings_buildingDefend member buildingId
  obtain ⟨listed, known, num⟩ := sound.left member
  cases buildingId with
  | none =>
      refine ⟨⟨fun other otherId => ?_, fun otherId => ?_⟩, old, apart, fun otherId => ?_⟩
      · rw [entered, enterBuilding, listed, buildingOf_buildingDefend member]
        split
        · exact ⟨by rintro ⟨⟩, by rintro ⟨⟩⟩
        · exact sound.assigned other otherId
      · rw [entered, enterBuilding, isApply_buildingDefend, known]
        exact sound.known otherId
      · rw [entered]
        exact num otherId
  | some target' =>
      obtain ⟨has, -⟩ := target target' rfl
      have there : ((leaveBuilding dynasty.buildings uuid old).get target').isSome = true := by
        rw [known]
        exact (sound.known target').mpr ⟨applied, has⟩
      refine ⟨⟨fun other otherId => ?_, fun otherId => ?_⟩, old, apart, fun otherId => ?_⟩
      · rw [entered, enterBuilding, isListed_setListed there, listed, buildingOf_buildingDefend member]
        by_cases same : other = uuid
        · rw [if_pos same, if_pos same]
          by_cases here : otherId = target'
          · simp [here, same]
          · simp [here, Ne.symm here]
        · rw [if_neg same, if_neg same, if_neg fun both => same both.2]
          exact sound.assigned other otherId
      · rw [entered, isApply_buildingDefend, enterBuilding, isSome_get_setListed, known]
        exact sound.known otherId
      · have written := numListed_setListed there uuid (some ()) otherId
        rw [listed, if_pos rfl, if_neg fun both => Bool.noConfusion both.2, Nat.add_zero] at written
        have before := num otherId
        have same : (if otherId = target' ∧ (some ()).isSome = true then 1 else 0) =
            if some target' = some otherId then 1 else 0 := by
          refine if_congr ?_ rfl rfl
          rw [Option.some.injEq, eq_comm]
          exact and_iff_left rfl
        rw [entered, enterBuilding, written, ← before, same]
        omega

end UEServer.DynastyDefend
