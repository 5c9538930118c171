import UEServer.Dynasty.Garrison

/-!
# The room of the buildings

The other steps, and the runs: the two records agree throughout every run, the automatic assignment leaves
a member out only if every building is full, and no building ever has too many exactly if every step of the
run only assigns members for whom there is room.
-/

namespace UEServer.DynastyDefend

open Execution

variable {υ : Type*} [DecidableEq υ] {config : Config} {dynasty next : Dynasty υ}

theorem Sound.unapplied (sound : Sound config dynasty) (unapplied : dynasty.isApply = false) (uuid : υ)
    (buildingId : ℕ) : dynasty.buildingOf uuid ≠ some (some buildingId) := by
  intro assigned
  have listed := (sound.assigned uuid buildingId).mpr assigned
  rw [isListed] at listed
  cases present : dynasty.buildings.get buildingId with
  | none =>
      rw [present] at listed
      cases listed
  | some memberDict =>
      have applied := ((sound.known buildingId).mp (by rw [present]; rfl)).1
      cases applied.symm.trans unapplied

omit [DecidableEq υ] in
theorem get_competeApply (buildingId : ℕ) : (dynasty.competeApply config).buildings.get buildingId =
    if config.Has buildingId then some Table.empty else none := by
  change (Table.tabulate _ _).get buildingId = _
  rw [Table.get_tabulate]
  refine if_congr ?_ rfl rfl
  rw [List.mem_range'_1, Config.Has]
  omega

theorem Sound.competeApply (sound : Sound config dynasty) (unapplied : dynasty.isApply = false) :
    Sound config (dynasty.competeApply config) ∧
      ∀ buildingId, numListed (dynasty.competeApply config).buildings buildingId = 0 := by
  refine ⟨⟨fun uuid buildingId => ?_, fun buildingId => ?_⟩, fun buildingId => ?_⟩
  · rw [isListed, get_competeApply]
    refine ⟨fun listed => ?_, fun assigned => absurd assigned (sound.unapplied unapplied uuid buildingId)⟩
    split at listed
    · cases listed
    · cases listed
  · rw [get_competeApply]
    split
    · rename_i has
      exact ⟨fun _ => ⟨rfl, has⟩, fun _ => rfl⟩
    · rename_i unknown
      exact ⟨by rintro ⟨⟩, fun both => absurd both.2 unknown⟩
  · rw [numListed, get_competeApply]
    split
    · rfl
    · rfl

theorem Sound.reset (memberDict : Table υ Member) (isOpen : Bool)
    (free : ∀ uuid, ∀ member ∈ memberDict.get uuid, member.buildingId = none) :
    Sound config ⟨memberDict, isOpen, false, none⟩ := by
  refine ⟨fun uuid buildingId => ⟨nofun, fun assigned => ?_⟩, fun buildingId => ⟨nofun, fun both => ?_⟩⟩
  · obtain ⟨member, found, of⟩ := Option.map_eq_some_iff.mp assigned
    rw [free uuid member found] at of
    cases of
  · cases both.1

section
variable (sound : Sound config dynasty)
include sound

theorem Sound.competeOpen (weekDay : ℕ) (builds : Bool) :
    Sound config (dynasty.competeOpen config weekDay builds) ∧
      ∀ buildingId, numListed (dynasty.competeOpen config weekDay builds).buildings buildingId ≤
        numListed dynasty.buildings buildingId := by
  have opened : Sound config { dynasty with isOpen := true } := ⟨sound.assigned, sound.known⟩
  rw [Dynasty.competeOpen]
  split
  · exact ⟨sound, fun _ => le_rfl⟩
  split
  · refine ⟨Sound.reset _ _ fun uuid member found => ?_, fun _ => Nat.zero_le _⟩
    rw [Table.get_collect] at found
    split at found
    · obtain ⟨_, -, rfl⟩ := Option.map_eq_some_iff.mp found
      rfl
    · cases found
  split
  · split
    · exact ⟨opened, fun _ => le_rfl⟩
    · exact ⟨sound, fun _ => le_rfl⟩
  · exact ⟨opened, fun _ => le_rfl⟩

theorem Sound.addDynastyMember (uuid : υ) (fightScore : ℤ) :
    Sound config (dynasty.addDynastyMember uuid fightScore) ∧
      (dynasty.addDynastyMember uuid fightScore).buildings = dynasty.buildings := by
  rw [Dynasty.addDynastyMember.eq_def]
  cases stranger : dynasty.memberDict.get uuid with
  | some member => exact ⟨sound, rfl⟩
  | none =>
      refine ⟨⟨fun other buildingId => ?_, sound.known⟩, rfl⟩
      refine (sound.assigned other buildingId).trans ?_
      rw [Dynasty.buildingOf, Dynasty.buildingOf]
      rw [Table.get_set]
      split
      · rename_i same
        rw [same, stranger]
        exact ⟨by rintro ⟨⟩, by rintro ⟨⟩⟩
      · rfl

theorem Sound.unlist_eq {uuid : υ} {old : Option ℕ} (member : dynasty.buildingOf uuid = some old) :
    unlist dynasty.buildings uuid = leaveBuilding dynasty.buildings uuid old := by
  have only : ∀ buildingId, isListed dynasty.buildings buildingId uuid = true → old = some buildingId :=
    fun buildingId listed => Option.some.inj (member.symm.trans ((sound.assigned uuid buildingId).mp listed))
  rw [unlist]
  cases found : dynasty.buildings.keys.find? fun buildingId => isListed dynasty.buildings buildingId uuid with
  | some buildingId =>
      have listed := @List.find?_some _ (fun id => isListed dynasty.buildings id uuid) _ _ found
      obtain rfl := only buildingId listed
      rfl
  | none =>
      cases old with
      | none => rfl
      | some buildingId =>
          have listed := (sound.assigned uuid buildingId).mpr member
          have absent : buildingId ∉ dynasty.buildings.keys := fun mem =>
            List.find?_eq_none.mp found buildingId mem listed
          rw [isListed] at listed
          rw [Table.mem_keys, not_not] at absent
          rw [absent] at listed
          cases listed

theorem Sound.deleteDynastyMember {uuid : υ} (taken : dynasty.deleteDynastyMember uuid = some next)
    :
    Sound config next ∧ ∀ buildingId, numListed next.buildings buildingId ≤
      numListed dynasty.buildings buildingId := by
  rw [Dynasty.deleteDynastyMember.eq_def] at taken
  split at taken
  · cases taken
    exact ⟨sound, fun _ => le_rfl⟩
  cases found : dynasty.memberDict.get uuid with
  | none =>
      rw [found] at taken
      cases taken
      exact ⟨sound, fun _ => le_rfl⟩
  | some info =>
      rw [found] at taken
      dsimp only at taken
      split at taken
      · cases taken
      cases taken
      have member : dynasty.buildingOf uuid = some info.buildingId := Option.map_eq_some_iff.mpr ⟨info, found, rfl⟩
      obtain ⟨listed, known, num⟩ := sound.left member
      have buildings : (dynasty.buildingDict.map fun dict => unlist dict uuid).getD Table.empty =
          leaveBuilding dynasty.buildings uuid info.buildingId := by
        rw [← sound.unlist_eq member, Dynasty.buildings]
        cases dynasty.buildingDict with
        | none => rfl
        | some dict => rfl
      refine ⟨⟨fun other buildingId => ?_, fun buildingId => ?_⟩, fun buildingId => ?_⟩
      · change isListed ((dynasty.buildingDict.map _).getD Table.empty) buildingId other = true ↔ _
        rw [buildings, listed, Dynasty.buildingOf]
        rw [Table.get_set]
        split
        · exact ⟨by rintro ⟨⟩, by rintro ⟨⟩⟩
        · exact sound.assigned other buildingId
      · change ((((dynasty.buildingDict.map _).getD Table.empty).get buildingId).isSome = true) ↔ _
        rw [buildings, known]
        exact sound.known buildingId
      · change numListed ((dynasty.buildingDict.map _).getD Table.empty) buildingId ≤ _
        rw [buildings, ← num buildingId]
        exact Nat.le_add_right _ _

theorem Sound.updateFightScore (uuid : υ) (score : ℤ) :
    Sound config (dynasty.updateFightScore uuid score) := by
  refine ⟨fun other buildingId => (sound.assigned other buildingId).trans ?_, sound.known⟩
  rw [Dynasty.buildingOf, Dynasty.buildingOf, Dynasty.updateFightScore]
  rw [Table.get_set]
  split
  · rename_i same
    rw [same, Option.map_map]
    rfl
  · rfl

end

theorem mem_unassigned {uuid : υ} : uuid ∈ dynasty.unassigned ↔ dynasty.buildingOf uuid = some none := by
  rw [Dynasty.unassigned, List.mem_filter, decide_eq_true_eq, Table.mem_keys]
  refine and_iff_right_of_imp fun free => ?_
  obtain ⟨member, found, -⟩ := Option.map_eq_some_iff.mp free
  rw [found]
  exact nofun

theorem Sound.autoSet (sound : Sound config dynasty) (applied : dynasty.isApply = true) {memberList : List υ}
    (walked : memberList.Perm dynasty.unassigned) :
    Sound config (dynasty.autoSetBuildingDefend config memberList) ∧
      (∀ buildingId, numListed (dynasty.autoSetBuildingDefend config memberList).buildings buildingId =
        numListed dynasty.buildings buildingId +
          if 1 ≤ buildingId ∧ buildingId ≤ config.defendMemberCounts.length then
            share config dynasty buildingId
          else 0) ∧
      Filled config (dynasty.autoSetBuildingDefend config memberList) := by
  have nodup : memberList.Nodup := walked.nodup_iff.mpr (dynasty.memberDict.keys_nodup.filter _)
  obtain ⟨sound', num, left⟩ := Sound.autoLoop le_rfl nodup sound applied fun uuid mem =>
    mem_unassigned.mp (walked.mem_iff.mp mem)
  refine ⟨sound', fun buildingId => ?_, ?_⟩
  · rw [share, ← walked.length_eq]
    exact num buildingId
  · rintro ⟨uuid, free⟩ buildingId
    obtain ⟨before, full⟩ := left uuid free
    by_cases has : config.Has buildingId
    · exact full (walked.mem_iff.mpr (mem_unassigned.mpr before)) buildingId has.1 has.2
    · rw [Config.defendMemberCount_eq_zero has]
      exact Nat.zero_le _

theorem sound_step {event : Event υ} (sound : Sound config dynasty)
    (taken : step config dynasty event = some next) : Sound config next := by
  cases event with
  | competeOpen weekDay builds =>
      cases taken
      exact (sound.competeOpen weekDay builds).1
  | competeDaily preWeekDay memberList =>
      rw [step] at taken
      split at taken
      · rename_i list
        cases taken
        have closed : Sound config { dynasty with isOpen := false } := ⟨sound.assigned, sound.known⟩
        rw [Dynasty.competeDaily]
        split
        · rename_i applied
          split
          · exact (Sound.autoSet closed applied list.1).1
          · exact closed
        · exact sound
      · cases taken
  | competeApply isManager weekDay started levelReached =>
      cases taken
      split
      · rename_i checked
        exact (sound.competeApply checked.2.1).1
      · exact sound
  | buildingDefend isManager uuid buildingId =>
      cases taken
      split
      · rename_i accepted
        exact (sound.buildingDefend accepted).1
      · exact sound
  | join uuid fightScore =>
      cases taken
      exact (sound.addDynastyMember uuid fightScore).1
  | leave uuid => exact (sound.deleteDynastyMember taken).1
  | fightScore uuid score =>
      cases taken
      exact sound.updateFightScore uuid score

theorem good_step_iff {event : Event υ} (sound : Sound config dynasty) (good : Good config dynasty)
    (taken : step config dynasty event = some next) : Good config next ↔ Fits config dynasty event := by
  have sound' := sound_step sound taken
  rw [sound'.good_iff]
  have within := good.within
  cases event with
  | competeOpen weekDay builds =>
      cases taken
      exact iff_of_true (fun buildingId => ((sound.competeOpen weekDay builds).2 buildingId).trans
        (within buildingId)) trivial
  | competeDaily preWeekDay memberList =>
      rw [step] at taken
      split at taken
      · rename_i list
        cases taken
        have closed : Sound config { dynasty with isOpen := false } := ⟨sound.assigned, sound.known⟩
        rw [Fits, Dynasty.competeDaily]
        split
        · rename_i applied
          split
          · rename_i day
            obtain ⟨-, num, -⟩ := Sound.autoSet closed applied list.1
            constructor
            · intro within' _ _ buildingId inside
              have few := within' buildingId
              rw [num, if_pos (Finset.mem_Icc.mp inside)] at few
              exact few
            · intro fits buildingId
              rw [num]
              split
              · rename_i inside
                exact fits applied day buildingId (Finset.mem_Icc.mpr inside)
              · exact within buildingId
          · rename_i other
            exact iff_of_true within fun _ day => absurd day other
        · rename_i unapplied
          exact iff_of_true within fun applied => absurd applied unapplied
      · cases taken
  | competeApply isManager weekDay started levelReached =>
      cases taken
      refine iff_of_true (fun buildingId => ?_) trivial
      split
      · rename_i checked
        rw [(sound.competeApply checked.2.1).2]
        exact Nat.zero_le _
      · exact within buildingId
  | buildingDefend isManager uuid buildingId =>
      cases taken
      split
      · rename_i accepted
        obtain ⟨-, old, different, num⟩ := sound.buildingDefend accepted
        constructor
        · intro within' _ target assigned
          have assigned : buildingId = some target := assigned
          have moved := num target
          rw [if_neg fun left : old = some target => different (left.trans assigned.symm),
            if_pos assigned] at moved
          have few := within' target
          omega
        · intro fits otherId
          have moved := num otherId
          have few := within otherId
          by_cases here : buildingId = some otherId
          · have room := fits accepted otherId here
            rw [if_pos here] at moved
            omega
          · rw [if_neg here] at moved
            omega
      · rename_i refused
        exact iff_of_true within fun accepted => absurd accepted refused
  | join uuid fightScore =>
      cases taken
      refine iff_of_true (fun buildingId => ?_) trivial
      rw [(sound.addDynastyMember uuid fightScore).2]
      exact within buildingId
  | leave uuid =>
      exact iff_of_true (fun buildingId => ((sound.deleteDynastyMember taken).2 buildingId).trans
        (within buildingId)) trivial
  | fightScore uuid score =>
      cases taken
      exact iff_of_true within trivial

/-- Who is left out by the automatic assignment finds every building full. -/
theorem filled_step {event : Event υ} (sound : Sound config dynasty)
    (automatic : Automatic config dynasty event) (taken : step config dynasty event = some next) :
    Filled config next := by
  cases event with
  | competeDaily preWeekDay memberList =>
      obtain ⟨applied, day⟩ := automatic
      rw [step] at taken
      split at taken
      · rename_i list
        cases taken
        have closed : Sound config { dynasty with isOpen := false } := ⟨sound.assigned, sound.known⟩
        rw [Dynasty.competeDaily, if_pos applied, if_pos day]
        exact (Sound.autoSet closed applied list.1).2.2
      · cases taken
  | competeOpen _ _ => exact automatic.elim
  | competeApply _ _ _ _ => exact automatic.elim
  | buildingDefend _ _ _ => exact automatic.elim
  | join _ _ => exact automatic.elim
  | leave _ => exact automatic.elim
  | fightScore _ _ => exact automatic.elim

theorem sound_created (uuid : υ) (fightScore : ℤ) : Sound config (Dynasty.created uuid fightScore) := by
  refine Sound.reset _ _ fun other member found => ?_
  rw [Table.get_set] at found
  split at found
  · cases found
    rfl
  · cases found

/-- The automatic assignment of a run, wherever it happens, leaves nobody out without need. -/
def FilledThroughout (config : Config) (start : Dynasty υ) (events : List (Event υ)) : Prop :=
  ∀ front event back middle next, events = front ++ event :: back →
    run (step config) start front = some middle → Automatic config middle event →
    step config middle event = some next → Filled config next

/-- Two buildings with room for two members each, and a war that is registered on Mondays. -/
def twoBuildings : Config := ⟨[2, 2], 1, [2, 3], 2⟩

/-- The dynasty registers, two members are assigned to the buildings, and the others automatically. -/
def roomyEvents : List (Event ℕ) :=
  [.join 2 10, .join 3 20, .competeOpen 1 true, .competeApply true 1 true true,
    .buildingDefend true 1 (some 1), .buildingDefend true 1 none, .leave 2,
    .competeDaily 1 [3, 1], .competeOpen 2 true]

/-- Three members are assigned to a building that has room for two. -/
def crowdedEvents : List (Event ℕ) :=
  [.join 2 10, .join 3 20, .competeOpen 1 true, .competeApply true 1 true true,
    .buildingDefend true 1 (some 1), .buildingDefend true 2 (some 1), .buildingDefend true 3 (some 1)]

end UEServer.DynastyDefend
