import UEServer.Library.Dict
import UEServer.Library.Execution
import Mathlib.Algebra.BigOperators.Intervals

/-!
# The defence of a dynasty's buildings

The assignment of the members to the buildings in `dynasty_utils.lua` and `dynasty.lua`.  It is stored twice:
a member has a `building_id`, and a building has a `member_dict`.
-/

namespace UEServer.DynastyDefend

open Execution

structure Config where
  /-- `defend_member_count` of `DynastyBuildingData`, whose keys count from 1. -/
  defendMemberCounts : List ℕ
  /-- `dynasty_compete_apply_day`. -/
  applyDay : ℕ
  /-- `dynasty_compete_fight_day`. -/
  fightDays : List ℕ
  /-- `dynasty_compete_apply_member_count`. -/
  applyMemberCount : ℕ

/-- `DynastyBuildingData[building_id]` is there. -/
def Config.Has (config : Config) (buildingId : ℕ) : Prop :=
  1 ≤ buildingId ∧ buildingId ≤ config.defendMemberCounts.length

instance (config : Config) (buildingId : ℕ) : Decidable (config.Has buildingId) :=
  inferInstanceAs (Decidable (_ ∧ _))

/-- `defend_member_count` of a building. -/
def Config.defendMemberCount (config : Config) : ℕ → ℕ
  | 0 => 0
  | index + 1 => (config.defendMemberCounts[index]?).getD 0

structure Member where
  buildingId : Option ℕ
  fightScore : ℤ

structure Dynasty (υ : Type*) where
  memberDict : Table υ Member
  isOpen : Bool
  isApply : Bool
  /-- `compete.building_dict`: the `member_dict` of each building. -/
  buildingDict : Option (Table ℕ (Table υ Unit))

variable {υ : Type*} [DecidableEq υ]

def Dynasty.created (uuid : υ) (fightScore : ℤ) : Dynasty υ :=
  ⟨Table.empty.set uuid (some ⟨none, fightScore⟩), false, false, none⟩

def isListed (dict : Table ℕ (Table υ Unit)) (buildingId : ℕ) (uuid : υ) : Bool :=
  ((dict.get buildingId).bind fun memberDict => memberDict.get uuid).isSome

/-- The number of the members that are listed in a building. -/
def numListed (dict : Table ℕ (Table υ Unit)) (buildingId : ℕ) : ℕ :=
  ((dict.get buildingId).map Table.size).getD 0

/-- Write an entry of a `member_dict`. -/
def setListed (dict : Table ℕ (Table υ Unit)) (buildingId : ℕ) (uuid : υ) (value : Option Unit) :
    Table ℕ (Table υ Unit) :=
  match dict.get buildingId with
  | none => dict
  | some memberDict => dict.set buildingId (some (memberDict.set uuid value))

/-- The buildings of a dynasty, none before it has registered. -/
def Dynasty.buildings (dynasty : Dynasty υ) : Table ℕ (Table υ Unit) :=
  dynasty.buildingDict.getD Table.empty

/-- The building of a member, if there is the member. -/
def Dynasty.buildingOf (dynasty : Dynasty υ) (uuid : υ) : Option (Option ℕ) :=
  (dynasty.memberDict.get uuid).map Member.buildingId

/-- The length that Lua has for a `member_dict`, whose keys are uuids: no index is among them. -/
def luaLength (_memberDict : Table υ Unit) : ℕ := 0

/-- The checks of `dynasty_building_defend` for a manager. -/
def Accepted (config : Config) (dynasty : Dynasty υ) (isManager : Bool) (uuid : υ)
    (buildingId : Option ℕ) : Prop :=
  isManager = true ∧ dynasty.buildingOf uuid ≠ none ∧ dynasty.buildingOf uuid ≠ some buildingId ∧
    dynasty.isApply = true ∧ ∀ target ∈ buildingId, config.Has target ∧
      luaLength ((dynasty.buildings.get target).getD Table.empty) < config.defendMemberCount target

instance (config : Config) (dynasty : Dynasty υ) (isManager : Bool) (uuid : υ) (buildingId : Option ℕ) :
    Decidable (Accepted config dynasty isManager uuid buildingId) :=
  inferInstanceAs (Decidable (_ ∧ _ ≠ _ ∧ _ ≠ _ ∧ _ ∧ ∀ target ∈ buildingId, _ ∧ _))

/-- Take a member out of the building that it has. -/
def leaveBuilding (dict : Table ℕ (Table υ Unit)) (uuid : υ) : Option ℕ → Table ℕ (Table υ Unit)
  | none => dict
  | some old => setListed dict old uuid none

/-- Put a member into the building that it gets. -/
def enterBuilding (dict : Table ℕ (Table υ Unit)) (uuid : υ) : Option ℕ → Table ℕ (Table υ Unit)
  | none => dict
  | some target => setListed dict target uuid (some ())

/-- `DynastyCls:dynasty_building_defend`. -/
def Dynasty.buildingDefend (dynasty : Dynasty υ) (uuid : υ) (buildingId : Option ℕ) : Dynasty υ :=
  match dynasty.memberDict.get uuid with
  | none => dynasty
  | some member =>
      { dynasty with
        memberDict := dynasty.memberDict.set uuid (some { member with buildingId := buildingId })
        buildingDict := some
          (enterBuilding (leaveBuilding dynasty.buildings uuid member.buildingId) uuid buildingId) }

def Dynasty.place (buildingId : ℕ) (dynasty : Dynasty υ) (uuid : υ) : Dynasty υ :=
  { dynasty with
    memberDict := dynasty.memberDict.set uuid
      ((dynasty.memberDict.get uuid).map fun member => { member with buildingId := some buildingId })
    buildingDict := some (setListed dynasty.buildings buildingId uuid (some ())) }

def needMemberCount (config : Config) (dynasty : Dynasty υ) (buildingId : ℕ) : ℕ :=
  config.defendMemberCount buildingId -
    luaLength ((dynasty.buildings.get buildingId).getD Table.empty)

/-- The loops of `auto_set_building_defend`, down to the first building. -/
def autoLoop (config : Config) : ℕ → List υ → Dynasty υ → Dynasty υ
  | 0, _, dynasty => dynasty
  | buildingId + 1, memberList, dynasty =>
      let need := needMemberCount config dynasty (buildingId + 1)
      autoLoop config buildingId (memberList.drop need)
        ((memberList.take need).foldl (Dynasty.place (buildingId + 1)) dynasty)

def Dynasty.unassigned (dynasty : Dynasty υ) : List υ :=
  dynasty.memberDict.keys.filter fun uuid => dynasty.buildingOf uuid = some none

/-- The `fight_score` of a member. -/
def Dynasty.fightScore (dynasty : Dynasty υ) (uuid : υ) : ℤ :=
  ((dynasty.memberDict.get uuid).map Member.fightScore).getD 0

/-- `auto_set_building_defend`, with what `table.sort` makes of `member_list`. -/
def Dynasty.autoSetBuildingDefend (config : Config) (dynasty : Dynasty υ) (memberList : List υ) :
    Dynasty υ :=
  autoLoop config config.defendMemberCounts.length memberList dynasty

/-- A list that `table.sort` can make of the members without a building. -/
def IsMemberList (dynasty : Dynasty υ) (memberList : List υ) : Prop :=
  memberList.Perm dynasty.unassigned ∧
    memberList.Pairwise fun first second => dynasty.fightScore second ≤ dynasty.fightScore first

instance (dynasty : Dynasty υ) (memberList : List υ) : Decidable (IsMemberList dynasty memberList) :=
  inferInstanceAs (Decidable (_ ∧ _))

/-- `DynastyCls:compete_open`; the last argument says whether the enemies of a war can be built. -/
def Dynasty.competeOpen (config : Config) (dynasty : Dynasty υ) (weekDay : ℕ) (builds : Bool) : Dynasty υ :=
  if dynasty.isOpen then dynasty
  else if weekDay = config.applyDay then
    { memberDict := Table.collect
        (fun uuid => (dynasty.memberDict.get uuid).map fun member => { member with buildingId := none })
        dynasty.memberDict.keys
      isOpen := true
      isApply := false
      buildingDict := none }
  else if weekDay ∈ config.fightDays then
    if dynasty.isApply && builds then { dynasty with isOpen := true } else dynasty
  else { dynasty with isOpen := true }

/-- `DynastyCls:compete_daily`, with the `member_list` of the automatic assignment. -/
def Dynasty.competeDaily (config : Config) (dynasty : Dynasty υ) (preWeekDay : ℕ) (memberList : List υ) :
    Dynasty υ :=
  if dynasty.isApply then
    let closed := { dynasty with isOpen := false }
    if preWeekDay = config.applyDay then closed.autoSetBuildingDefend config memberList else closed
  else dynasty

/-- `DynastyCls:dynasty_compete_apply`. -/
def Dynasty.competeApply (config : Config) (dynasty : Dynasty υ) : Dynasty υ :=
  { dynasty with
    isApply := true
    buildingDict := some (Table.tabulate (fun _ => Table.empty)
      (List.range' 1 config.defendMemberCounts.length)) }

/-- `agree_apply_dynasty`, which refuses who has a dynasty, and `add_dynasty_member`. -/
def Dynasty.addDynastyMember (dynasty : Dynasty υ) (uuid : υ) (fightScore : ℤ) : Dynasty υ :=
  match dynasty.memberDict.get uuid with
  | some _ => dynasty
  | none => { dynasty with memberDict := dynasty.memberDict.set uuid (some ⟨none, fightScore⟩) }

/-- The loop of `delete_dynasty_member` over the buildings, which ends at the first one with the member. -/
def unlist (dict : Table ℕ (Table υ Unit)) (uuid : υ) : Table ℕ (Table υ Unit) :=
  match dict.keys.find? fun buildingId => isListed dict buildingId uuid with
  | none => dict
  | some buildingId => setListed dict buildingId uuid none

/-- `delete_dynasty_member`; nothing if the dynasty is dissolved. -/
def Dynasty.deleteDynastyMember (dynasty : Dynasty υ) (uuid : υ) : Option (Dynasty υ) :=
  if dynasty.memberDict.size ≤ 1 ∧ dynasty.isApply = true then some dynasty
  else match dynasty.memberDict.get uuid with
    | none => some dynasty
    | some _ =>
        if dynasty.memberDict.size ≤ 1 then none
        else some
          { dynasty with
            memberDict := dynasty.memberDict.set uuid none
            buildingDict := dynasty.buildingDict.map fun dict => unlist dict uuid }

/-- `update_dynasty_role_info` with a `fight_score`. -/
def Dynasty.updateFightScore (dynasty : Dynasty υ) (uuid : υ) (fightScore : ℤ) : Dynasty υ :=
  { dynasty with
    memberDict := dynasty.memberDict.set uuid
      ((dynasty.memberDict.get uuid).map fun member => { member with fightScore := fightScore }) }

inductive Event (υ : Type*) where
  | competeOpen (weekDay : ℕ) (builds : Bool)
  | competeDaily (preWeekDay : ℕ) (memberList : List υ)
  /-- A member registers the dynasty; the last two say whether the war of the day was opened and whether
  the level is enough. -/
  | competeApply (isManager : Bool) (weekDay : ℕ) (started levelReached : Bool)
  | buildingDefend (isManager : Bool) (uuid : υ) (buildingId : Option ℕ)
  | join (uuid : υ) (fightScore : ℤ)
  | leave (uuid : υ)
  | fightScore (uuid : υ) (score : ℤ)

/-- One step; nothing if the event cannot happen or the dynasty is dissolved. -/
def step (config : Config) (dynasty : Dynasty υ) : Event υ → Option (Dynasty υ)
  | .competeOpen weekDay builds => some (dynasty.competeOpen config weekDay builds)
  | .competeDaily preWeekDay memberList =>
      if IsMemberList dynasty memberList then some (dynasty.competeDaily config preWeekDay memberList)
      else none
  | .competeApply isManager weekDay started levelReached =>
      some (if isManager = true ∧ dynasty.isApply = false ∧ weekDay = config.applyDay ∧ started = true ∧
          config.applyMemberCount ≤ dynasty.memberDict.size ∧ levelReached = true then
        dynasty.competeApply config else dynasty)
  | .buildingDefend isManager uuid buildingId =>
      some (if Accepted config dynasty isManager uuid buildingId then dynasty.buildingDefend uuid buildingId
        else dynasty)
  | .join uuid fightScore => some (dynasty.addDynastyMember uuid fightScore)
  | .leave uuid => dynasty.deleteDynastyMember uuid
  | .fightScore uuid score => some (dynasty.updateFightScore uuid score)

/-- The two records agree, and no building has too many. -/
structure Good (config : Config) (dynasty : Dynasty υ) : Prop where
  /-- A member has a building exactly if it is listed there; only members are listed. -/
  assigned : ∀ uuid buildingId,
    isListed dynasty.buildings buildingId uuid = true ↔ dynasty.buildingOf uuid = some (some buildingId)
  within : ∀ buildingId, numListed dynasty.buildings buildingId ≤ config.defendMemberCount buildingId

/-- A member is without a building only if every building is full. -/
def Filled (config : Config) (dynasty : Dynasty υ) : Prop :=
  (∃ uuid, dynasty.buildingOf uuid = some none) →
    ∀ buildingId, config.defendMemberCount buildingId ≤ numListed dynasty.buildings buildingId

def Automatic (config : Config) (dynasty : Dynasty υ) : Event υ → Prop
  | .competeDaily preWeekDay _ => dynasty.isApply = true ∧ preWeekDay = config.applyDay
  | _ => False

/-- The members that the automatic assignment has left for a building when it comes to it, and no more than
the building has room for. -/
def share (config : Config) (dynasty : Dynasty υ) (buildingId : ℕ) : ℕ :=
  min (config.defendMemberCount buildingId)
    (dynasty.unassigned.length -
      ∑ later ∈ Finset.Ioc buildingId config.defendMemberCounts.length, config.defendMemberCount later)

/-- The condition on a step: who is assigned, there is room for. -/
def Fits (config : Config) (dynasty : Dynasty υ) : Event υ → Prop
  | .competeDaily preWeekDay _ => dynasty.isApply = true → preWeekDay = config.applyDay →
      ∀ buildingId ∈ Finset.Icc 1 config.defendMemberCounts.length,
        numListed dynasty.buildings buildingId + share config dynasty buildingId ≤
          config.defendMemberCount buildingId
  | .buildingDefend isManager uuid buildingId => Accepted config dynasty isManager uuid buildingId →
      ∀ target ∈ buildingId, numListed dynasty.buildings target < config.defendMemberCount target
  | _ => True

instance (config : Config) (dynasty : Dynasty υ) : (event : Event υ) → Decidable (Fits config dynasty event)
  | .competeOpen _ _ => isTrue trivial
  | .competeDaily _ _ => inferInstanceAs (Decidable (_ → _ → ∀ buildingId ∈ Finset.Icc 1 _, _ ≤ _))
  | .competeApply _ _ _ _ => isTrue trivial
  | .buildingDefend _ _ buildingId => inferInstanceAs (Decidable (_ → ∀ target ∈ buildingId, _ < _))
  | .join _ _ => isTrue trivial
  | .leave _ => isTrue trivial
  | .fightScore _ _ => isTrue trivial

end UEServer.DynastyDefend
