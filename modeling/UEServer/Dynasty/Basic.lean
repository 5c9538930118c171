import UEServer.OfflineDb.Manager

/-!
# Dynasties

`service/dynasty/dynasty_utils.lua` and `service/dynasty/dynasty.lua`, with the checks that
`service/agent/meta_table/dynasty.lua` makes before it calls them.  A dynasty knows its members,
how many they are and what their fight scores add up to; the service knows the dynasty of every
role; and an `OfflineObjMgr` keeps the rows.
-/

namespace UEServer.DynastyUtils

/-- `CSConst.DynastyJob`. -/
inductive Job where
  | godFather
  | secondChief
  | member
  deriving DecidableEq

namespace Job

def number : Job → Nat
  | godFather => 1
  | secondChief => 2
  | member => 3

/-- `is_manager` in `DynastyJobData`. -/
def isManager : Job → Bool
  | godFather | secondChief => true
  | member => false

/-- `max_num` in `DynastyJobData`. -/
def maxNum : Job → Option Nat
  | godFather => some 1
  | secondChief => some 2
  | member => none

end Job

/-- `DynastyData`: `max_num` and `exp` of each level, from level 1 on. -/
def dynastyData : List (Nat × Int) :=
  [(30, 0), (32, 500), (34, 50000), (36, 100000), (38, 300000), (40, 600000), (42, 900000),
    (44, 1500000), (46, 2000000), (48, 3000000)]

/-- `max_num` of a level. -/
def maxNum (level : Nat) : Nat :=
  (dynastyData[level - 1]?.map Prod.fst).getD 0

/-- `godfather_max_offline_time`, in seconds. -/
def maxOfflineTime : Nat := 7 * 86400

/-- `dynasty_compete_apply_member_count`. -/
def competeApplyMemberCount : Nat := 3

/-- `dynasty_compete_apply_level_limit`. -/
def competeApplyLevelLimit : Nat := 5

/-- `DynastyRoleInfo` of a member. -/
structure RoleInfo where
  job : Job
  fightScore : Int
  historyDedicate : Int
  /-- `offline_ts`; a member without it is online. -/
  offlineTs : Option Nat

structure Dynasty (υ : Type) where
  dynastyName : Option String
  dynastyLevel : Nat
  dynastyExp : Int
  dynastyScore : Int
  memberCount : Nat
  /-- `apply_dict`, with the fight scores: the other fields are assigned on joining. -/
  applyDict : Table υ Int
  memberDict : Table υ RoleInfo
  isApply : Bool

variable {ι υ : Type} [DecidableEq ι] [DecidableEq υ]

namespace Dynasty

omit [DecidableEq υ] in
/-- A new object has the defaults of the schema. -/
def fresh : Dynasty υ where
  dynastyName := none
  dynastyLevel := 1
  dynastyExp := 0
  dynastyScore := 0
  memberCount := 1
  applyDict := Table.empty
  memberDict := Table.empty
  isApply := false

def isGodfather (dynasty : Dynasty υ) (uuid : υ) : Bool :=
  match dynasty.memberDict.get uuid with
  | none => false
  | some info => info.job = .godFather

def isManager (dynasty : Dynasty υ) (uuid : υ) : Bool :=
  match dynasty.memberDict.get uuid with
  | none => false
  | some info => info.job.isManager

omit [DecidableEq υ] in
def isMemberFull (dynasty : Dynasty υ) : Bool :=
  maxNum dynasty.dynastyLevel ≤ dynasty.memberCount

/-- `get_godfather_info`, if `pairs` lists the members in the given order. -/
def getGodfatherInfo (dynasty : Dynasty υ) (order : List υ) : Option υ :=
  order.find? dynasty.isGodfather

omit [DecidableEq υ] in
def holders (dynasty : Dynasty υ) (job : Job) : Nat :=
  dynasty.memberDict.count fun info => info.job = job

def modifyMemberJob (dynasty : Dynasty υ) (uuid : υ) (job : Job) : Dynasty υ :=
  match dynasty.memberDict.get uuid with
  | none => dynasty
  | some info =>
      { dynasty with memberDict := dynasty.memberDict.set uuid (some { info with job }) }

/-- `set_next_godfather` may choose the member: nobody has dedicated more.  The order in which
`table.sort` puts those who have dedicated as much is not determined. -/
def mayFollow (dynasty : Dynasty υ) (next : υ) : Bool :=
  match dynasty.memberDict.get next with
  | none => false
  | some info => dynasty.memberDict.keys.all fun uuid =>
      match dynasty.memberDict.get uuid with
      | none => true
      | some other => decide (other.historyDedicate ≤ info.historyDedicate)

/-- `set_next_godfather`, if it chooses the member. -/
def setNextGodfather (dynasty : Dynasty υ) (next : υ) : Option (Dynasty υ) :=
  if dynasty.mayFollow next then some (dynasty.modifyMemberJob next .godFather) else none

/-- What `create_dynasty` makes of the object that `_mgr:get` returns. -/
def create (dynasty : Dynasty υ) (uuid : υ) (name : String) (fightScore : Int) : Dynasty υ :=
  { dynasty with
    dynastyName := some name
    memberDict := Table.empty.set uuid
      (some { job := .godFather, fightScore, historyDedicate := 0, offlineTs := none })
    dynastyScore := fightScore }

def addDynastyMember (dynasty : Dynasty υ) (uuid : υ) (fightScore : Int) (now : Nat) :
    Dynasty υ :=
  { dynasty with
    applyDict := dynasty.applyDict.set uuid none
    memberDict := dynasty.memberDict.set uuid
      (some { job := .member, fightScore, historyDedicate := 0, offlineTs := some now })
    memberCount := dynasty.memberCount + 1
    dynastyScore := dynasty.dynastyScore + fightScore }

/-- The part of `delete_dynasty_member` that removes a member of several. -/
def removeMember (dynasty : Dynasty υ) (uuid : υ) (info : RoleInfo) : Dynasty υ :=
  { dynasty with
    memberDict := dynasty.memberDict.set uuid none
    memberCount := dynasty.memberCount - 1
    dynastyScore := dynasty.dynastyScore - info.fightScore }

/-- `update_dynasty_role_info`, for the fields `dedicate` and `fight_score`. -/
def updateRoleInfo (dynasty : Dynasty υ) (uuid : υ) (info : RoleInfo)
    (dedicate fightScore : Option Int) : Dynasty υ :=
  { dynasty with
    memberDict := dynasty.memberDict.set uuid
      (some { info with
        historyDedicate :=
          match dedicate with
          | none => info.historyDedicate
          | some value => info.historyDedicate + value
        fightScore :=
          match fightScore with
          | none => info.fightScore
          | some value => value })
    dynastyScore :=
      match fightScore with
      | none => dynasty.dynastyScore
      | some value => dynasty.dynastyScore - info.fightScore + value }

/-- `check_lvlup`: the level that is reached. -/
def checkLvlup (exp : Int) (level : Nat) : Nat :=
  match found : dynastyData[level]? with
  | none => level
  | some data => if exp < data.2 then level else checkLvlup exp (level + 1)
termination_by dynastyData.length - level
decreasing_by
  have inside := (List.getElem?_eq_some_iff.mp found).1
  omega

omit [DecidableEq υ] in
def addDynastyExp (dynasty : Dynasty υ) (exp : Int) : Dynasty υ :=
  { dynasty with
    dynastyExp := dynasty.dynastyExp + exp
    dynastyLevel := checkLvlup (dynasty.dynastyExp + exp) dynasty.dynastyLevel }

/-- The godfather that `get_godfather_info` finds has been offline for `maxOfflineTime`. -/
def isGodfatherAbsent (dynasty : Dynasty υ) (godfather : υ) (now : Nat) : Bool :=
  match dynasty.memberDict.get godfather with
  | none => false
  | some info =>
      match info.offlineTs with
      | none => false
      | some offlineTs => offlineTs + maxOfflineTime ≤ now

end Dynasty

structure State (ι υ : Type) where
  dynastyDict : Table ι (Dynasty υ)
  dynastyList : List ι
  roleDynastyDict : υ → Option ι
  /-- `dynasty_dict` of each rank of `dynasty_rank`, with the rank scores. -/
  rankDict : String → ι → Option Int
  /-- `_mgr`; the columns of a dynasty are taken as one. -/
  mgr : OfflineDb.Mgr ι Unit (Dynasty υ)
  rows : ι → Option (OfflineDb.Row Unit (Dynasty υ))
  /-- The ids that `create_dynasty` has been called with. -/
  created : List ι
  /-- `date.time_second()`. -/
  now : Nat

namespace State

omit [DecidableEq ι] [DecidableEq υ] in
def obj (dynasty : Dynasty υ) : OfflineDb.Obj Unit (Dynasty υ) :=
  ⟨fun _ => some dynasty, fun _ => false⟩

section
omit [DecidableEq υ]

def saveDynasty (state : State ι υ) (id : ι) (dynasty : Dynasty υ) : State ι υ :=
  { state with mgr := state.mgr.set id (obj dynasty) state.now }

def change (state : State ι υ) (id : ι) (dynasty : Dynasty υ) : State ι υ :=
  { state with dynastyDict := state.dynastyDict.set id (some dynasty) }.saveDynasty id dynasty

/-- `dynasty:get_dynasty_cls` for a role. -/
def getDynastyCls (state : State ι υ) (uuid : υ) : Option (ι × Dynasty υ) :=
  match state.roleDynastyDict uuid with
  | none => none
  | some id => (state.dynastyDict.get id).map (Prod.mk id)

end

/-- `role_dynasty_dict[uuid] = id`. -/
def setRole (state : State ι υ) (uuid : υ) (id : Option ι) : State ι υ :=
  { state with roleDynastyDict := Function.update state.roleDynastyDict uuid id }

def deleteRoleApply (state : State ι υ) (id : ι) (uuid : υ) : State ι υ :=
  match state.dynastyDict.get id with
  | none => state
  | some dynasty =>
      match dynasty.applyDict.get uuid with
      | none => state
      | some _ => state.change id { dynasty with applyDict := dynasty.applyDict.set uuid none }

omit [DecidableEq υ] in
/-- The end of `dissolve_dynasty`. -/
def remove (state : State ι υ) (id : ι) : State ι υ :=
  { state with
    dynastyList := state.dynastyList.erase id
    dynastyDict := state.dynastyDict.set id none
    mgr := state.mgr.delete id state.now
    rankDict := fun rank => Function.update (state.rankDict rank) id none }

def dissolveDynasty (state : State ι υ) (id : ι) (dynasty : Dynasty υ) : State ι υ :=
  (dynasty.applyDict.keys.foldl (fun state uuid => state.deleteRoleApply id uuid) state).remove id

/-- `delete_dynasty_member`; the godfather is followed by `next`. -/
def deleteDynastyMember (state : State ι υ) (id : ι) (dynasty : Dynasty υ) (uuid next : υ) :
    Option (State ι υ) :=
  if dynasty.memberCount ≤ 1 ∧ dynasty.isApply then some state
  else
    match dynasty.memberDict.get uuid with
    | none => some (state.setRole uuid none)
    | some info =>
        if dynasty.memberCount ≤ 1 then
          some ((state.setRole uuid none).dissolveDynasty id dynasty)
        else if info.job = .godFather then
          ((dynasty.removeMember uuid info).setNextGodfather next).map
            ((state.setRole uuid none).change id)
        else some ((state.setRole uuid none).change id (dynasty.removeMember uuid info))

omit [DecidableEq ι] [DecidableEq υ] in
/-- The object that `_mgr:get` makes if there is no row. -/
def newObj (_ : ι) : OfflineDb.Obj Unit (Dynasty υ) :=
  obj Dynasty.fresh

omit [DecidableEq υ] in
/-- `_mgr:get`. -/
def getDynasty (state : State ι υ) (id : ι) : State ι υ × Dynasty υ :=
  match state.mgr.dbLru.get id with
  | some found => (state, (found.con ()).getD Dynasty.fresh)
  | none =>
      ({ state with mgr := state.mgr.loaded newObj id (state.rows id) state.now },
        ((OfflineDb.Mgr.loadedObj newObj id (state.rows id)).con ()).getD Dynasty.fresh)

/-- `DynastyCls.new` and `member_login` of its only member. -/
def newDynastyCls (state : State ι υ) (id : ι) (uuid : υ) (dynasty : Dynasty υ) : State ι υ :=
  { state.setRole uuid (some id) with
    dynastyList := state.dynastyList ++ [id] }.change id dynasty

omit [DecidableEq υ] in
def checkDynastyName (state : State ι υ) (name : String) : Bool :=
  state.dynastyDict.keys.any fun id =>
    match state.dynastyDict.get id with
    | none => false
    | some dynasty => dynasty.dynastyName = some name

/-- `create_dynasty`; `applied` are the dynasties to which the role has applied. -/
def createDynasty (state : State ι υ) (uuid : υ) (id : ι) (name : String) (applied : List ι)
    (fightScore : Int) : State ι υ :=
  if (state.roleDynastyDict uuid).isSome then state
  else if state.checkDynastyName name then state
  else
    let unapplied := applied.foldl (fun state other => state.deleteRoleApply other uuid)
      (state.setRole uuid (some id))
    let (loaded, dynasty) := unapplied.getDynasty id
    loaded.newDynastyCls id uuid (dynasty.create uuid name fightScore)

def applyDynasty (state : State ι υ) (uuid : υ) (id : ι) (fightScore : Int) : State ι υ :=
  match state.dynastyDict.get id with
  | none => state
  | some dynasty =>
      state.change id { dynasty with applyDict := dynasty.applyDict.set uuid (some fightScore) }

def agreeApplyDynasty (state : State ι υ) (uuid member : υ) : State ι υ :=
  match state.getDynastyCls uuid with
  | none => state
  | some (id, dynasty) =>
      if (state.roleDynastyDict member).isSome then state.deleteRoleApply id member
      else if dynasty.isManager uuid = false then state
      else if dynasty.isMemberFull then state
      else
        match dynasty.applyDict.get member with
        | none => state
        | some fightScore =>
            (state.setRole member (some id)).change id
              (dynasty.addDynastyMember member fightScore state.now)

/-- `refuse_apply_dynasty`, for one role or for all that have applied. -/
def refuseApplyDynasty (state : State ι υ) (uuid : υ) (member : Option υ) : State ι υ :=
  match state.getDynastyCls uuid with
  | none => state
  | some (id, dynasty) =>
      if dynasty.isManager uuid = false then state
      else
        match member with
        | some member => state.deleteRoleApply id member
        | none =>
            dynasty.applyDict.keys.foldl (fun state uuid => state.deleteRoleApply id uuid) state

/-- `member_login` and `member_logout`: `offline_ts` is assigned. -/
def setOfflineTs (state : State ι υ) (uuid : υ) (offlineTs : Option Nat) : State ι υ :=
  match state.getDynastyCls uuid with
  | none => state
  | some (id, dynasty) =>
      match dynasty.memberDict.get uuid with
      | none => state
      | some info =>
          state.change id
            { dynasty with
              memberDict := dynasty.memberDict.set uuid (some { info with offlineTs }) }

def updateDynastyRoleInfo (state : State ι υ) (uuid : υ) (dedicate fightScore : Option Int) :
    State ι υ :=
  match state.getDynastyCls uuid with
  | none => state
  | some (id, dynasty) =>
      match dynasty.memberDict.get uuid with
      | none => state
      | some info => state.change id (dynasty.updateRoleInfo uuid info dedicate fightScore)

/-- `join_dynasty`.  The applications are not found, since no role is given. -/
def joinDynasty (state : State ι υ) (uuid : υ) (fightScore : Int) : State ι υ :=
  (state.setOfflineTs uuid none).updateDynastyRoleInfo uuid none (some fightScore)

def quitDynasty (state : State ι υ) (uuid next : υ) : Option (State ι υ) :=
  match state.getDynastyCls uuid with
  | none => some state
  | some (id, dynasty) => state.deleteDynastyMember id dynasty uuid next

def kickOutDynasty (state : State ι υ) (uuid member next : υ) : Option (State ι υ) :=
  match state.getDynastyCls uuid with
  | none => some state
  | some (id, dynasty) =>
      match dynasty.memberDict.get uuid, dynasty.memberDict.get member with
      | some own, some info =>
          if own.job.isManager = false ∨ info.job.number ≤ own.job.number then some state
          else state.deleteDynastyMember id dynasty member next
      | _, _ => some state

/-- `appoint_dynasty_member`, for another member. -/
def appointDynastyMember (state : State ι υ) (uuid member : υ) (job : Job) : State ι υ :=
  if uuid = member then state
  else
    match state.getDynastyCls uuid with
    | none => state
    | some (id, dynasty) =>
        match dynasty.memberDict.get member with
        | none => state
        | some info =>
            if info.job = job then state
            else if dynasty.isGodfather uuid = false then state
            else
              match job with
              | .godFather =>
                  if info.job ≠ .secondChief then state
                  else
                    let promoted := dynasty.modifyMemberJob member .godFather
                    (state.change id promoted).change id (promoted.modifyMemberJob uuid .member)
              | .secondChief =>
                  if Job.secondChief.maxNum.any (· ≤ dynasty.holders .secondChief) then state
                  else state.change id (dynasty.modifyMemberJob member .secondChief)
              | .member => state.change id (dynasty.modifyMemberJob member .member)

def dissolveOwnDynasty (state : State ι υ) (uuid : υ) : State ι υ :=
  match state.getDynastyCls uuid with
  | none => state
  | some (id, dynasty) =>
      if 1 < dynasty.memberCount then state
      else (state.setRole uuid none).dissolveDynasty id dynasty

/-- `check_dynasty_godfather`, with the dynasty after it; the godfather is followed by `next`. -/
def checkDynastyGodfather (state : State ι υ) (id : ι) (dynasty : Dynasty υ)
    (godfather next : υ) : Option (State ι υ × Dynasty υ) :=
  if dynasty.isGodfatherAbsent godfather state.now then
    if dynasty.memberCount ≤ 1 then
      if dynasty.isApply then some (state, dynasty)
      else some (state.dissolveDynasty id dynasty, { dynasty with applyDict := Table.empty })
    else
      (dynasty.setNextGodfather next).map fun followed => (state.change id followed, followed)
  else some (state, dynasty)

/-- `daily_refresh`, if `pairs` lists the members in the given order.  It raises if there is no
godfather. -/
def dailyRefresh (state : State ι υ) (id : ι) (order : List υ) (next : υ) : Option (State ι υ) :=
  match state.dynastyDict.get id with
  | none => none
  | some dynasty =>
      if order.Perm dynasty.memberDict.keys then
        match dynasty.getGodfatherInfo order with
        | none => none
        | some godfather =>
            (state.checkDynastyGodfather id dynasty godfather next).map fun checked =>
              checked.1.saveDynasty id checked.2
      else none

/-- `dynasty_compete_apply`, at the time for it. -/
def dynastyCompeteApply (state : State ι υ) (uuid : υ) : State ι υ :=
  match state.getDynastyCls uuid with
  | none => state
  | some (id, dynasty) =>
      if dynasty.isManager uuid = false ∨ dynasty.isApply ∨
          dynasty.memberCount < competeApplyMemberCount ∨
          dynasty.dynastyLevel < competeApplyLevelLimit then state
      else state.change id { dynasty with isApply := true }

omit [DecidableEq υ] in
/-- An operation on a dynasty, if it is there. -/
def onDynasty (state : State ι υ) (id : ι) (operate : Dynasty υ → Dynasty υ) : State ι υ :=
  match state.dynastyDict.get id with
  | none => state
  | some dynasty => state.change id (operate dynasty)

omit [DecidableEq υ] in
/-- `__check_save` of the manager. -/
def checkSave (state : State ι υ) (id : ι) : State ι υ :=
  match state.mgr.saveLru.get id with
  | none => state
  | some op =>
      { state with
        mgr := { state.mgr with saveLru := state.mgr.saveLru.erase id }
        rows := Function.update state.rows id
          (OfflineDb.write op (state.mgr.dbLru.get id) (state.rows id)) }

end State

inductive Label (ι υ : Type) where
  | create (uuid : υ) (id : ι) (name : String) (applied : List ι) (fightScore : Int)
  | apply (uuid : υ) (id : ι) (fightScore : Int)
  | cancelApply (uuid : υ) (id : ι)
  | agree (uuid member : υ)
  | refuse (uuid : υ) (member : Option υ)
  | join (uuid : υ) (fightScore : Int)
  | login (uuid : υ)
  | logout (uuid : υ)
  | quit (uuid next : υ)
  | kick (uuid member next : υ)
  | appoint (uuid member : υ) (job : Job)
  | dissolve (uuid : υ)
  | dailyRefresh (id : ι) (order : List υ) (next : υ)
  | updateRoleInfo (uuid : υ) (dedicate fightScore : Option Int)
  | modifyName (id : ι) (name : String)
  | addExp (id : ι) (exp : Int)
  | spendExp (id : ι) (exp : Int)
  | competeApply (uuid : υ)
  /-- `compete_open` on the day of the applications. -/
  | competeOpen (id : ι)
  /-- `update_dynasty_rank`; the last of a full rank is dropped. -/
  | updateRank (id : ι) (rank : String) (score : Int) (dropped : Option ι)
  | save (id : ι)
  | tick (seconds : Nat)

/-- The service after an operation, if it is possible. -/
def step (state : State ι υ) : Label ι υ → Option (State ι υ)
  | .create uuid id name applied fightScore =>
      -- `build_dynasty_id` never returns an id twice
      if id ∈ state.created then none
      else
        some { state.createDynasty uuid id name applied fightScore with
          created := id :: state.created }
  | .apply uuid id fightScore => some (state.applyDynasty uuid id fightScore)
  | .cancelApply uuid id => some (state.deleteRoleApply id uuid)
  | .agree uuid member => some (state.agreeApplyDynasty uuid member)
  | .refuse uuid member => some (state.refuseApplyDynasty uuid member)
  | .join uuid fightScore => some (state.joinDynasty uuid fightScore)
  | .login uuid => some (state.setOfflineTs uuid none)
  | .logout uuid => some (state.setOfflineTs uuid (some state.now))
  | .quit uuid next => state.quitDynasty uuid next
  | .kick uuid member next => state.kickOutDynasty uuid member next
  | .appoint uuid member job => some (state.appointDynastyMember uuid member job)
  | .dissolve uuid => some (state.dissolveOwnDynasty uuid)
  | .dailyRefresh id order next => state.dailyRefresh id order next
  | .updateRoleInfo uuid dedicate fightScore =>
      some (state.updateDynastyRoleInfo uuid dedicate fightScore)
  | .modifyName id name =>
      if state.checkDynastyName name then some state
      else some (state.onDynasty id fun dynasty => { dynasty with dynastyName := some name })
  | .addExp id exp => some (state.onDynasty id (·.addDynastyExp exp))
  | .spendExp id exp =>
      some (state.onDynasty id fun dynasty =>
        { dynasty with dynastyExp := dynasty.dynastyExp - exp })
  | .competeApply uuid => some (state.dynastyCompeteApply uuid)
  | .competeOpen id => some (state.onDynasty id fun dynasty => { dynasty with isApply := false })
  | .updateRank id rank score dropped =>
      match state.dynastyDict.get id with
      | none => none
      | some _ =>
          let kept := match dropped with
            | none => state.rankDict rank
            | some last => Function.update (state.rankDict rank) last none
          some { state with
            rankDict := Function.update state.rankDict rank
              (Function.update kept id (some score)) }
  | .save id => some (state.checkSave id)
  | .tick seconds => some { state with now := state.now + seconds }

def initial : State ι υ where
  dynastyDict := Table.empty
  dynastyList := []
  roleDynastyDict _ := none
  rankDict _ _ := none
  mgr := { dbLru := Lru.empty, saveLru := Lru.empty, maxSize := none, duration := none }
  rows _ := none
  created := []
  now := 0

end UEServer.DynastyUtils
