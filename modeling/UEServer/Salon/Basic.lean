import Mathlib
import UEServer.Library.Draw
import UEServer.Library.Table
import UEServer.Library.TableSort

/-!
# The salon contest

`service/salon/salon_utils.lua`.  The roles that have joined are drawn into groups, which robots fill up; a
group is ranked by each of four attributes, and every rank but that of the last round has a fixed score.
The attributes are numbers of any kind.
-/

namespace UEServer.Salon

structure AttrDict (ν : Type*) where
  etiquette : ν
  culture : ν
  charm : ν
  planning : ν
  deriving DecidableEq

structure Lover (ν : Type*) where
  loverId : ℕ
  grade : ℕ
  level : ℕ
  attrDict : AttrDict ν
  deriving DecidableEq

/-- What a role joins with, and what a robot has. -/
structure RoleInfo (ν : Type*) where
  uuid : String
  name : String
  level : ℕ
  lover : Lover ν
  /-- `attr_point_dict`, 0 where there is nothing; there is nothing for `planning`. -/
  attrPointDict : AttrDict ν
  deriving DecidableEq

/-- A role that joins; the ids of roles are longer than those of robots. -/
structure Registered (ν : Type*) extends RoleInfo ν where
  long : 1 < uuid.length

/-- What `get_robot` draws. -/
structure Robot (ν : Type*) where
  name : String
  level : ℕ
  lover : Lover ν
  attrPointDict : AttrDict ν

/-- A member of a group, in `pvp_run`. -/
structure Player (ν : Type*) where
  info : RoleInfo ν
  /-- The `rank` and the `score` of each round. -/
  round : List (ℕ × ℤ)
  totalScore : Option ℤ
  deriving DecidableEq

/-- `pvp_record`. -/
structure Record where
  pvpId : ℕ
  /-- `role_dict`: the `index` of each member. -/
  roleDict : Table String ℕ
  /-- `round`: each `rank_list`, with the `uuid` and the `score`. -/
  round : List (List (String × ℤ))
  totalRank : List (String × ℤ)

structure SalonCls (ν : Type*) where
  roleList : List (RoleInfo ν)
  roleDict : Table String (RoleInfo ν)

variable {ν : Type*}

def SalonCls.new : SalonCls ν := ⟨[], Table.empty⟩

def SalonCls.addRole (salon : SalonCls ν) (roleInfo : Registered ν) : SalonCls ν :=
  match salon.roleDict.get roleInfo.uuid with
  | some _ => salon
  | none =>
      { roleList := salon.roleList ++ [roleInfo.toRoleInfo]
        roleDict := salon.roleDict.set roleInfo.uuid (some roleInfo.toRoleInfo) }

section
variable [LinearOrder ν]

/-- `CSConst.Salon.PvPAttrListCmp`: the attribute, and whether the order descends. -/
def pvpAttrListCmp : List ((AttrDict ν → ν) × Bool) :=
  [(AttrDict.etiquette, true), (AttrDict.culture, true), (AttrDict.charm, true), (AttrDict.planning, true)]

def pvpLoverInfoCmp : List ((Lover ν → ℕ) × Bool) :=
  [(Lover.grade, true), (Lover.level, true)]

def pvpScore : List ℤ := [10, 8, 6, 5, 4, 3, 2, 1, 0]

omit [LinearOrder ν] in
/-- The loop of the comparison over the fields of the lovers. -/
def cmpLover (a b : Lover ν) : List ((Lover ν → ℕ) × Bool) → Option Bool
  | [] => none
  | (field, descending) :: rest =>
      if field a ≠ field b then some (decide (field b < field a) == descending) else cmpLover a b rest

/-- `cmp` of a round. -/
def cmp (attr : (AttrDict ν → ν) × Bool) (a b : Player ν) : Bool :=
  if attr.1 a.info.lover.attrDict = attr.1 b.info.lover.attrDict then
    (cmpLover a.info.lover b.info.lover pvpLoverInfoCmp).getD (b.info.level < a.info.level)
  else decide (attr.1 b.info.lover.attrDict < attr.1 a.info.lover.attrDict) == attr.2

section
omit [LinearOrder ν]

/-- `total_score` as a number. -/
def Player.total (player : Player ν) : ℤ := player.totalScore.getD 0

def Player.scored (player : Player ν) (index : ℕ) (score : ℤ) : Player ν :=
  { player with
    round := player.round ++ [(index, score)]
    totalScore := some (player.total + score) }

/-- The loop over the members of a round from the last one to the first one, whose index is given; also
`add_score`. -/
def scoreLoop (isLast : Bool) : ℕ → List (Player ν) → List (Player ν × ℤ) × ℤ
  | _, [] => ([], 0)
  | index, player :: rest =>
      let (ranked, addScore) := scoreLoop isLast (index + 1) rest
      if isLast then
        if 1 < index then
          if player.totalScore ≠ some 0 then ((player.scored index (-1), -1) :: ranked, addScore + 1)
          else ((player.scored index 0, 0) :: ranked, addScore)
        else ((player.scored index addScore, addScore) :: ranked, addScore)
      else
        let score := (pvpScore[index - 1]?).getD 0
        ((player.scored index score, score) :: ranked, addScore)

end

/-- One round: the members in their order, and the `rank_list`. -/
def playRound (table : TableSort (Player ν)) (pvpTerm : List (Player ν)) (isLast : Bool)
    (attr : (AttrDict ν → ν) × Bool) : List (Player ν) × List (String × ℤ) :=
  let ranked := (scoreLoop isLast 1 (table.sort (cmp attr) pvpTerm)).1
  (ranked.map Prod.fst, ranked.map fun (player, score) => (player.info.uuid, score))

/-- The loop over the rounds, of which the last one of the list is the last round. -/
def playRounds (table : TableSort (Player ν)) :
    List ((AttrDict ν → ν) × Bool) → List (Player ν) → List (Player ν) × List (List (String × ℤ))
  | [], pvpTerm => (pvpTerm, [])
  | attr :: rest, pvpTerm =>
      let (played, rankList) := playRound table pvpTerm rest.isEmpty attr
      let (final, others) := playRounds table rest played
      (final, rankList :: others)

omit [LinearOrder ν] in
/-- `cmp` of the total scores. -/
def cmpTotal (a b : Player ν) : Bool := decide (b.total < a.total)

def pvpRun (table : TableSort (Player ν)) (pvpId : ℕ) (pvpTerm : List (Player ν))
    (roleDict : Table String ℕ) : Record :=
  let (final, round) := playRounds table pvpAttrListCmp pvpTerm
  { pvpId, roleDict, round
    totalRank := (table.sort cmpTotal final).map fun player => (player.info.uuid, player.total) }

end

section
variable [Add ν] [Mul ν]

/-- `get_robot`, with what it draws. -/
def getRobot (index : ℕ) (robot : Robot ν) : RoleInfo ν where
  uuid := toString index
  name := robot.name
  level := robot.level
  lover := robot.lover
  attrPointDict := robot.attrPointDict

/-- The attributes with the points that a role spends on them. -/
def boost (ratio : ν) (info : RoleInfo ν) : RoleInfo ν :=
  { info with
    lover := { info.lover with
      attrDict :=
        { etiquette := info.lover.attrDict.etiquette +
            info.lover.attrDict.etiquette * ratio * info.attrPointDict.etiquette
          culture := info.lover.attrDict.culture +
            info.lover.attrDict.culture * ratio * info.attrPointDict.culture
          charm := info.lover.attrDict.charm +
            info.lover.attrDict.charm * ratio * info.attrPointDict.charm
          planning := info.lover.attrDict.planning } } }

/-- Where the loops of `pvp_start` stand. -/
structure Filling (ν : Type*) where
  salon : SalonCls ν
  /-- What `math.random` gives for the roles to come. -/
  draws : List ℕ
  robots : List (Robot ν)
  pvpTerm : List (Player ν)
  roleDict : Table String ℕ

omit [Add ν] [Mul ν] in
/-- The next role, or a robot if there is none. -/
def nextInfo (filling : Filling ν) (index : ℕ) : Option (RoleInfo ν × Filling ν) :=
  match filling.salon.roleList with
  | [] =>
      match filling.robots with
      | [] => none
      | robot :: robots =>
          let info := getRobot index robot
          some (info, { filling with
            salon := { filling.salon with roleDict := filling.salon.roleDict.set info.uuid (some info) }
            robots := robots })
  | roleList =>
      match filling.draws with
      | [] => none
      | randIndex :: draws =>
          (Draw.draw roleList randIndex).map fun (info, rest) =>
            (info, { filling with salon := { filling.salon with roleList := rest }, draws := draws })

/-- The body of the inner loop; it raises if `role_dict` does not have the member. -/
def takeMember (ratio : ν) (filling : Filling ν) (index : ℕ) : Option (Filling ν) :=
  (nextInfo filling index).bind fun (info, next) =>
    (next.salon.roleDict.get info.uuid).map fun _ =>
      { next with
        pvpTerm := next.pvpTerm ++ [⟨boost ratio info, [], none⟩]
        roleDict := next.roleDict.set info.uuid (some index) }

def fillTerm (ratio : ν) : List ℕ → Filling ν → Option (Filling ν)
  | [], filling => some filling
  | index :: rest, filling => (takeMember ratio filling index).bind (fillTerm ratio rest)

variable [LinearOrder ν]

/-- The outer loop, over the groups to come. -/
def termLoop (table : TableSort (Player ν)) (ratio : ν) (playersNum : ℕ) :
    List ℕ → Filling ν → Option (List Record × Filling ν)
  | [], filling => some ([], filling)
  | pvpId :: rest, filling =>
      (fillTerm ratio (List.range' 1 playersNum)
          { filling with pvpTerm := [], roleDict := Table.empty }).bind fun filled =>
        (termLoop table ratio playersNum rest filled).map fun (records, final) =>
          (pvpRun table pvpId filled.pvpTerm filled.roleDict :: records, final)

omit [Add ν] [Mul ν] [LinearOrder ν] in
def termMaxCount (count playersNum : ℕ) : ℕ := (count + playersNum - 1) / playersNum

/-- `pvp_start`, with what `math.random` gives and the robots. -/
def pvpStart (table : TableSort (Player ν)) (ratio : ν) (playersNum : ℕ) (salon : SalonCls ν)
    (draws : List ℕ) (robots : List (Robot ν)) : Option (List Record × Filling ν) :=
  termLoop table ratio playersNum (List.range' 1 (termMaxCount salon.roleList.length playersNum))
    ⟨salon, draws, robots, [], Table.empty⟩

end

/-- `pvp_info`, with its recipient. -/
structure PvpInfo where
  uuid : String
  pvpId : ℕ
  rank : ℕ
  deriving DecidableEq

/-- The messages of `pvp_end`. -/
def pvpEnd (record : Record) : List PvpInfo :=
  (record.totalRank.zipIdx 1).filterMap fun ((uuid, _), rank) =>
    if 1 < uuid.length then some ⟨uuid, record.pvpId, rank⟩ else none

/-- The score of a member in a `rank_list`. -/
def scoreOf (rankList : List (String × ℤ)) (uuid : String) : ℤ :=
  ((rankList.find? fun entry => entry.1 = uuid).map Prod.snd).getD 0

/-- The total score of a member after some rounds. -/
def Record.total (record : Record) (rounds : ℕ) (uuid : String) : ℤ :=
  ((record.round.take rounds).map fun rankList => scoreOf rankList uuid).sum

/-- The last round moves one point from each member with a positive score to its winner. -/
def Record.LastRound (record : Record) : Prop :=
  ∃ winner addScore rest, record.round[3]? = some ((winner, addScore) :: rest) ∧
    addScore = ((rest.filter fun entry => 0 < record.total 3 entry.1).length : ℤ) ∧
    ∀ entry ∈ rest, entry.2 = if 0 < record.total 3 entry.1 then -1 else 0

structure RightRecord (playersNum : ℕ) (record : Record) : Prop where
  size : record.roleDict.size = playersNum
  rounds : record.round.length = 4
  ranksAll : ∀ rankList ∈ record.round, (rankList.map Prod.fst).Perm record.roleDict.keys
  nonneg : ∀ rounds, ∀ uuid ∈ record.roleDict.keys, 0 ≤ record.total rounds uuid
  lastRound : record.LastRound
  lastSum : (record.roleDict.keys.map (record.total 4)).sum = (record.roleDict.keys.map (record.total 3)).sum
  totalAll : (record.totalRank.map Prod.fst).Perm record.roleDict.keys
  totalScores : ∀ entry ∈ record.totalRank, entry.2 = record.total 4 entry.1
  totalSorted : record.totalRank.Pairwise fun first second => second.2 ≤ first.2

end UEServer.Salon
