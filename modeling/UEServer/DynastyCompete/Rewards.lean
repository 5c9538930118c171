import UEServer.DynastyCompete.Groups

/-!
# The rewards of a dynasty war

When the war closes, `dynasty_compete.lua` sends a mail to each dynasty and each role that has a rank within
a range of `CompeteRankData`, and then clears the ranking.
-/

namespace UEServer.CrossCompete

open Execution

structure Reward where
  itemId : ℕ
  count : ℕ
  deriving DecidableEq

/-- A row of `CompeteRankData`. -/
structure RankData where
  rankRange : ℕ × ℕ
  dynastyRewardList : List Reward
  roleRewardList : List Reward

def RankData.Has (data : RankData) (rank : ℕ) : Prop :=
  data.rankRange.1 ≤ rank ∧ rank ≤ data.rankRange.2

instance (data : RankData) (rank : ℕ) : Decidable (data.Has rank) :=
  inferInstanceAs (Decidable (_ ∧ _))

/-- `CompeteRankData`, with ascending ranges. -/
structure CompeteRankData where
  rows : List RankData
  ascending : rows.Pairwise fun first second => first.rankRange.2 < second.rankRange.1

/-- A ranking, in which nobody is twice. -/
structure RankList (ε : Type*) {κ : Type*} (key : ε → κ) where
  list : List ε
  once : (list.map key).Nodup

/-- `role_data` of a ranking of roles. -/
structure RoleData (ρ : Type*) where
  uuid : ρ
  roleRewardList : Option (List Reward)

inductive MailArgs where
  | number (rank : ℕ)
  | table (rank : ℕ)
  deriving DecidableEq

/-- `args.rank`, as `string.render` reads it for the text of a mail; a number has no fields. -/
def MailArgs.rank : MailArgs → Option ℕ
  | .number _ => none
  | .table rank => some rank

inductive Sent (κ : Type*) where
  | mail (recipient : κ) (mailId : ℕ) (mailArgs : MailArgs) (itemList : Option (List Reward))
  | clear (rankName : String)

def Sent.recipient {κ : Type*} : Sent κ → Option κ
  | .mail recipient _ _ _ => some recipient
  | .clear _ => none

section
variable {ε κ δ ρ : Type*}

/-- `list[rank]`. -/
def entry (list : List ε) (rank : ℕ) : Option ε :=
  if rank = 0 then none else list[rank - 1]?

/-- The entries within a range, row by row, with their ranks. -/
def ranked (rows : List RankData) (list : List ε) : List (RankData × ℕ × ε) :=
  rows.flatMap fun data =>
    (List.range' data.rankRange.1 (data.rankRange.2 + 1 - data.rankRange.1)).filterMap fun rank =>
      (entry list rank).map fun info => (data, rank, info)

/-- The loops of the two functions, on what the ranking answers. -/
def giveRankReward (rows : List RankData) (answer : Option (List ε))
    (mail : RankData → ℕ → ε → Sent κ) (rankName : String) : List (Sent κ) :=
  match answer with
  | none => []
  | some [] => []
  | some (first :: rest) =>
      ((ranked rows (first :: rest)).map fun (data, rank, info) => mail data rank info) ++ [.clear rankName]

def competeDynasty : ℕ := 7

def competeRole : ℕ := 8

def giveDynastyRankReward (rows : List RankData) (dynastyList : Option (List δ)) : List (Sent δ) :=
  giveRankReward rows dynastyList
    (fun data rank dynastyId =>
      .mail dynastyId competeDynasty (.number rank) (some data.dynastyRewardList))
    "compete_mark_dynasty_rank"

def giveRoleRankReward (rows : List RankData) (roleList : Option (List (RoleData ρ))) : List (Sent ρ) :=
  giveRankReward rows roleList
    (fun _ rank roleData => .mail roleData.uuid competeRole (.table rank) roleData.roleRewardList)
    "compete_mark_role_rank"

/-- `dynasty_compete_close`; the messages about the two rankings. -/
def dynastyCompeteClose (isClose : Bool) (rows : List RankData) (dynastyList : Option (List δ))
    (roleList : Option (List (RoleData ρ))) : List (Sent δ) × List (Sent ρ) :=
  if isClose then ([], []) else (giveDynastyRankReward rows dynastyList, giveRoleRankReward rows roleList)

/-- One mail gives a reward to somebody, and it has the rank and the rewards; the ranking is cleared later. -/
def RewardedOnce (sent : List (Sent κ)) (recipient : κ) (rank : ℕ) (rewardList : List Reward) : Prop :=
  ∃ front mailId mailArgs back, sent = front ++ .mail recipient mailId mailArgs (some rewardList) :: back ∧
    mailArgs.rank = some rank ∧ (∀ other ∈ front ++ back, other.recipient ≠ some recipient) ∧
    (∀ other ∈ front, other.recipient ≠ none) ∧ ∃ rankName, Sent.clear rankName ∈ back

/-- Everybody whose rank is within a range is rewarded once, as the row of the range says. -/
def Settled (rows : List RankData) (list : List ε) (key : ε → κ) (rewardList : RankData → List Reward)
    (sent : List (Sent κ)) : Prop :=
  ∀ data ∈ rows, ∀ rank, data.Has rank → ∀ info ∈ entry list rank,
    RewardedOnce sent (key info) rank (rewardList data)

variable {data : RankData}

theorem mem_ranked {rows : List RankData} {list : List ε} {rank : ℕ} {info : ε} :
    (data, rank, info) ∈ ranked rows list ↔ data ∈ rows ∧ data.Has rank ∧ entry list rank = some info := by
  rw [ranked, List.mem_flatMap]
  constructor
  · rintro ⟨row, mem, mem'⟩
    obtain ⟨number, within, found⟩ := List.mem_filterMap.mp mem'
    obtain ⟨other, known, eq⟩ := Option.map_eq_some_iff.mp found
    obtain ⟨rfl, rfl, rfl⟩ : row = data ∧ number = rank ∧ other = info := by
      simpa only [Prod.mk.injEq] using eq
    rw [List.mem_range'_1] at within
    exact ⟨mem, ⟨within.1, by omega⟩, known⟩
  · rintro ⟨mem, ⟨low, high⟩, found⟩
    refine ⟨data, mem, List.mem_filterMap.mpr ⟨rank, List.mem_range'_1.mpr ⟨low, by omega⟩, ?_⟩⟩
    rw [found]
    rfl

variable (rows : CompeteRankData)

theorem ranked_ascending (list : List ε) :
    (ranked rows.rows list).Pairwise fun first second => first.2.1 < second.2.1 := by
  have within : ∀ (data : RankData), ∀ place ∈ (List.range' data.rankRange.1
      (data.rankRange.2 + 1 - data.rankRange.1)).filterMap (fun rank =>
        (entry list rank).map fun info => (data, rank, info)), data.Has place.2.1 := by
    intro data place mem
    obtain ⟨rank, inside, found⟩ := List.mem_filterMap.mp mem
    obtain ⟨info, -, rfl⟩ := Option.map_eq_some_iff.mp found
    rw [List.mem_range'_1] at inside
    exact ⟨inside.1, (by omega : rank ≤ data.rankRange.2)⟩
  refine List.pairwise_flatMap.mpr ⟨fun data _ => ?_, rows.ascending.imp fun {first second} apart => ?_⟩
  · refine List.pairwise_filterMap.mpr ((List.pairwise_lt_range').imp fun {low high} less => ?_)
    intro one found two found'
    obtain ⟨_, -, rfl⟩ := Option.map_eq_some_iff.mp found
    obtain ⟨_, -, rfl⟩ := Option.map_eq_some_iff.mp found'
    exact less
  · intro one mem two mem'
    have high := (within first one mem).2
    have low := (within second two mem').1
    omega

theorem entry_unique {key : ε → κ} (rankList : RankList ε key) {first second : ℕ} {one two : ε}
    (found : entry rankList.list first = some one) (found' : entry rankList.list second = some two)
    (same : key one = key two) : first = second := by
  rw [entry] at found found'
  split at found
  · cases found
  split at found'
  · cases found'
  have place : (rankList.list.map key)[first - 1]? = some (key one) := by
    rw [List.getElem?_map, found]
    rfl
  have place' : (rankList.list.map key)[second - 1]? = some (key one) := by
    rw [List.getElem?_map, found', same]
    rfl
  obtain ⟨inside, at_first⟩ := List.getElem?_eq_some_iff.mp place
  obtain ⟨inside', at_second⟩ := List.getElem?_eq_some_iff.mp place'
  have indices := (rankList.once.getElem_inj_iff).mp (at_first.trans at_second.symm)
  omega

/-- The mails to somebody within a range are one, and the ranking is cleared behind it. -/
theorem mail_once {key : ε → κ} (rankList : RankList ε key)
    {mail : RankData → ℕ → ε → Sent κ} (own : ∀ data rank info, (mail data rank info).recipient = some (key info))
    (rankName : String) (configured : data ∈ rows.rows) {rank : ℕ}
    (within : data.Has rank) {info : ε} (found : entry rankList.list rank = some info) :
    ∃ front back, giveRankReward rows.rows (some rankList.list) mail rankName =
        front ++ mail data rank info :: back ∧
      (∀ other ∈ front ++ back, other.recipient ≠ some (key info)) ∧
      (∀ other ∈ front, other.recipient ≠ none) ∧ Sent.clear rankName ∈ back := by
  have mem := mem_ranked.mpr ⟨configured, within, found⟩
  obtain ⟨front, back, parts⟩ := List.append_of_mem mem
  have others : ∀ place ∈ front ++ back, key place.2.2 ≠ key info := by
    intro place mem' same
    have whole : place ∈ ranked rows.rows rankList.list := by
      rw [parts]
      exact (List.mem_append.mp mem').elim (List.mem_append_left _)
        fun later => List.mem_append_right _ (List.mem_cons_of_mem _ later)
    have unique := entry_unique rankList (mem_ranked.mp whole).2.2 found same
    have ascending := ranked_ascending rows rankList.list
    rw [parts] at ascending
    obtain ⟨-, later, earlier⟩ := List.pairwise_append.mp ascending
    rcases List.mem_append.mp mem' with before | after
    · exact absurd unique (earlier place before _ List.mem_cons_self).ne
    · exact absurd unique ((List.pairwise_cons.mp later).1 place after).ne'
  have whole : giveRankReward rows.rows (some rankList.list) mail rankName =
      ((ranked rows.rows rankList.list).map fun (data, rank, info) => mail data rank info) ++
        [.clear rankName] := by
    cases list : rankList.list with
    | nil =>
        rw [list, entry] at found
        split at found
        · cases found
        · cases found
    | cons first rest => rfl
  refine ⟨front.map fun (data, rank, info) => mail data rank info,
    (back.map fun (data, rank, info) => mail data rank info) ++ [.clear rankName], ?_, ?_, ?_, ?_⟩
  · rw [whole, parts, List.map_append, List.map_cons, List.append_assoc, List.cons_append]
  · intro other mem' same
    rw [← List.append_assoc, ← List.map_append] at mem'
    rcases List.mem_append.mp mem' with mail_mem | clear_mem
    · obtain ⟨place, place_mem, rfl⟩ := List.mem_map.mp mail_mem
      rw [own] at same
      exact others place place_mem (Option.some.inj same)
    · rw [List.mem_singleton.mp clear_mem] at same
      cases same
  · intro other mem' nobody
    obtain ⟨place, -, rfl⟩ := List.mem_map.mp mem'
    rw [own] at nobody
    cases nobody
  · exact List.mem_append_right _ (List.mem_singleton.mpr rfl)

/-- A dynasty within a range is sent one mail with the rewards of the range, but with a bare number. -/
theorem dynasty_mail_once (rankList : RankList δ id)
    (configured : data ∈ rows.rows) {rank : ℕ} (within : data.Has rank) {dynastyId : δ}
    (found : entry rankList.list rank = some dynastyId) :
    ∃ front back, giveDynastyRankReward rows.rows (some rankList.list) =
        front ++ .mail dynastyId competeDynasty (.number rank) (some data.dynastyRewardList) :: back ∧
      (∀ other ∈ front ++ back, other.recipient ≠ some dynastyId) ∧
      (∀ other ∈ front, other.recipient ≠ none) ∧ Sent.clear "compete_mark_dynasty_rank" ∈ back :=
  mail_once rows rankList (fun _ _ _ => rfl) _ configured within found

theorem role_mail_once (rankList : RankList (RoleData ρ) RoleData.uuid) (configured : data ∈ rows.rows) {rank : ℕ} (within : data.Has rank)
    {roleData : RoleData ρ} (found : entry rankList.list rank = some roleData) :
    ∃ front back, giveRoleRankReward rows.rows (some rankList.list) =
        front ++ .mail roleData.uuid competeRole (.table rank) roleData.roleRewardList :: back ∧
      (∀ other ∈ front ++ back, other.recipient ≠ some roleData.uuid) ∧
      (∀ other ∈ front, other.recipient ≠ none) ∧ Sent.clear "compete_mark_role_rank" ∈ back :=
  mail_once rows rankList (fun _ _ _ => rfl) _ configured within found

theorem settled_dynasties_iff (rankList : RankList δ id) :
    Settled rows.rows rankList.list id RankData.dynastyRewardList
        (giveDynastyRankReward rows.rows (some rankList.list)) ↔
      ∀ data ∈ rows.rows, ∀ rank, data.Has rank → entry rankList.list rank = none := by
  constructor
  · intro settled data configured rank within
    rw [Option.eq_none_iff_forall_ne_some]
    intro dynastyId found
    obtain ⟨front, mailId, mailArgs, back, parts, named, -⟩ :=
      settled data configured rank within dynastyId found
    obtain ⟨front', back', parts', others, -⟩ := dynasty_mail_once rows rankList configured within found
    have mem : Sent.mail dynastyId mailId mailArgs (some data.dynastyRewardList) ∈
        giveDynastyRankReward rows.rows (some rankList.list) := by
      rw [parts]
      exact List.mem_append_right _ List.mem_cons_self
    rw [parts', List.mem_append, List.mem_cons] at mem
    rcases mem with before | same | after
    · exact others _ (List.mem_append_left _ before) rfl
    · rw [(Sent.mail.inj same).2.2.1] at named
      cases named
    · exact others _ (List.mem_append_right _ after) rfl
  · intro nobody data configured rank within info found
    rw [nobody data configured rank within] at found
    cases found

theorem settled_roles_iff (rankList : RankList (RoleData ρ) RoleData.uuid) :
    Settled rows.rows rankList.list RoleData.uuid RankData.roleRewardList
        (giveRoleRankReward rows.rows (some rankList.list)) ↔
      ∀ data ∈ rows.rows, ∀ rank, data.Has rank → ∀ roleData ∈ entry rankList.list rank,
        roleData.roleRewardList = some data.roleRewardList := by
  constructor
  · intro settled data configured rank within roleData found
    obtain ⟨front, mailId, mailArgs, back, parts, -⟩ := settled data configured rank within roleData found
    obtain ⟨front', back', parts', others, -⟩ := role_mail_once rows rankList configured within found
    have mem : Sent.mail roleData.uuid mailId mailArgs (some data.roleRewardList) ∈
        giveRoleRankReward rows.rows (some rankList.list) := by
      rw [parts]
      exact List.mem_append_right _ List.mem_cons_self
    rw [parts', List.mem_append, List.mem_cons] at mem
    rcases mem with before | same | after
    · exact absurd rfl (others _ (List.mem_append_left _ before))
    · exact ((Sent.mail.inj same).2.2.2).symm
    · exact absurd rfl (others _ (List.mem_append_right _ after))
  · intro own data configured rank within roleData found
    obtain ⟨front, back, parts, others, mails, cleared⟩ :=
      role_mail_once rows rankList configured within found
    rw [own data configured rank within roleData found] at parts
    exact ⟨front, competeRole, .table rank, back, parts, rfl, others, mails, _, cleared⟩

end

/-- The dynasties are grouped and the enemies recorded, and when the war closes everybody within a range is
rewarded as configured, exactly if no dynasty is within a range and every role within one has the rewards of
its range with it. -/
theorem war_right_iff {δ υ ρ : Type*} [DecidableEq δ] [DecidableEq υ]
    (buildingData : ℕ → DynastyCompete.BuildingData) (registered : Table δ (Registered υ)) (loaded : List δ)
    (draws : List ℕ) (grouping : Grouping δ) (delivered : List (δ × Table δ (Registered υ)))
    (dynasties : Table δ (Compete δ υ)) (rows : CompeteRankData) (dynastyRank : RankList δ id)
    (roleRank : RankList (RoleData ρ) RoleData.uuid) (walked : loaded.Perm registered.keys)
    (grouped : setGroups loaded draws = some grouping)
    (arrived : delivered.Perm (enemyMessages registered grouping.groupDict)) :
    (Partitioned loaded grouping.groupDict ∧
      Recorded buildingData registered grouping.groupDict dynasties
        (delivered.foldl (deliver buildingData) dynasties) ∧
      Settled rows.rows dynastyRank.list id RankData.dynastyRewardList
        (dynastyCompeteClose false rows.rows (some dynastyRank.list) (some roleRank.list)).1 ∧
      Settled rows.rows roleRank.list RoleData.uuid RankData.roleRewardList
        (dynastyCompeteClose false rows.rows (some dynastyRank.list) (some roleRank.list)).2) ↔
    (∀ data ∈ rows.rows, ∀ rank, data.Has rank → entry dynastyRank.list rank = none) ∧
      ∀ data ∈ rows.rows, ∀ rank, data.Has rank → ∀ roleData ∈ entry roleRank.list rank,
        roleData.roleRewardList = some data.roleRewardList := by
  have partitioned := setGroups_partitioned grouped
  have recorded := recorded buildingData walked partitioned arrived dynasties
  constructor
  · rintro ⟨-, -, dynasties, roles⟩
    exact ⟨(settled_dynasties_iff rows dynastyRank).mp dynasties, (settled_roles_iff rows roleRank).mp roles⟩
  · rintro ⟨nobody, own⟩
    exact ⟨partitioned, recorded, (settled_dynasties_iff rows dynastyRank).mpr nobody,
      (settled_roles_iff rows roleRank).mpr own⟩

/-- Two of the ranges, with a part of their rewards. -/
def firstRanks : CompeteRankData where
  rows := [⟨(1, 1), [⟨101012, 20000⟩], [⟨101012, 40000⟩]⟩, ⟨(2, 3), [⟨101012, 18000⟩], [⟨101012, 36000⟩]⟩]
  ascending := by decide

def fiveRegistered : Table ℕ (Registered String) :=
  Table.tabulate (fun _ => ⟨"", Table.empty⟩) [1, 2, 3, 4, 5]

/-- A role is first that has the rewards of the first rank with it. -/
def rewardedRank : RankList (RoleData String) RoleData.uuid :=
  ⟨[⟨"a", some [⟨101012, 40000⟩]⟩], by decide⟩

def plainBuilding : ℕ → DynastyCompete.BuildingData := fun _ => ⟨100, 1, 0, 0, 0⟩

theorem war_right_iff_fiveRegistered :
    ∃ grouping, setGroups [1, 2, 3, 4, 5] [5, 1, 1, 2, 1] = some grouping ∧
      Settled firstRanks.rows rewardedRank.list RoleData.uuid RankData.roleRewardList
        (dynastyCompeteClose false firstRanks.rows (some ([] : List ℕ)) (some rewardedRank.list)).2 := by
  have grouped : (setGroups [1, 2, 3, 4, 5] [5, 1, 1, 2, 1]).isSome = true := by decide
  obtain ⟨grouping, grouped⟩ := Option.isSome_iff_exists.mp grouped
  have walked : [1, 2, 3, 4, 5].Perm fiveRegistered.keys := by decide
  have own : ∀ data ∈ firstRanks.rows, ∀ rank, data.Has rank →
      ∀ roleData ∈ entry rewardedRank.list rank, roleData.roleRewardList = some data.roleRewardList := by
    have places : ∀ place ∈ ranked firstRanks.rows rewardedRank.list,
        place.2.2.roleRewardList = some place.1.roleRewardList := by decide
    exact fun data configured rank within roleData found =>
      places (data, rank, roleData) (mem_ranked.mpr ⟨configured, within, found⟩)
  have right := war_right_iff plainBuilding fiveRegistered [1, 2, 3, 4, 5] [5, 1, 1, 2, 1] grouping _
    Table.empty firstRanks ⟨[], List.nodup_nil⟩ rewardedRank walked grouped (List.Perm.refl _)
  refine ⟨grouping, grouped, (right.mpr ⟨fun _ _ rank _ => ?_, own⟩).2.2.2⟩
  rw [entry]
  split <;> rfl

/-- A role that is ranked has no rewards with it. -/
def plainRank : RankList (RoleData String) RoleData.uuid :=
  ⟨[⟨"a", none⟩], by decide⟩

/-- The first role and the first dynasty are not rewarded as configured. -/
theorem plainRank_not_settled :
    ¬ Settled firstRanks.rows plainRank.list RoleData.uuid RankData.roleRewardList
        (dynastyCompeteClose false firstRanks.rows (some [1]) (some plainRank.list)).2 ∧
      ¬ Settled firstRanks.rows [1] id RankData.dynastyRewardList
        (dynastyCompeteClose false firstRanks.rows (some [1]) (some plainRank.list)).1 := by
  constructor
  · intro settled
    have own := (settled_roles_iff firstRanks plainRank).mp settled _ List.mem_cons_self 1 (by decide) _ rfl
    cases own
  · intro settled
    have nobody := (settled_dynasties_iff firstRanks ⟨[1], by decide⟩).mp settled _ List.mem_cons_self 1
      (by decide)
    cases nobody

end UEServer.CrossCompete
