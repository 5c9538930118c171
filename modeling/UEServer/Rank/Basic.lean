import UEServer.Rank.SortedList

/-!
# Rank lists

`RankCls` of the `rank_utils.lua` of the agent, of the `rank_utils.lua` of the rank service and of
`dynasty_rank.lua`.  The three differ in the test for the direction of a move, and in what removes
an id for good: the first two have a list of forbidden ids, the third one deletes a dynasty.

The dictionary and the list hold the same objects.  An object is named by its id here, and its
fields are kept beside both.
-/

namespace UEServer.Rank

/-- The fields of an entry that the order depends on. -/
structure Info where
  rankScore : ℚ
  rank : Option Nat
  deriving DecidableEq

/-- A rank list.  For dynasties the dictionary is `dynasty_dict` and the list `dynasty_list`. -/
structure RankCls (ι : Type*) where
  objs : ι → Info
  /-- The ids that `role_dict` has. -/
  roleDict : ι → Bool
  roleList : List ι
  forbidDict : ι → Bool
  maxLen : Nat

inductive Kind where
  | agent
  | cross
  | dynasty
  deriving DecidableEq

section
variable {ι : Type*} [DecidableEq ι]

def RankCls.score (cls : RankCls ι) (id : ι) : ℚ :=
  (cls.objs id).rankScore

def RankCls.ranked (cls : RankCls ι) : Ranked ι where
  list := cls.roleList
  rank id := (cls.objs id).rank

/-- Assign a score and move the entry. -/
def RankCls.sortRole (cls : RankCls ι) (id : ι) (score : ℚ) (isAdd : Bool) : Option (RankCls ι) :=
  let objs := Function.update cls.objs id { cls.objs id with rankScore := score }
  (updateSortedList (fun other => (objs other).rankScore)
      ⟨cls.roleList, fun other => (objs other).rank⟩ id isAdd).map fun state =>
    { cls with
      roleList := state.list
      objs := fun other => { objs other with rank := state.rank other } }

def RankCls.enter (cls : RankCls ι) (id : ι) (score : ℚ) : RankCls ι :=
  { cls with
    objs := Function.update cls.objs id ⟨score, none⟩
    roleDict := Function.update cls.roleDict id true }

/-- The last entry leaves the list and the dictionary. -/
def RankCls.evict (cls : RankCls ι) (last : ι) : RankCls ι :=
  { cls with
    roleDict := Function.update cls.roleDict last false
    roleList := cls.roleList.dropLast }

/-- The update of a rank, with the test for a move up; nothing if it raises. -/
def updateRank (isAdd : ℚ → ℚ → Bool) (cls : RankCls ι) (id : ι) (score : ℚ) :
    Option (RankCls ι) :=
  if cls.roleDict id then
    if cls.score id = score then some cls
    else cls.sortRole id score (isAdd (cls.score id) score)
  else if cls.maxLen ≤ cls.roleList.length then
    match cls.roleList.getLast? with
    | none => none
    | some last =>
        if score ≤ cls.score last then some cls
        else ((cls.evict last).enter id score).sortRole id score (isAdd score score)
  else (cls.enter id score).sortRole id score (isAdd score score)

def updateRoleRankAgent (cls : RankCls ι) (id : ι) (score : ℚ) : Option (RankCls ι) :=
  if cls.forbidDict id then some cls else updateRank (fun old new => old < new) cls id score

/-- `update_role_rank` of the rank service. -/
def updateRoleRankCross (cls : RankCls ι) (id : ι) (score : ℚ) : Option (RankCls ι) :=
  if cls.forbidDict id then some cls else updateRank (fun old new => old ≤ new) cls id score

def updateDynastyRank (cls : RankCls ι) (id : ι) (score : ℚ) : Option (RankCls ι) :=
  updateRank (fun old new => old ≤ new) cls id score

def updateFor : Kind → RankCls ι → ι → ℚ → Option (RankCls ι)
  | .agent => updateRoleRankAgent
  | .cross => updateRoleRankCross
  | .dynasty => updateDynastyRank

/-- Take an entry off the list: whether it raises, and the list as it leaves it. -/
def removeRank (update : RankCls ι → ι → ℚ → Option (RankCls ι)) (cls : RankCls ι) (id : ι) :
    Bool × RankCls ι :=
  if cls.roleDict id then
    match update cls id (-1) with
    | none => (true, cls)
    | some cls =>
        if (cls.objs id).rank = some cls.roleList.length then (false, cls.evict id)
        else (true, cls)
  else (false, cls)

def addRankForbid (kind : Kind) (cls : RankCls ι) (id : ι) : Bool × RankCls ι :=
  removeRank (updateFor kind)
    { cls with forbidDict := Function.update cls.forbidDict id true } id

def deleteDynasty (cls : RankCls ι) (id : ι) : Bool × RankCls ι :=
  removeRank updateDynastyRank cls id

def clearRankData (cls : RankCls ι) : RankCls ι :=
  { cls with roleDict := fun _ => false, roleList := [] }

structure Stored (ι : Type*) where
  objs : ι → Info
  roleList : List ι
  forbidDict : ι → Bool

def RankCls.save (cls : RankCls ι) : Stored ι where
  objs := cls.objs
  roleList := cls.roleList
  forbidDict := cls.forbidDict

/-- `RankCls.new`, with the loop of `init`. -/
def new (maxLen : Nat) (stored : Stored ι) : RankCls ι :=
  stored.roleList.foldl (fun cls id =>
    { cls with
      roleDict := Function.update cls.roleDict id true
      roleList := cls.roleList ++ [id] })
    { objs := stored.objs
      roleDict := fun _ => false
      roleList := []
      forbidDict := stored.forbidDict
      maxLen }

/-- The list is in descending order and not too long, the ranks are the indices, and the dictionary
has the entries of the list. -/
structure RankCls.InStep (cls : RankCls ι) : Prop where
  sorted : Descending cls.score cls.roleList
  inOrder : cls.ranked.InOrder
  dict : ∀ id, cls.roleDict id = true ↔ id ∈ cls.roleList
  short : cls.roleList.length ≤ cls.maxLen

variable {cls : RankCls ι} {id : ι} {score : ℚ}

theorem new_eq (maxLen : Nat) (stored : Stored ι) :
    new maxLen stored =
      { objs := stored.objs
        roleDict := fun id => id ∈ stored.roleList
        roleList := stored.roleList
        forbidDict := stored.forbidDict
        maxLen } := by
  have loop : ∀ (rest front : List ι), rest.foldl (fun (cls : RankCls ι) id =>
      { cls with
        roleDict := Function.update cls.roleDict id true
        roleList := cls.roleList ++ [id] })
      { objs := stored.objs, roleDict := fun id => id ∈ front, roleList := front,
        forbidDict := stored.forbidDict, maxLen } =
      { objs := stored.objs, roleDict := fun id => id ∈ front ++ rest, roleList := front ++ rest,
        forbidDict := stored.forbidDict, maxLen } := by
    intro rest
    induction rest with
    | nil => simp
    | cons id rest ih =>
        intro front
        have added : Function.update (fun id => decide (id ∈ front)) id true =
            fun other => decide (other ∈ front ++ [id]) := by
          funext other
          by_cases same : other = id
          · simp [same]
          · simp [same]
        rw [List.foldl_cons, added, ih (front ++ [id]), List.append_assoc, List.singleton_append]
  have start := loop stored.roleList []
  simpa [new] using start

end

end UEServer.Rank
