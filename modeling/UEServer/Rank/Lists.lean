import UEServer.Library.Execution
import UEServer.Rank.Update

/-!
# Runs of rank lists

Updates, forbids, deletions, clears, saves and reloads in any order.  Taking an id off a list works
by giving it the score -1 and removing the last entry.  A forbidden id is refused that score, so
unless it is the last entry already, forbidding it raises and leaves it on the list.
-/

namespace UEServer.Rank

/-- A rank list, what is stored of it, and what has happened to it.  A reload that brings back an
older list brings back what was deleted since. -/
structure RankState (ι : Type*) where
  live : RankCls ι
  stored : Stored ι
  /-- The ids that have been deleted and not been updated since. -/
  deleted : ι → Bool
  storedDeleted : ι → Bool
  raised : Bool

inductive RankOp (ι : Type*) where
  | update (id : ι) (score : ℚ)
  | forbid (id : ι)
  | delete (id : ι)
  | clear
  | save
  | reload

section
variable {ι : Type*} [DecidableEq ι]

def RankOp.Enabled (kind : Kind) : RankOp ι → Prop
  | .forbid _ => kind ≠ .dynasty
  | .delete _ => kind = .dynasty
  | _ => True

instance (kind : Kind) (op : RankOp ι) : Decidable (op.Enabled kind) := by
  cases op <;> (unfold RankOp.Enabled; infer_instance)

/-- What an operation makes of a state.  An update that raises changes nothing. -/
def rankApply (kind : Kind) (state : RankState ι) : RankOp ι → RankState ι
  | .update id score =>
      { state with
        live := (updateFor kind state.live id score).getD state.live
        deleted := Function.update state.deleted id false }
  | .forbid id =>
      let (raised, live) := addRankForbid kind state.live id
      { state with live, raised := state.raised || raised }
  | .delete id =>
      let (raised, live) := deleteDynasty state.live id
      { state with
        live
        raised := state.raised || raised
        deleted := Function.update state.deleted id true }
  | .clear => { state with live := clearRankData state.live }
  | .save => { state with stored := state.live.save, storedDeleted := state.deleted }
  | .reload =>
      { state with live := new state.live.maxLen state.stored, deleted := state.storedDeleted }

def rankStep (kind : Kind) (state : RankState ι) (op : RankOp ι) : Option (RankState ι) :=
  if op.Enabled kind then some (rankApply kind state op) else none

def Unlisted (cls : RankCls ι) (deleted : ι → Bool) : Prop :=
  ∀ id, cls.forbidDict id = true ∨ deleted id = true → id ∉ cls.roleList

/-- The list, the dictionary and the ranks are in step, nothing is listed that must not be, and
nothing has raised. -/
structure Kept (state : RankState ι) : Prop where
  inStep : state.live.InStep
  unlisted : Unlisted state.live state.deleted
  quiet : state.raised = false

/-- What is stored is in step as well, and dynasties are never forbidden. -/
structure Backed (kind : Kind) (state : RankState ι) : Prop where
  inStep : (new state.live.maxLen state.stored).InStep
  unlisted : Unlisted (new state.live.maxLen state.stored) state.storedDeleted
  allowed : kind = .dynasty → ∀ id, state.live.forbidDict id = false
  stored_allowed : kind = .dynasty → ∀ id, state.stored.forbidDict id = false

def ahead (list : List ι) (id : ι) : List ι :=
  list.takeWhile (· ≠ id)

def behind (list : List ι) (id : ι) : List ι :=
  (list.dropWhile (· ≠ id)).tail

/-- An id that is forbidden is the last entry or not listed.  A dynasty that is deleted has no entry
with the score -1 or less after it, and none with a score less than -1 before it. -/
def RankOp.Permitted (state : RankState ι) : RankOp ι → Prop
  | .forbid id => id ∈ state.live.roleList → behind state.live.roleList id = []
  | .delete id => id ∈ state.live.roleList →
      (∀ other ∈ ahead state.live.roleList id, -1 ≤ state.live.score other) ∧
        ∀ other ∈ behind state.live.roleList id, -1 < state.live.score other
  | _ => True

instance (state : RankState ι) (op : RankOp ι) : Decidable (op.Permitted state) := by
  cases op <;> (unfold RankOp.Permitted; infer_instance)

variable {kind : Kind} {state after : RankState ι} {op : RankOp ι}

theorem ahead_behind {front back : List ι} {id : ι} (absent : id ∉ front) :
    ahead (front ++ id :: back) id = front ∧ behind (front ++ id :: back) id = back := by
  have others : ∀ other ∈ front, (decide (other ≠ id)) = true := by
    intro other mem
    exact decide_eq_true (mem_ne absent mem)
  constructor
  · rw [ahead, List.takeWhile_append_of_pos others]
    simp
  · rw [behind, List.dropWhile_append_of_pos others]
    simp

theorem tells_lt : Tells fun old new => decide (old < new) :=
  fun _ _ _ => decide_eq_true_iff

theorem tells_le : Tells fun old new => decide (old ≤ new) := by
  intro old new different
  rw [decide_eq_true_iff]
  exact ⟨fun le => lt_of_le_of_ne le different, le_of_lt⟩

variable {cls : RankCls ι}

theorem updateFor_spec (kind : Kind) (inStep : cls.InStep) (id : ι) (score : ℚ) :
    updateFor kind cls id score = none ∨ ∃ next, updateFor kind cls id score = some next ∧
      Updated cls next id ∧ (kind ≠ .dynasty → cls.forbidDict id = true → next = cls) := by
  -- The agent and the rank service refuse a forbidden id.
  have refusing : ∀ {isAdd : ℚ → ℚ → Bool}, Tells isAdd → ∀ result,
      (if cls.forbidDict id then some cls else updateRank isAdd cls id score) = result →
        result = none ∨ ∃ next, result = some next ∧ Updated cls next id ∧
          (kind ≠ .dynasty → cls.forbidDict id = true → next = cls) := by
    rintro isAdd tells result rfl
    by_cases forbidden : cls.forbidDict id = true
    · rw [if_pos forbidden]
      exact .inr ⟨cls, rfl, .refl inStep id, fun _ _ => rfl⟩
    · rw [if_neg forbidden]
      exact (updateRank_spec tells inStep id score).imp And.left fun ⟨next, found, updated⟩ =>
        ⟨next, found, updated, fun _ listed => absurd listed forbidden⟩
  cases kind with
  | agent => exact refusing tells_lt _ rfl
  | cross => exact refusing tells_le _ rfl
  | dynasty =>
      exact (updateRank_spec tells_le inStep id score).imp And.left fun ⟨next, found, updated⟩ =>
        ⟨next, found, updated, fun other => absurd rfl other⟩

structure Removed (cls after : RankCls ι) (id : ι) : Prop where
  inStep : after.InStep
  absent : id ∉ after.roleList
  members : ∀ other ∈ after.roleList, other ∈ cls.roleList
  forbid : after.forbidDict = cls.forbidDict
  maxLen : after.maxLen = cls.maxLen

theorem removed_of_last {update : RankCls ι → ι → ℚ → Option (RankCls ι)}
    {cls middle : RankCls ι} {id : ι} {high low : List ι} (listed : cls.roleDict id = true)
    (found : update cls id (-1) = some middle) (updated : Updated cls middle id)
    (inStep : cls.InStep) (list : middle.roleList = high ++ id :: low) (nothing : low = []) :
    Removed cls (removeRank update cls id).2 id := by
  obtain ⟨-, removed⟩ := removeRank_spec listed found updated.inStep list
  obtain ⟨evicted, evicted_inStep, evicted_list⟩ := removed nothing
  have nodup := updated.inStep.inOrder.nodup
  rw [show middle.ranked.list = _ from list] at nodup
  rw [evicted]
  refine ⟨evicted_inStep, ?_, fun other mem => ?_, updated.forbid, updated.maxLen⟩
  · rw [evicted_list]
    exact fun mem => (List.nodup_append'.mp nodup).2.2 mem List.mem_cons_self
  · rw [evicted_list] at mem
    rcases updated.members other (by rw [list]; exact List.mem_append_left _ mem) with rfl | known
    · exact (inStep.dict other).mp listed
    · exact known

theorem deleteDynasty_spec (inStep : cls.InStep) (id : ι) :
    ((deleteDynasty cls id).1 = false ↔ (id ∈ cls.roleList →
      (∀ other ∈ ahead cls.roleList id, -1 ≤ cls.score other) ∧
        ∀ other ∈ behind cls.roleList id, -1 < cls.score other)) ∧
      ((deleteDynasty cls id).1 = false → Removed cls (deleteDynasty cls id).2 id) := by
  unfold deleteDynasty
  by_cases mem : id ∈ cls.roleList
  · have listed := (inStep.dict id).mpr mem
    obtain ⟨front, back, list⟩ := List.append_of_mem mem
    have nodup := inStep.inOrder.nodup
    rw [show cls.ranked.list = _ from list] at nodup
    have absent : id ∉ front := fun mem =>
      (List.nodup_append'.mp nodup).2.2 mem List.mem_cons_self
    obtain ⟨ahead_eq, behind_eq⟩ := @ahead_behind _ _ _ back _ absent
    rw [list, ahead_eq, behind_eq, ← list]
    obtain ⟨-, above, below⟩ := sorted_of_mem inStep list
    have place : ∃ middle high low, updateDynastyRank cls id (-1) = some middle ∧
        middle.roleList = high ++ id :: low ∧ (low = [] ↔
          (∀ other ∈ front, -1 ≤ cls.score other) ∧ ∀ other ∈ back, -1 < cls.score other) := by
      unfold updateDynastyRank updateRank
      rw [if_pos listed]
      by_cases same : cls.score id = -1
      · rw [if_pos same]
        rw [same] at above below
        refine ⟨cls, front, back, rfl, list, ?_⟩
        rw [and_iff_right above]
        refine ⟨?_, fun all => List.eq_nil_iff_forall_not_mem.mpr fun other other_mem => ?_⟩
        · exact nofun
        · exact absurd (all other other_mem) (not_lt.mpr (below other other_mem))
      · rw [if_neg same]
        obtain ⟨middle, high, low, moved, resorted, -, last⟩ :=
          sortRole_listed tells_le inStep list same
        exact ⟨middle, high, low, moved, resorted.list, last⟩
    obtain ⟨middle, high, low, found, middle_list, last⟩ := place
    have updated : Updated cls middle id := by
      rcases updateRank_spec tells_le inStep id (-1) with ⟨raises, -⟩ | ⟨next, next_found, updated⟩
      · cases raises.symm.trans found
      · cases next_found.symm.trans found
        exact updated
    obtain ⟨quiet, -⟩ := removeRank_spec listed found updated.inStep middle_list
    refine ⟨?_, fun done => removed_of_last listed found updated inStep middle_list (quiet.mp done)⟩
    exact quiet.trans (last.trans (imp_iff_right mem).symm)
  · rw [removeRank_of_absent updateDynastyRank inStep mem]
    refine ⟨iff_of_true rfl fun listed => absurd listed mem, fun _ => ?_⟩
    exact ⟨inStep, mem, fun _ known => known, rfl, rfl⟩

theorem addRankForbid_spec (enabled : kind ≠ .dynasty) (inStep : cls.InStep)
    (id : ι) :
    ((addRankForbid kind cls id).1 = false ↔ (id ∈ cls.roleList → behind cls.roleList id = [])) ∧
      ((addRankForbid kind cls id).1 = false →
        Removed { cls with forbidDict := Function.update cls.forbidDict id true }
          (addRankForbid kind cls id).2 id) := by
  let marked : RankCls ι := { cls with forbidDict := Function.update cls.forbidDict id true }
  have marked_inStep : marked.InStep :=
    { inStep with }
  have forbidden : marked.forbidDict id = true := Function.update_self ..
  have refused : updateFor kind marked id (-1) = some marked := by
    cases kind with
    | agent => exact if_pos forbidden
    | cross => exact if_pos forbidden
    | dynasty => exact absurd rfl enabled
  change ((removeRank (updateFor kind) marked id).1 = false ↔ _) ∧
    ((removeRank (updateFor kind) marked id).1 = false →
      Removed marked (removeRank (updateFor kind) marked id).2 id)
  by_cases mem : id ∈ cls.roleList
  · have listed : marked.roleDict id = true := (inStep.dict id).mpr mem
    obtain ⟨front, back, list⟩ := List.append_of_mem mem
    have marked_list : marked.roleList = front ++ id :: back := list
    have nodup := inStep.inOrder.nodup
    rw [show cls.ranked.list = _ from list] at nodup
    have absent : id ∉ front := fun mem =>
      (List.nodup_append'.mp nodup).2.2 mem List.mem_cons_self
    rw [list, (ahead_behind absent).2, ← list]
    obtain ⟨quiet, -⟩ := removeRank_spec listed refused marked_inStep marked_list
    refine ⟨quiet.trans (imp_iff_right mem).symm, fun done => ?_⟩
    exact removed_of_last listed refused (.refl marked_inStep id) marked_inStep marked_list
      (quiet.mp done)
  · rw [removeRank_of_absent (updateFor kind) marked_inStep mem]
    refine ⟨iff_of_true rfl fun listed => absurd listed mem, fun _ => ?_⟩
    exact ⟨marked_inStep, mem, fun _ known => known, rfl, rfl⟩

theorem update_kept (kept : Kept state) (allowed : kind = .dynasty → ∀ id,
      state.live.forbidDict id = false) (id : ι) (score : ℚ) :
    Kept (rankApply kind state (.update id score)) := by
  obtain ⟨inStep, unlisted, quiet⟩ := kept
  have fewer : ∀ other, Function.update state.deleted id false other = true →
      other ≠ id ∧ state.deleted other = true := by
    intro other marked
    by_cases same : other = id
    · subst same
      rw [Function.update_self] at marked
      cases marked
    · rw [Function.update_of_ne same] at marked
      exact ⟨same, marked⟩
  rw [rankApply]
  rcases updateFor_spec kind inStep id score with raises | ⟨next, found, updated, refuses⟩
  · rw [raises]
    refine ⟨inStep, fun other marked => ?_, quiet⟩
    exact unlisted other (marked.imp_right fun marked => (fewer other marked).2)
  · rw [found]
    refine ⟨updated.inStep, fun other marked listed => ?_, quiet⟩
    change next.forbidDict other = true ∨ _ at marked
    rw [updated.forbid] at marked
    have old := marked.imp_right fun marked => (fewer other marked).2
    rcases updated.members other listed with rfl | known
    · -- The id itself is not marked as deleted any more, and not updated if it is forbidden.
      rcases marked with forbidden | marked
      · cases kind with
        | dynasty =>
            rw [allowed rfl other] at forbidden
            cases forbidden
        | agent | cross =>
            obtain rfl := refuses nofun forbidden
            exact unlisted other old listed
      · exact (fewer other marked).1 rfl
    · exact unlisted other old known

/-- An id taken off the list keeps everything, if no other id is marked. -/
theorem Kept.remove_iff (kept : Kept state) {marked live : RankCls ι} {deleted : ι → Bool}
    {raised : Bool} {id : ι} (removed : raised = false → Removed marked live id)
    (list : marked.roleList = state.live.roleList)
    (marks : ∀ other ≠ id, marked.forbidDict other = state.live.forbidDict other ∧
      deleted other = state.deleted other) :
    Kept { state with live, deleted, raised := state.raised || raised } ↔ raised = false := by
  obtain ⟨inStep, unlisted, quiet⟩ := kept
  rw [quiet]
  refine ⟨fun kept => by simpa using kept.quiet, fun done => ?_⟩
  have removed := removed done
  refine ⟨removed.inStep, fun other either listed => ?_, by simpa using done⟩
  change live.forbidDict other = true ∨ deleted other = true at either
  rw [removed.forbid] at either
  by_cases same : other = id
  · subst same
    exact removed.absent listed
  · obtain ⟨forbid, delete⟩ := marks other same
    rw [forbid, delete] at either
    exact unlisted other either (list ▸ removed.members other listed)

theorem forbid_kept (enabled : kind ≠ .dynasty) (kept : Kept state) (id : ι) :
    Kept (rankApply kind state (.forbid id)) ↔ (RankOp.forbid id).Permitted state := by
  obtain ⟨quiet_iff, removed⟩ := addRankForbid_spec enabled kept.inStep id
  exact (kept.remove_iff removed rfl fun _ other => ⟨Function.update_of_ne other .., rfl⟩).trans
    quiet_iff

theorem delete_kept (kept : Kept state) (id : ι) :
    Kept (rankApply kind state (.delete id)) ↔ (RankOp.delete id).Permitted state := by
  obtain ⟨quiet_iff, removed⟩ := deleteDynasty_spec kept.inStep id
  exact (kept.remove_iff removed rfl fun _ other => ⟨rfl, Function.update_of_ne other ..⟩).trans
    quiet_iff

theorem new_save (inStep : cls.InStep) : new cls.maxLen cls.save = cls := by
  have dict : (fun id => decide (id ∈ cls.roleList)) = cls.roleDict := by
    funext id
    rw [Bool.eq_iff_iff, decide_eq_true_iff, inStep.dict]
  rw [new_eq]
  change RankCls.mk cls.objs (fun id => decide (id ∈ cls.roleList)) cls.roleList cls.forbidDict
    cls.maxLen = cls
  rw [dict]

theorem rankStep_kept (kept : Kept state) (backed : Backed kind state)
    (taken : rankStep kind state op = some after) : Kept after ↔ op.Permitted state := by
  unfold rankStep at taken
  split at taken
  · rename_i enabled
    cases taken
    cases op with
    | update id score => exact iff_of_true (update_kept kept backed.allowed id score) trivial
    | forbid id => exact forbid_kept enabled kept id
    | delete id => exact delete_kept kept id
    | clear =>
        refine iff_of_true ⟨⟨.nil, ⟨.nil, rankedFrom_nil _ _⟩, fun id => ?_, Nat.zero_le _⟩,
          fun _ _ => List.not_mem_nil, kept.quiet⟩ trivial
        exact iff_of_false Bool.false_ne_true List.not_mem_nil
    | save => exact iff_of_true ⟨kept.inStep, kept.unlisted, kept.quiet⟩ trivial
    | reload => exact iff_of_true ⟨backed.inStep, backed.unlisted, kept.quiet⟩ trivial
  · cases taken

theorem rankStep_backed (kept : Kept state) (backed : Backed kind state)
    (permitted : op.Permitted state) (taken : rankStep kind state op = some after) :
    Backed kind after := by
  obtain ⟨inStep, unlisted, allowed, stored_allowed⟩ := backed
  -- A list with the same greatest length, on which no dynasty is forbidden.
  have replace : ∀ live : RankCls ι, live.maxLen = state.live.maxLen →
      (kind = .dynasty → ∀ id, live.forbidDict id = false) → ∀ deleted raised,
        Backed kind { state with live, deleted, raised } := by
    intro live same allowed deleted raised
    refine ⟨?_, ?_, allowed, stored_allowed⟩
    · rw [same]
      exact inStep
    · rw [same]
      exact unlisted
  unfold rankStep at taken
  split at taken
  · rename_i enabled
    cases taken
    cases op with
    | update id score =>
        rcases updateFor_spec kind kept.inStep id score with raises | ⟨next, found, updated, -⟩
        · rw [rankApply, raises]
          exact replace state.live rfl allowed _ _
        · rw [rankApply, found]
          exact replace next updated.maxLen (by rw [updated.forbid]; exact allowed) _ _
    | forbid id =>
        obtain ⟨quiet, removed⟩ := addRankForbid_spec enabled kept.inStep id
        have removed := removed (quiet.mpr permitted)
        exact replace _ removed.maxLen (fun dynasty => absurd dynasty enabled) _ _
    | delete id =>
        obtain ⟨quiet, removed⟩ := deleteDynasty_spec kept.inStep id
        have removed := removed (quiet.mpr permitted)
        exact replace _ removed.maxLen (by rw [removed.forbid]; exact allowed) _ _
    | clear => exact replace (clearRankData state.live) rfl allowed _ _
    | save =>
        have same := new_save kept.inStep
        refine ⟨?_, ?_, allowed, allowed⟩
        · rw [rankApply, same]
          exact kept.inStep
        · rw [rankApply, same]
          exact kept.unlisted
    | reload =>
        refine replace _ ?_ (fun dynasty id => ?_) _ _
        · rw [new_eq]
        · rw [new_eq]
          exact stored_allowed dynasty id
  · cases taken

/-- A rank list is kept throughout a run exactly if every id that is forbidden is the last entry or
not listed, and no dynasty is deleted over an entry with the score -1 or less. -/
theorem rank_kept_iff {ops : List (RankOp ι)} {final : RankState ι} (kept : Kept state)
    (backed : Backed kind state)
    (execution : Execution.run (rankStep kind) state ops = some final) :
    Execution.Always (rankStep kind) Kept state ops ↔
      Execution.Guarded (rankStep kind) (fun state op => op.Permitted state) state ops := by
  have preserved : ∀ {before : RankState ι} {op : RankOp ι} {after : RankState ι},
      (Kept before ∧ Backed kind before) → op.Permitted before →
        rankStep kind before op = some after → Kept after ∧ Backed kind after := by
    intro before op after ⟨kept, backed⟩ permitted taken
    exact ⟨(rankStep_kept kept backed taken).mpr permitted,
      rankStep_backed kept backed permitted taken⟩
  exact Execution.always_iff_guarded preserved
    (fun both _ taken => rankStep_kept both.1 both.2 taken) execution ⟨kept, backed⟩ kept

/-- The list of a rank that nothing is stored of. -/
def startState (ι : Type*) [DecidableEq ι] (maxLen : Nat) : RankState ι :=
  let stored : Stored ι :=
    { objs := fun _ => ⟨0, none⟩, roleList := [], forbidDict := fun _ => false }
  { live := new maxLen stored
    stored
    deleted := fun _ => false
    storedDeleted := fun _ => false
    raised := false }

theorem startState_inStep (maxLen : Nat) : (startState ι maxLen).live.InStep := by
  refine ⟨.nil, ⟨.nil, ?_⟩, fun _ => iff_of_false Bool.false_ne_true List.not_mem_nil,
    Nat.zero_le _⟩
  exact rankedFrom_nil _ _

theorem startState_kept (maxLen : Nat) : Kept (startState ι maxLen) :=
  ⟨startState_inStep maxLen, fun _ _ => List.not_mem_nil, rfl⟩

theorem startState_backed (kind : Kind) (maxLen : Nat) : Backed kind (startState ι maxLen) :=
  ⟨startState_inStep maxLen, fun _ _ => List.not_mem_nil, fun _ _ => rfl, fun _ _ => rfl⟩

end

/-- Three roles on a list of two: the last one is forbidden, and a new one takes its place. -/
def seasonRun : List (RankOp Nat) :=
  [.update 1 10, .update 2 20, .update 3 30, .update 2 5, .forbid 2, .update 2 40, .update 1 30,
    .save, .clear, .reload]

theorem rank_kept_iff_seasonRun :
    Execution.Always (rankStep .agent) Kept (startState Nat 2) seasonRun := by
  have final : (Execution.run (rankStep .agent) (startState Nat 2) seasonRun).isSome := by decide
  obtain ⟨final, execution⟩ := Option.isSome_iff_exists.mp final
  exact (rank_kept_iff (startState_kept 2) (startState_backed .agent 2) execution).mpr (by decide)

/-- Two roles are listed, and the first one is forbidden. -/
def bannedRun : List (RankOp Nat) :=
  [.update 1 10, .update 2 20, .forbid 2]

/-- Forbidding the first one raises, and it stays on the list. -/
theorem bannedRun_not_kept :
    Kept (startState Nat 100) ∧ Backed .agent (startState Nat 100) ∧
      ∃ state, Execution.run (rankStep .agent) (startState Nat 100) bannedRun = some state ∧
        state.raised = true ∧ state.live.forbidDict 2 = true ∧ 2 ∈ state.live.roleList ∧
          ¬ Kept state := by
  have final : ((Execution.run (rankStep .agent) (startState Nat 100) bannedRun).map fun state =>
      (state.raised, state.live.forbidDict 2, state.live.roleList)) =
        some (true, true, [2, 1]) := by decide
  obtain ⟨state, execution, fields⟩ := Option.map_eq_some_iff.mp final
  obtain ⟨raised, fields⟩ := Prod.mk.inj fields
  obtain ⟨forbidden, list⟩ := Prod.mk.inj fields
  refine ⟨startState_kept 100, startState_backed .agent 100, state, execution, raised, forbidden,
    by rw [list]; decide, fun kept => ?_⟩
  rw [kept.quiet] at raised
  cases raised

end UEServer.Rank
