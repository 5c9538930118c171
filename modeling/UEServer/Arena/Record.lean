import Mathlib.Algebra.BigOperators.Intervals
import Mathlib.Algebra.Order.BigOperators.Group.Finset
import Mathlib.Tactic.Ring
import UEServer.Arena.Rank

/-!
# The rewards of record ranks

When a role wins against a rank that is better than its best one, `arena_challenge` pays it for the ranks
between the two, at rates that depend on the ranges of `ArenaData`.  The loop goes down the ranges and
moves the old rank to the first rank of each range that it leaves, so that every rank that is passed is
paid at the rate of its own range.
-/

namespace UEServer.Arena

/-- A row of `ArenaData`. -/
structure ArenaData where
  id : ℕ
  rankRange : ℕ × ℕ
  newRankReward : ℕ
  deriving DecidableEq

/-- The rows are numbered from `id` on and their ranges follow on each other from `start` on. -/
def Contiguous : ℕ → ℕ → List ArenaData → Prop
  | _, _, [] => True
  | id, start, data :: rest =>
      data.id = id ∧ data.rankRange.1 = start ∧ start ≤ data.rankRange.2 ∧
        Contiguous (id + 1) (data.rankRange.2 + 1) rest

instance decidableContiguous : (id start : ℕ) → (rows : List ArenaData) →
    Decidable (Contiguous id start rows)
  | _, _, [] => isTrue trivial
  | id, _, data :: rest =>
      have := decidableContiguous (id + 1) (data.rankRange.2 + 1) rest
      inferInstanceAs (Decidable (_ ∧ _ ∧ _ ∧ _))

/-- `ArenaData`, whose ranges are contiguous and start at 1. -/
structure ArenaTable where
  rows : List ArenaData
  contiguous : Contiguous 1 1 rows

def ArenaData.Covers (data : ArenaData) (rank : ℕ) : Prop :=
  data.rankRange.1 ≤ rank ∧ rank ≤ data.rankRange.2

instance (data : ArenaData) (rank : ℕ) : Decidable (data.Covers rank) :=
  inferInstanceAs (Decidable (_ ∧ _))

namespace ArenaTable

variable (table : ArenaTable)

/-- `get_arena_config`, for a rank. -/
def getArenaConfig (rank : ℕ) : Option ArenaData :=
  table.rows.find? fun data => data.Covers rank

/-- The loop over the ranges from `id` down to 1; nothing if a row is missing.  The result is the reward
and the row at which the loop has stopped, if it has. -/
def recordLoop (newRank : ℕ) : ℕ → ℤ → ℤ → Option (ℤ × Option ArenaData)
  | 0, _, rewardNum => some (rewardNum, none)
  | id + 1, oldRank, rewardNum =>
      match table.rows[id]? with
      | none => none
      | some data =>
          if data.Covers newRank then
            some (rewardNum + data.newRankReward * (oldRank - newRank), some data)
          else
            recordLoop newRank id data.rankRange.1
              (rewardNum + data.newRankReward * (oldRank - data.rankRange.1))

/-- The reward for a record in `arena_challenge`; nothing if it raises. -/
def recordReward (oldRank newRank : ℕ) : Option (ℤ × Option ArenaData) :=
  match table.getArenaConfig oldRank with
  | none => none
  | some config => table.recordLoop newRank config.id oldRank 0

/-- What `arena_challenge` does to `history_rank` after a victory, and what it pays for it; nothing if it
raises. -/
def recordRank (historyRank fightRank : ℕ) : ℕ × Option ℤ :=
  if fightRank < historyRank then (fightRank, (table.recordReward historyRank fightRank).map Prod.fst)
  else (historyRank, some 0)

/-- Victories against roles of these ranks: the best rank after them and the sum of what is paid. -/
def recordRanks : ℕ → List ℕ → ℕ × Option ℤ
  | historyRank, [] => (historyRank, some 0)
  | historyRank, fightRank :: ranks =>
      let first := table.recordRank historyRank fightRank
      let rest := recordRanks first.1 ranks
      (rest.1, first.2.bind fun reward => rest.2.map fun rewards => reward + rewards)

end ArenaTable

variable {data : ArenaData} {rows : List ArenaData} {id start : ℕ}

section
variable (contiguous : Contiguous id start rows)
include contiguous

theorem Contiguous.start_le (mem : data ∈ rows) : start ≤ data.rankRange.1 := by
  induction rows generalizing id start with
  | nil => cases mem
  | cons first rest induction =>
      obtain ⟨-, first_start, filled, later⟩ := contiguous
      rcases List.mem_cons.mp mem with rfl | later_mem
      · exact first_start.ge
      · exact Nat.le_trans (Nat.le_succ_of_le filled) (induction later later_mem)

theorem Contiguous.find (mem : data ∈ rows) {rank : ℕ} (covers : data.Covers rank) :
    rows.find? (fun data => data.Covers rank) = some data := by
  induction rows generalizing id start with
  | nil => cases mem
  | cons first rest induction =>
      obtain ⟨-, first_start, filled, later⟩ := contiguous
      rcases List.mem_cons.mp mem with rfl | later_mem
      · exact List.find?_cons_of_pos (decide_eq_true covers)
      · have above : first.rankRange.2 + 1 ≤ data.rankRange.1 := later.start_le later_mem
        have outside : ¬ first.Covers rank :=
          fun inside => absurd (above.trans covers.1) (Nat.not_le.mpr (Nat.lt_succ_of_le inside.2))
        rw [List.find?_cons_of_neg (by simpa using outside)]
        exact induction later later_mem

theorem Contiguous.id_eq {index : ℕ} (found : rows[index]? = some data) : data.id = id + index := by
  induction rows generalizing id start index with
  | nil => cases found
  | cons first rest induction =>
      obtain ⟨first_id, -, -, later⟩ := contiguous
      cases index with
      | zero =>
          cases found
          exact first_id
      | succ index =>
          rw [induction later found]
          omega

/-- A range starts where the one before it ends, and the first one at `start`. -/
theorem Contiguous.before {index : ℕ} (found : rows[index]? = some data) :
    data.rankRange.1 ≤ data.rankRange.2 ∧
      match index with
      | 0 => data.rankRange.1 = start
      | index + 1 => ∃ below, rows[index]? = some below ∧
          data.rankRange.1 = below.rankRange.2 + 1 := by
  induction rows generalizing id start index with
  | nil => cases found
  | cons first rest induction =>
      obtain ⟨-, first_start, filled, later⟩ := contiguous
      cases index with
      | zero =>
          cases found
          exact ⟨first_start ▸ filled, first_start⟩
      | succ index =>
          obtain ⟨ordered, below⟩ := induction later found
          refine ⟨ordered, ?_⟩
          cases index with
          | zero => exact ⟨first, rfl, below⟩
          | succ index => exact below

end

namespace ArenaTable

variable (table : ArenaTable)

/-- The rate at which a rank is paid: that of its own range. -/
def rate (rank : ℕ) : ℤ :=
  ((table.getArenaConfig rank).map fun data => (data.newRankReward : ℤ)).getD 0

theorem rate_nonneg (rank : ℕ) : 0 ≤ table.rate rank := by
  unfold rate
  cases table.getArenaConfig rank with
  | none => exact le_rfl
  | some data => exact Int.natCast_nonneg data.newRankReward

variable {table}

theorem getArenaConfig_eq {data : ArenaData} (mem : data ∈ table.rows) {rank : ℕ}
    (covers : data.Covers rank) : table.getArenaConfig rank = some data :=
  table.contiguous.find mem covers

theorem rate_eq {data : ArenaData} (mem : data ∈ table.rows) {rank : ℕ}
    (covers : data.Covers rank) : table.rate rank = data.newRankReward := by
  rw [rate, getArenaConfig_eq mem covers]
  rfl

theorem sum_rate {data : ArenaData} (mem : data ∈ table.rows) {low high : ℕ}
    (first : data.rankRange.1 ≤ low) (last : high ≤ data.rankRange.2 + 1) (ordered : low ≤ high) :
    ∑ rank ∈ Finset.Ico low high, table.rate rank =
      data.newRankReward * ((high : ℤ) - low) := by
  have constant : ∀ rank ∈ Finset.Ico low high, table.rate rank = data.newRankReward := by
    intro rank mem_range
    obtain ⟨above, below⟩ := Finset.mem_Ico.mp mem_range
    exact rate_eq mem ⟨first.trans above, Nat.le_of_lt_succ (below.trans_le last)⟩
  rw [Finset.sum_congr rfl constant, Finset.sum_const, Nat.card_Ico, nsmul_eq_mul,
    Nat.cast_sub ordered]
  ring

/-- The loop pays every rank that is passed at the rate of its own range, and stops at the range of the
new rank. -/
theorem recordLoop_eq {newRank : ℕ} (positive : 1 ≤ newRank) {index : ℕ} {data : ArenaData}
    (found : table.rows[index]? = some data) {oldRank : ℕ} (improving : newRank < oldRank)
    (first : data.rankRange.1 ≤ oldRank) (last : oldRank ≤ data.rankRange.2 + 1) (rewardNum : ℤ) :
    ∃ config, table.getArenaConfig newRank = some config ∧
      table.recordLoop newRank (index + 1) oldRank rewardNum =
        some (rewardNum + ∑ rank ∈ Finset.Ico newRank oldRank, table.rate rank, some config) := by
  have mem : data ∈ table.rows := List.mem_of_getElem? found
  induction index generalizing data oldRank rewardNum with
  | zero =>
      obtain ⟨-, start⟩ := table.contiguous.before found
      have covers : data.Covers newRank :=
        ⟨start ▸ positive, Nat.le_of_lt_succ (improving.trans_le last)⟩
      refine ⟨data, getArenaConfig_eq mem covers, ?_⟩
      simp only [recordLoop, found]
      rw [if_pos covers, sum_rate mem covers.1 last improving.le]
  | succ index induction =>
      by_cases covers : data.Covers newRank
      · refine ⟨data, getArenaConfig_eq mem covers, ?_⟩
        simp only [recordLoop, found]
        rw [if_pos covers, sum_rate mem covers.1 last improving.le]
      · obtain ⟨ordered, below, below_found, adjoining⟩ := table.contiguous.before found
        have passed : newRank < data.rankRange.1 := by
          by_contra reached
          exact covers ⟨Nat.not_lt.mp reached, Nat.le_of_lt_succ (improving.trans_le last)⟩
        obtain ⟨below_ordered, -⟩ := table.contiguous.before below_found
        obtain ⟨config, config_found, rest⟩ := induction below_found passed
          (below_ordered.trans (Nat.le_of_lt (Nat.lt_of_succ_le adjoining.ge))) adjoining.le
          (rewardNum + data.newRankReward * ((oldRank : ℤ) - data.rankRange.1))
          (List.mem_of_getElem? below_found)
        refine ⟨config, config_found, ?_⟩
        rw [recordLoop, found]
        simp only
        rw [if_neg covers, rest, ← Finset.sum_Ico_consecutive _ passed.le first,
          sum_rate mem le_rfl last first]
        ring_nf

theorem recordReward_eq {oldRank newRank : ℕ} (positive : 1 ≤ newRank)
    (improving : newRank < oldRank) {config : ArenaData}
    (known : table.getArenaConfig oldRank = some config) :
    ∃ stop, table.getArenaConfig newRank = some stop ∧
      table.recordReward oldRank newRank =
        some (∑ rank ∈ Finset.Ico newRank oldRank, table.rate rank, some stop) := by
  have mem : config ∈ table.rows := List.mem_of_find?_eq_some known
  have covers : config.Covers oldRank := by simpa using List.find?_some known
  obtain ⟨index, inside, at_index⟩ := List.getElem_of_mem mem
  have found : table.rows[index]? = some config := by
    rw [List.getElem?_eq_getElem inside, at_index]
  have id_eq := table.contiguous.id_eq found
  obtain ⟨stop, stop_found, paid⟩ := recordLoop_eq positive found improving covers.1
    (Nat.le_succ_of_le covers.2) 0
  refine ⟨stop, stop_found, ?_⟩
  rw [recordReward, known]
  simp only
  rw [id_eq, Nat.add_comm 1 index, paid, zero_add]

def lastRank (best : ℕ) (ranks : List ℕ) : ℕ :=
  (best :: ranks).getLast (List.cons_ne_nil best ranks)

theorem recordRanks_fst {best : ℕ} {ranks : List ℕ} (improving : (best :: ranks).IsChain (· > ·)) :
    (table.recordRanks best ranks).1 = lastRank best ranks := by
  induction ranks generalizing best with
  | nil => rfl
  | cons first ranks induction =>
      obtain ⟨better, later⟩ := List.isChain_cons_cons.mp improving
      have recorded : (table.recordRank best first).1 = first := by
        rw [recordRank, if_pos better]
      change (table.recordRanks (table.recordRank best first).1 ranks).1 = lastRank first ranks
      rw [recorded, induction later]

/-- From a rank of the table, a sequence of records pays every rank that is passed once. -/
theorem recordRanks_eq {best : ℕ} {ranks : List ℕ} (positive : ∀ rank ∈ ranks, 1 ≤ rank)
    (improving : (best :: ranks).IsChain (· > ·)) {config : ArenaData}
    (known : table.getArenaConfig best = some config) :
    lastRank best ranks ≤ best ∧ table.recordRanks best ranks = (lastRank best ranks,
      some (∑ rank ∈ Finset.Ico (lastRank best ranks) best, table.rate rank)) := by
  induction ranks generalizing best config with
  | nil =>
      refine ⟨le_rfl, ?_⟩
      change (best, some 0) = (best, some (∑ rank ∈ Finset.Ico best best, table.rate rank))
      rw [Finset.Ico_self, Finset.sum_empty]
  | cons first ranks induction =>
      obtain ⟨better, later⟩ := List.isChain_cons_cons.mp improving
      obtain ⟨stop, stop_found, reward⟩ :=
        recordReward_eq (positive first List.mem_cons_self) better known
      have recorded : table.recordRank best first =
          (first, some (∑ rank ∈ Finset.Ico first best, table.rate rank)) := by
        rw [recordRank, if_pos better, reward]
        rfl
      have rest_positive : ∀ rank ∈ ranks, 1 ≤ rank :=
        fun rank mem => positive rank (List.mem_cons_of_mem first mem)
      obtain ⟨last_le, rest⟩ := induction rest_positive later stop_found
      have same_last : lastRank best (first :: ranks) = lastRank first ranks := rfl
      rw [same_last]
      refine ⟨last_le.trans better.le, ?_⟩
      simp only [recordRanks, recorded, rest, Option.bind_some, Option.map_some]
      rw [← Finset.sum_Ico_consecutive _ last_le better.le, Int.add_comm]

theorem recordRanks_raises {best first : ℕ} (ranks : List ℕ) (better : first < best)
    (unknown : table.getArenaConfig best = none) :
    (table.recordRanks best (first :: ranks)).2 = none := by
  have recorded : table.recordRank best first = (first, none) := by
    rw [recordRank, if_pos better, recordReward, unknown]
    rfl
  simp only [recordRanks, recorded, Option.bind_none]

/-- The record rewards of a sequence of records are those of its first and last rank, and every single
reward is that of the ranks that are passed, each at the rate of its own range. -/
theorem record_rewards_path_independent (table : ArenaTable) (best : ℕ) (ranks : List ℕ)
    (positive : ∀ rank ∈ ranks, 1 ≤ rank) (improving : (best :: ranks).IsChain (· > ·)) :
    table.recordRanks best ranks = table.recordRanks best [lastRank best ranks] ∧
      ∀ oldRank newRank config, 1 ≤ newRank → newRank < oldRank →
        table.getArenaConfig oldRank = some config →
        ∃ reward stop, table.recordReward oldRank newRank = some (reward, some stop) ∧
          table.getArenaConfig newRank = some stop ∧ 0 ≤ reward ∧
          reward = ∑ rank ∈ Finset.Ico newRank oldRank, table.rate rank := by
  refine ⟨?_, fun oldRank newRank config positive better known => ?_⟩
  · cases ranks with
    | nil =>
        have kept : table.recordRank best best = (best, some 0) := by
          rw [recordRank, if_neg (Nat.lt_irrefl best)]
        change (best, some 0) = table.recordRanks best [best]
        simp only [recordRanks, kept, Option.bind_some, Option.map_some, Int.add_zero]
    | cons first ranks =>
        have better := (List.isChain_cons_cons.mp improving).1
        have last_mem : lastRank best (first :: ranks) ∈ first :: ranks := List.getLast_mem _
        have last_better : lastRank best (first :: ranks) < best :=
          (List.pairwise_cons.mp improving.pairwise).1 _ last_mem
        have single : [best, lastRank best (first :: ranks)].IsChain (· > ·) :=
          List.isChain_cons_cons.mpr ⟨last_better, .singleton _⟩
        cases known : table.getArenaConfig best with
        | none =>
            apply Prod.ext
            · rw [recordRanks_fst improving, recordRanks_fst single]
              rfl
            · rw [recordRanks_raises ranks better known, recordRanks_raises [] last_better known]
        | some config =>
            have single_positive : ∀ rank ∈ [lastRank best (first :: ranks)], 1 ≤ rank := by
              intro rank mem
              cases List.mem_singleton.mp mem
              exact positive _ last_mem
            rw [(recordRanks_eq positive improving known).2,
              (recordRanks_eq single_positive single known).2]
            rfl
  · obtain ⟨stop, stop_found, paid⟩ := recordReward_eq positive better known
    exact ⟨_, stop, paid, stop_found, Finset.sum_nonneg fun rank _ => table.rate_nonneg rank, rfl⟩

def firstRanges : ArenaTable where
  rows := [⟨1, (1, 1), 100⟩, ⟨2, (2, 5), 20⟩, ⟨3, (6, 20), 10⟩]
  contiguous := by decide

theorem record_rewards_path_independent_firstRanges :
    firstRanges.recordRanks 9 [6, 5, 1] = firstRanges.recordRanks 9 [1] ∧
      ∃ reward stop, firstRanges.recordReward 6 5 = some (reward, some stop) ∧
        firstRanges.getArenaConfig 5 = some stop ∧ 0 ≤ reward ∧
        reward = ∑ rank ∈ Finset.Ico 5 6, firstRanges.rate rank := by
  have independent := record_rewards_path_independent firstRanges 9 [6, 5, 1] (by decide) (by decide)
  exact ⟨independent.1, independent.2 6 5 ⟨3, (6, 20), 10⟩ (by decide) (by decide) (by decide)⟩

end ArenaTable

end UEServer.Arena
