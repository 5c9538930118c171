import UEServer.DynastyChallenge.Basic
import UEServer.Rank.Update

/-!
# Boxes and the ranking

The boxes depend on what the members' `stage_box` remember, and the ranking on the members' greatest
hurts.  This file says what both are like, and what a change of either keeps.
-/

namespace UEServer.DynastyChallenge

open Rank

variable {υ : Type*} {config : Config}

/-- The janitor and the place of a box that has been given. -/
def Given.place (given : Given υ) : ℕ × ℕ × ℕ := (given.stage, given.janitor, given.index)

/-- The role and the janitor of a box that has been given. -/
def Given.claim (given : Given υ) : υ × ℕ × ℕ := (given.uuid, given.stage, given.janitor)

/-- Every box is given once, every role gets one box of a janitor, and the ranking is in order, has
current members only, and can be asked for. -/
structure Good (state : State υ) : Prop where
  places : (state.given.map Given.place).Nodup
  claims : (state.given.map Given.claim).Nodup
  sorted : Descending state.maxHurt state.hurtRank.list
  /-- The ranks are the positions, and nobody is ranked twice. -/
  inOrder : state.hurtRank.InOrder
  current : ∀ uuid ∈ state.hurtRank.list, (state.memberDict uuid).isSome
  asked : ∀ uuid, (state.memberDict uuid).isSome → (state.getDynastyChallengeRank uuid).isSome

/-- What the `stage_box` of each member knows of a stage. -/
def State.stageBox (state : State υ) (uuid : υ) (stage : ℕ) : Option (ℕ → Bool) :=
  (state.memberDict uuid).bind fun member => member.stageBox stage

def State.best (state : State υ) (uuid : υ) : Option (Option ℚ) :=
  (state.memberDict uuid).map MemberInfo.maxChallengeHurt

def State.rewards (state : State υ) (key : ℕ × ℕ) : Option (List Box) :=
  (state.stageDict key).map JanitorInfo.rewardList

/-- The boxes that have been given are marked and remembered. -/
structure Boxes (given : List (Given υ)) (currStage : ℕ) (rewards : ℕ × ℕ → Option (List Box))
    (stageBox : υ → ℕ → Option (ℕ → Bool)) : Prop where
  places : (given.map Given.place).Nodup
  claims : (given.map Given.claim).Nodup
  built : ∀ key, rewards key ≠ none → key.1 ≤ currStage
  known : ∀ one ∈ given, one.stage ≤ currStage
  marked : ∀ one ∈ given, ∃ boxes ∈ rewards (one.stage, one.janitor), ∃ box,
    boxes[one.index]? = some box ∧ box.roleName.isSome
  /-- A member that knows the stage knows that it has got a box of the janitor. -/
  remembered : ∀ one ∈ given, ∀ taken ∈ stageBox one.uuid one.stage, taken one.janitor = true

/-- The ranking is in order, and is that of the members' greatest hurts. -/
structure Ranking (hurtRank : Ranked υ) (roleDict : υ → Bool) (maxHurt : υ → ℚ)
    (best : υ → Option (Option ℚ)) : Prop where
  sorted : Descending maxHurt hurtRank.list
  /-- The ranks are the positions, and nobody is ranked twice. -/
  inOrder : hurtRank.InOrder
  listed : ∀ uuid, roleDict uuid = true ↔ uuid ∈ hurtRank.list
  ranked : ∀ uuid ∈ hurtRank.list, best uuid = some (some (maxHurt uuid))

/-- The boxes and the ranking are as they should be. -/
structure Kept (state : State υ) : Prop where
  boxes : Boxes state.given state.currStage state.rewards state.stageBox
  ranking : Ranking state.hurtRank state.challengeRoleDict state.maxHurt state.best

theorem isSome_mapM {α β : Type*} {f : α → Option β} {list : List α}
    (each : ∀ value ∈ list, (f value).isSome) : (list.mapM f).isSome := by
  induction list with
  | nil => rfl
  | cons first rest ih =>
      obtain ⟨head, head_eq⟩ := Option.isSome_iff_exists.mp (each first List.mem_cons_self)
      obtain ⟨tail, tail_eq⟩ := Option.isSome_iff_exists.mp
        (ih fun value mem => each value (List.mem_cons_of_mem _ mem))
      simp [List.mapM_cons, head_eq, tail_eq]

theorem Kept.good {state : State υ} (kept : Kept state) : Good state := by
  have ranking := kept.ranking
  have current : ∀ uuid ∈ state.hurtRank.list, (state.memberDict uuid).isSome := by
    intro uuid mem
    obtain ⟨member, found, -⟩ := Option.map_eq_some_iff.mp (ranking.ranked uuid mem)
    exact Option.isSome_of_eq_some found
  refine ⟨kept.boxes.places, kept.boxes.claims, ranking.sorted, ranking.inOrder, current, ?_⟩
  intro uuid member
  have row : ∀ other, (state.memberDict other).isSome → (state.rankRow other).isSome := by
    intro other found
    rwa [State.rankRow, Option.isSome_map]
  have rows : (state.hurtRank.list.mapM state.rankRow).isSome :=
    isSome_mapM fun other mem => row other (current other mem)
  obtain ⟨rankList, rows⟩ := Option.isSome_iff_exists.mp rows
  obtain ⟨selfRank, self⟩ := Option.isSome_iff_exists.mp (row uuid member)
  simp only [State.getDynastyChallengeRank, rows, self]
  split <;> rfl

section

variable {given : List (Given υ)} {currStage : ℕ} {rewards : ℕ × ℕ → Option (List Box)}
  {stageBox : υ → ℕ → Option (ℕ → Bool)}

theorem Boxes.remember (boxes : Boxes given currStage rewards stageBox)
    {later : υ → ℕ → Option (ℕ → Bool)}
    (remembered : ∀ one ∈ given, ∀ taken ∈ later one.uuid one.stage, taken one.janitor = true) :
    Boxes given currStage rewards later :=
  { boxes with remembered := remembered }

theorem nodup_concat {α β : Type*} {f : α → β} {list : List α} {one : α}
    (nodup : (list.map f).Nodup) (new : ∀ other ∈ list, f other ≠ f one) :
    (list.map f ++ [one].map f).Nodup := by
  refine List.nodup_append'.mpr ⟨nodup, List.nodup_singleton _, fun value mem only => ?_⟩
  obtain ⟨other, other_mem, rfl⟩ := List.mem_map.mp mem
  exact new other other_mem (List.mem_singleton.mp only)

theorem Boxes.unlock (boxes : Boxes given currStage rewards stageBox)
    {later : ℕ × ℕ → Option (List Box)} {knows : υ → ℕ → Option (ℕ → Bool)}
    (old : ∀ key : ℕ × ℕ, key.1 ≠ currStage + 1 → later key = rewards key)
    (remembers : ∀ uuid stage, stage ≠ currStage + 1 → knows uuid stage = stageBox uuid stage) :
    Boxes given (currStage + 1) later knows := by
  have other : ∀ one ∈ given, one.stage ≠ currStage + 1 := by
    intro one mem next
    have known := boxes.known one mem
    omega
  refine ⟨boxes.places, boxes.claims, ?_, ?_, ?_, ?_⟩
  · intro key present
    by_cases next : key.1 = currStage + 1
    · exact next.le
    · rw [old key next] at present
      exact Nat.le_succ_of_le (boxes.built key present)
  · exact fun one mem => Nat.le_succ_of_le (boxes.known one mem)
  · intro one mem
    rw [old _ (other one mem)]
    exact boxes.marked one mem
  · intro one mem
    rw [remembers _ _ (other one mem)]
    exact boxes.remembered one mem

variable [DecidableEq υ]

/-- A box that has no name on it is given to a member that remembers no box of the janitor. -/
theorem Boxes.give (boxes : Boxes given currStage rewards stageBox) {uuid : υ} {stage id index : ℕ}
    {list : List Box} {box : Box} {taken : ℕ → Bool} (name : String)
    (found : rewards (stage, id) = some list)
    (box_found : list[index]? = some box) (free : box.roleName = none)
    (knows : stageBox uuid stage = some taken) (untaken : taken id = false) :
    Boxes (given ++ [⟨uuid, stage, id, index, box.value⟩]) currStage
      (Function.update rewards (stage, id)
        (some (list.set index { box with roleName := some name })))
      (Function.update stageBox uuid
        (Function.update (stageBox uuid) stage (some (Function.update taken id true)))) := by
  have new_place : ∀ one ∈ given, one.place ≠ (stage, id, index) := by
    rintro ⟨_, _, _, _, _⟩ mem same
    obtain ⟨rfl, rfl, rfl⟩ := same
    obtain ⟨other, other_found, other_box, other_box_found, name⟩ := boxes.marked _ mem
    cases found.symm.trans other_found
    cases box_found.symm.trans other_box_found
    simp [free] at name
  have new_claim : ∀ one ∈ given, one.claim ≠ (uuid, stage, id) := by
    rintro ⟨_, _, _, _, _⟩ mem same
    obtain ⟨rfl, rfl, rfl⟩ := same
    exact absurd (boxes.remembered _ mem taken knows) (by simp [untaken])
  have reached : stage ≤ currStage := boxes.built (stage, id) (by simp [found])
  refine ⟨?_, ?_, ?_, ?_, ?_, ?_⟩
  · rw [List.map_append]
    exact nodup_concat boxes.places new_place
  · rw [List.map_append]
    exact nodup_concat boxes.claims new_claim
  · intro key present
    by_cases same : key = (stage, id)
    · rw [same]
      exact reached
    · rw [Function.update_of_ne same] at present
      exact boxes.built key present
  · intro one mem
    rcases List.mem_append.mp mem with old | new
    · exact boxes.known one old
    · rwa [List.mem_singleton.mp new]
  · intro one mem
    rcases List.mem_append.mp mem with old | new
    · obtain ⟨other, other_found, other_box, other_box_found, marked⟩ := boxes.marked one old
      by_cases same : (one.stage, one.janitor) = (stage, id)
      · rw [same] at other_found ⊢
        cases found.symm.trans other_found
        have apart : index ≠ one.index := by
          rintro rfl
          obtain ⟨rfl, rfl⟩ := same
          exact new_place one old rfl
        refine ⟨_, Function.update_self _ _ _, other_box, ?_, marked⟩
        rw [List.getElem?_set_ne apart]
        exact other_box_found
      · rw [Function.update_of_ne same]
        exact ⟨other, other_found, other_box, other_box_found, marked⟩
    · cases List.mem_singleton.mp new
      refine ⟨_, Function.update_self _ _ _, { box with roleName := some name }, ?_, rfl⟩
      exact List.getElem?_set_self (List.getElem?_eq_some_iff.mp box_found).1
  · intro one mem other other_found
    rcases List.mem_append.mp mem with old | new
    · by_cases same_uuid : one.uuid = uuid
      · rw [same_uuid, Function.update_self] at other_found
        by_cases same_stage : one.stage = stage
        · rw [same_stage, Function.update_self] at other_found
          cases other_found
          have knew := boxes.remembered one old taken (by rw [same_uuid, same_stage]; exact knows)
          rw [Function.update_apply, knew, ite_self]
        · rw [Function.update_of_ne same_stage, ← same_uuid] at other_found
          exact boxes.remembered one old other other_found
      · rw [Function.update_of_ne same_uuid] at other_found
        exact boxes.remembered one old other other_found
    · cases List.mem_singleton.mp new
      rw [Function.update_self, Function.update_self] at other_found
      cases other_found
      exact Function.update_self _ _ _

end

section

variable [DecidableEq υ] {hurtRank : Ranked υ} {roleDict : υ → Bool} {maxHurt : υ → ℚ}
  {best : υ → Option (Option ℚ)}

/-- An object with a new hurt that is not smaller than those after it is moved to its place. -/
theorem raised_sorted {state : Ranked υ} {uuid : υ} {hurt : ℚ} {front back : List υ}
    (inOrder : state.InOrder) (list : state.list = front ++ uuid :: back)
    (sorted : Descending maxHurt (front ++ back)) (below : ∀ other ∈ back, maxHurt other ≤ hurt) :
    ∃ after, raise (Function.update maxHurt uuid hurt) state uuid (front.length + 1) = some after ∧
      Descending (Function.update maxHurt uuid hurt) after.list ∧ after.InOrder ∧
        ∀ other, other ∈ after.list ↔ other ∈ state.list := by
  have nodup := inOrder.nodup
  rw [list] at nodup
  have absent : uuid ∉ front ++ back := (List.nodup_cons.mp (List.perm_middle.nodup_iff.mp nodup)).1
  obtain ⟨after, raised, moved⟩ := raise_moved (Function.update maxHurt uuid hurt) inOrder list
  refine ⟨after, raised, ?_, moved.inOrder, fun other => moved.perm.mem_iff⟩
  rw [moved.list]
  refine descending_raised (descending_update absent sorted) fun other mem => ?_
  rw [Function.update_self, Function.update_of_ne (mem_ne absent (List.mem_append_right _ mem))]
  exact below other mem

theorem Ranking.add (ranking : Ranking hurtRank roleDict maxHurt best) {uuid : υ} {hurt : ℚ}
    (greater : uuid ∈ hurtRank.list → maxHurt uuid ≤ hurt) :
    ∃ sorted, updateSortedList (Function.update maxHurt uuid hurt)
        (if roleDict uuid then hurtRank
          else { hurtRank with rank := Function.update hurtRank.rank uuid none }) uuid true =
            some sorted ∧
      Ranking sorted (Function.update roleDict uuid true) (Function.update maxHurt uuid hurt)
        (Function.update best uuid (some (some hurt))) := by
  have ends : ∀ {after : Ranked υ}, Descending (Function.update maxHurt uuid hurt) after.list →
      after.InOrder → (∀ other, other ∈ after.list ↔ other = uuid ∨ other ∈ hurtRank.list) →
        Ranking after (Function.update roleDict uuid true) (Function.update maxHurt uuid hurt)
          (Function.update best uuid (some (some hurt))) := by
    intro after sorted inOrder mem_iff
    refine ⟨sorted, inOrder, fun other => ?_, fun other mem => ?_⟩
    · by_cases same : other = uuid
      · subst same
        simp [mem_iff]
      · rw [Function.update_of_ne same, ranking.listed, mem_iff, or_iff_right same]
    · by_cases same : other = uuid
      · subst same
        rw [Function.update_self, Function.update_self]
      · rw [Function.update_of_ne same, Function.update_of_ne same]
        exact ranking.ranked other (((mem_iff other).mp mem).resolve_left same)
  by_cases listed : uuid ∈ hurtRank.list
  · obtain ⟨front, back, list⟩ := List.append_of_mem listed
    have sorted := ranking.sorted
    rw [list] at sorted
    have below : ∀ other ∈ back, maxHurt other ≤ hurt := by
      intro other mem
      have before := (List.pairwise_cons.mp (List.pairwise_append.mp sorted).2.1).1 other mem
      exact before.trans (greater listed)
    obtain ⟨after, raised, order⟩ := raised_sorted ranking.inOrder list
      (sorted.sublist (by simp)) below
    refine ⟨after, ?_, ends order.1 order.2.1 fun other => ?_⟩
    · rw [if_pos ((ranking.listed uuid).mpr listed), updateSortedList,
        ranking.inOrder.rank_self list]
      exact raised
    · rw [order.2.2, iff_or_self]
      rintro rfl
      exact listed
  · have fresh : (⟨hurtRank.list, Function.update hurtRank.rank uuid none⟩ : Ranked υ).InOrder :=
      ⟨ranking.inOrder.nodup, ranking.inOrder.ranked.update listed none⟩
    obtain ⟨after, raised, order⟩ := raised_sorted (append_inOrder fresh listed) rfl
      (by rw [List.append_nil]; exact ranking.sorted) (fun other mem => absurd mem List.not_mem_nil)
    refine ⟨after, ?_, ends order.1 order.2.1 fun other => ?_⟩
    · have unranked : (⟨hurtRank.list, Function.update hurtRank.rank uuid none⟩ : Ranked υ).rank uuid =
          none := Function.update_self _ _ _
      rw [if_neg (mt (ranking.listed uuid).mp listed), updateSortedList, unranked]
      exact raised
    · rw [order.2.2, Ranked.append, List.mem_append, List.mem_singleton, or_comm]

end

end UEServer.DynastyChallenge
