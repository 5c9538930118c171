import UEServer.DynastyChallenge.Fair

/-!
# When a challenge is fair

The boxes are given fairly, and the ranking is right, in every period in which nobody who is ranked leaves,
and nobody who has got a box of the current stage comes back.
-/

namespace UEServer.DynastyChallenge

open Execution Rank

variable {υ : Type*} [DecidableEq υ] {config : Config} {state after : State υ}

/-- A member that leaves is not ranked, or the last one; and a role that joins has got no box of the
current stage. -/
def Permitted (state : State υ) : Event υ → Prop
  | .leave uuid => state.memberCount ≤ 1 ∨ uuid ∉ state.hurtRank.list
  | .join uuid _ => ∀ one ∈ state.given, one.uuid = uuid → one.stage ≠ state.currStage
  | _ => True

instance (state : State υ) : (event : Event υ) → Decidable (Permitted state event)
  | .leave uuid => inferInstanceAs (Decidable (_ ≤ _ ∨ uuid ∉ state.hurtRank.list))
  | .join uuid _ => inferInstanceAs (Decidable
      (∀ one ∈ state.given, one.uuid = uuid → one.stage ≠ state.currStage))
  | .challenge _ _ _ _ => isTrue trivial
  | .janitorBox _ _ _ _ => isTrue trivial
  | .allBox _ _ => isTrue trivial
  | .recover _ => isTrue trivial
  | .close => isTrue trivial

theorem stageBox_update (state : State υ) (uuid : υ) (member : Option MemberInfo) :
    (fun other stage => (Function.update state.memberDict uuid member other).bind
      fun one => one.stageBox stage) =
        Function.update state.stageBox uuid fun stage => member.bind fun one => one.stageBox stage :=
  Function.comp_update (fun (found : Option MemberInfo) stage => found.bind fun one =>
    one.stageBox stage) state.memberDict uuid member

theorem best_update (state : State υ) (uuid : υ) (member : Option MemberInfo) :
    (fun other => (Function.update state.memberDict uuid member other).map
      MemberInfo.maxChallengeHurt) =
        Function.update state.best uuid (member.map MemberInfo.maxChallengeHurt) :=
  Function.comp_update (Option.map MemberInfo.maxChallengeHurt) state.memberDict uuid member

omit [DecidableEq υ] in
theorem rewards_update (state : State υ) (key : ℕ × ℕ) (info : JanitorInfo) :
    (fun other => (Function.update state.stageDict key (some info) other).map
      JanitorInfo.rewardList) = Function.update state.rewards key (some info.rewardList) :=
  Function.comp_update (Option.map JanitorInfo.rewardList) state.stageDict key (some info)

variable {member : MemberInfo} {uuid : υ}

omit [DecidableEq υ] in
theorem stageBox_of_member
    (found : state.memberDict uuid = some member) : state.stageBox uuid = member.stageBox := by
  funext stage
  rw [State.stageBox, found]
  rfl

theorem stageBox_same {member later : MemberInfo}
    (found : state.memberDict uuid = some member) (same : later.stageBox = member.stageBox) :
    (fun other stage => (Function.update state.memberDict uuid (some later) other).bind
      fun one => one.stageBox stage) = state.stageBox := by
  rw [stageBox_update, Function.update_eq_self_iff, stageBox_of_member found]
  exact same

omit [DecidableEq υ] in
theorem best_map (state : State υ) (change : υ → MemberInfo → MemberInfo)
    (same : ∀ uuid member, (change uuid member).maxChallengeHurt = member.maxChallengeHurt) :
    (fun uuid => ((state.memberDict uuid).map (change uuid)).map MemberInfo.maxChallengeHurt) =
      state.best := by
  funext uuid
  rw [Option.map_map]
  exact Option.map_congr fun member _ => same uuid member

variable {info : JanitorInfo}

theorem fight_boxes (kept : Kept state) {id : ℕ} (hpDict : List ℚ) (found : state.memberDict uuid = some member)
    (present : state.stageDict (state.currStage, id) = some info) :
    Boxes state.given state.currStage (state.fight uuid member id info hpDict).rewards
      (state.fight uuid member id info hpDict).stageBox := by
  have rewards : (state.fight uuid member id info hpDict).rewards = state.rewards := by
    refine (rewards_update state _ _).trans (Function.update_eq_self_iff.mpr ?_)
    rw [State.rewards, present]
    rfl
  have known : (state.fight uuid member id info hpDict).stageBox = state.stageBox :=
    stageBox_same found rfl
  rw [rewards, known]
  exact kept.boxes

theorem fight_kept (kept : Kept state) {id : ℕ} {hpDict : List ℚ} (found : state.memberDict uuid = some member)
    (present : state.stageDict (state.currStage, id) = some info)
    (less : ¬ member.Best (info.hp - hpDict.sum)) :
    Kept (state.fight uuid member id info hpDict) := by
  refine ⟨fight_boxes kept hpDict found present, ?_⟩
  have best : (state.fight uuid member id info hpDict).best = state.best := by
    refine (best_update state _ _).trans (Function.update_eq_self_iff.mpr ?_)
    rw [State.best, found, Option.map_some, if_neg less]
    rfl
  rw [best]
  exact kept.ranking

theorem fight_ranked (kept : Kept state) {id : ℕ} {hpDict : List ℚ} (found : state.memberDict uuid = some member)
    (present : state.stageDict (state.currStage, id) = some info)
    (greatest : member.Best (info.hp - hpDict.sum)) :
    ∃ ranked, (state.fight uuid member id info hpDict).addChallengeHurtRank uuid
      (info.hp - hpDict.sum) = some ranked ∧ Kept ranked := by
  have boxes := fight_boxes kept hpDict found present
  have greater : uuid ∈ state.hurtRank.list → state.maxHurt uuid ≤ info.hp - hpDict.sum := by
    intro mem
    have best := kept.ranking.ranked uuid mem
    rw [State.best, found, Option.map_some] at best
    exact (greatest _ (Option.some.inj best)).le
  obtain ⟨sorted, updated, ranking⟩ := kept.ranking.add greater
  have best : (state.fight uuid member id info hpDict).best =
      Function.update state.best uuid (some (some (info.hp - hpDict.sum))) := by
    refine (best_update state _ _).trans ?_
    rw [Option.map_some, if_pos greatest]
  refine ⟨_, congrArg (Option.map _) updated, ⟨boxes, ?_⟩⟩
  change Ranking sorted _ _ (state.fight uuid member id info hpDict).best
  rw [best]
  exact ranking

omit [DecidableEq υ] in
theorem unlock_kept (kept : Kept state) (draws : ℕ → List ℕ) :
    Kept (state.unlockChallengeStage config draws) := by
  unfold State.unlockChallengeStage
  split
  · dsimp only
    split
    · exact ⟨kept.boxes, kept.ranking⟩
    · refine ⟨kept.boxes.unlock ?_ ?_, ?_⟩
      · intro key other
        unfold State.rewards
        dsimp only
        rw [if_neg other]
      · intro uuid stage other
        unfold State.stageBox
        dsimp only
        cases state.memberDict uuid with
        | none => rfl
        | some member => exact Function.update_of_ne other _ _
      · have best := best_map state (fun _ member => { member with
          stageBox := Function.update member.stageBox (state.currStage + 1)
            (some fun _ => false) }) fun _ _ => rfl
        have ranking := kept.ranking
        rw [← best] at ranking
        exact ranking
  · exact kept

section
variable (kept : Kept state)
include kept

/-- A challenge succeeds or changes nothing, and keeps the boxes and the ranking. -/
theorem challenge_kept {janitorIndex : ℕ} {hpDict : List ℚ} {draws : ℕ → List ℕ}
    (taken : state.dynastyChallengeJanitor config uuid janitorIndex hpDict draws = some after) :
    Kept after := by
  unfold State.dynastyChallengeJanitor at taken
  split at taken
  · cases taken
    exact kept
  split at taken
  · cases taken
    exact kept
  next member found =>
  split at taken
  · cases taken
    exact kept
  split at taken
  · cases taken
    exact kept
  next id _ =>
  split at taken
  · cases taken
  next info present =>
  split at taken
  · cases taken
    exact kept
  have ends : ∀ {ranked : State υ}, Kept ranked →
      Kept (if hpDict.sum ≤ 0 then ranked.unlockChallengeStage config draws else ranked) := by
    intro ranked kept
    split
    · exact unlock_kept kept draws
    · exact kept
  obtain ⟨ranked, fought, rfl⟩ := Option.map_eq_some_iff.mp taken
  split at fought
  · next greatest =>
    obtain ⟨other, added, other_kept⟩ := fight_ranked kept found present greatest
    cases added.symm.trans fought
    exact ends other_kept
  · next less =>
    cases fought
    exact ends (fight_kept kept found present less)

theorem giveBox_kept {stage id index : ℕ} {taken : ℕ → Bool} {box : Box}
    (found : state.memberDict uuid = some member)
    (present : state.stageDict (stage, id) = some info)
    (box_found : info.rewardList[index]? = some box) (free : box.roleName = none)
    (knows : member.stageBox stage = some taken) (untaken : taken id = false) :
    Kept (state.giveBox uuid member stage id info taken index box) := by
  have knows' : state.stageBox uuid stage = some taken := by
    rw [stageBox_of_member found]
    exact knows
  have rewards : state.rewards (stage, id) = some info.rewardList := by
    rw [State.rewards, present]
    rfl
  refine ⟨?_, ?_⟩
  · have boxes := kept.boxes.give member.name rewards box_found free knows' untaken
    rw [stageBox_of_member found] at boxes
    have later_rewards := rewards_update state (stage, id) { info with
      rewardList := info.rewardList.set index { box with roleName := some member.name } }
    have later_known := stageBox_update state uuid (some { member with
      stageBox := Function.update member.stageBox stage (some (Function.update taken id true)) })
    change Boxes _ _ (fun _ => _) (fun _ _ => _)
    exact (later_rewards ▸ later_known ▸ boxes)
  · have best : (state.giveBox uuid member stage id info taken index box).best = state.best := by
      refine (best_update state _ _).trans (Function.update_eq_self_iff.mpr ?_)
      rw [State.best, found]
      rfl
    rw [best]
    exact kept.ranking

theorem janitorBox_kept (uuid : υ) (stage janitorIndex boxIndex : ℕ) :
    Kept (state.getChallengeJanitorBox config uuid stage janitorIndex boxIndex) := by
  unfold State.getChallengeJanitorBox
  split
  · next member id found listed =>
    split
    · exact kept
    next info present =>
    split
    · exact kept
    split
    · exact kept
    next box box_found =>
    split
    · exact kept
    next free =>
    split
    · exact kept
    next taken knows =>
    split
    · exact kept
    next untaken =>
    exact giveBox_kept kept found present box_found (by simpa using free) knows (by simpa using untaken)
  · exact kept

theorem autoBox_kept (uuid : υ) (key : ℕ × ℕ) : Kept (state.autoBox uuid key) := by
  unfold State.autoBox
  split
  · next member info found present =>
    split
    · exact kept
    next taken knows =>
    split
    · next claimed =>
      split
      · exact kept
      next index first =>
      split
      · exact kept
      next box box_found =>
      obtain ⟨bound, free, -⟩ := List.findIdx?_eq_some_iff_getElem.mp first
      have free : box.roleName = none := by
        rw [(List.getElem?_eq_some_iff.mp box_found).2] at free
        simpa using free
      exact giveBox_kept kept found present box_found free knows claimed.2
    · exact kept
  · exact kept

theorem allBox_kept (uuid : υ) (order : List (ℕ × ℕ)) :
    Kept (state.getChallengeAllBox uuid order) := by
  induction order generalizing state with
  | nil => exact kept
  | cons key order ih => exact ih (autoBox_kept kept uuid key)

theorem leave_kept (permitted : state.memberCount ≤ 1 ∨ uuid ∉ state.hurtRank.list) :
    Kept (state.deleteDynastyMember uuid) := by
  unfold State.deleteDynastyMember
  split
  · exact kept
  split
  · exact kept
  split
  · exact ⟨kept.boxes, kept.ranking⟩
  · next others =>
    have unranked := permitted.resolve_left others
    refine ⟨kept.boxes.remember fun one mem taken knows => ?_, kept.ranking.sorted,
      kept.ranking.inOrder, kept.ranking.listed, fun other mem => ?_⟩
    · by_cases same : one.uuid = uuid
      · simp [State.stageBox, same] at knows
      · simp only [State.stageBox, Function.update_of_ne same] at knows
        exact kept.boxes.remembered one mem taken knows
    · have apart : other ≠ uuid := by
        rintro rfl
        exact unranked mem
      simp only [State.best, Function.update_of_ne apart]
      exact kept.ranking.ranked other mem

theorem join_kept (name : String) (outside : state.memberDict uuid = none)
    (permitted : ∀ one ∈ state.given, one.uuid = uuid → one.stage ≠ state.currStage) :
    Kept (state.addDynastyMember config uuid name) := by
  refine ⟨kept.boxes.remember fun one mem taken knows => ?_, kept.ranking.sorted,
    kept.ranking.inOrder, kept.ranking.listed, fun other mem => ?_⟩
  · by_cases same : one.uuid = uuid
    · simp [State.stageBox, State.addDynastyMember, MemberInfo.new, same,
        permitted one mem same] at knows
    · simp only [State.stageBox, State.addDynastyMember, Function.update_of_ne same] at knows
      exact kept.boxes.remembered one mem taken knows
  · have apart : other ≠ uuid := by
      rintro rfl
      have ranked := kept.ranking.ranked other mem
      rw [State.best, outside] at ranked
      cases ranked
    simp only [State.best, State.addDynastyMember, Function.update_of_ne apart]
    exact kept.ranking.ranked other mem

omit [DecidableEq υ] in
theorem recover_kept (more : υ → ℤ) : Kept (state.addChallengeNum more) := by
  refine ⟨?_, ?_⟩
  · have known : (state.addChallengeNum more).stageBox = state.stageBox := by
      funext uuid stage
      simp only [State.addChallengeNum, State.stageBox, Option.bind_map]
      rfl
    rw [known]
    exact kept.boxes
  · have best := best_map state (fun uuid member =>
      { member with challengeNum := member.challengeNum + more uuid }) fun _ _ => rfl
    have ranking := kept.ranking
    rw [← best] at ranking
    exact ranking

end

theorem step_kept {event : Event υ} (kept : Kept state) (permitted : Permitted state event)
    (taken : step config state event = some after) : Kept after := by
  obtain ⟨-, taken⟩ := Option.ite_none_left_eq_some.mp taken
  cases event with
  | challenge uuid janitorIndex hpDict draws => exact challenge_kept kept taken
  | janitorBox uuid stage janitorIndex boxIndex =>
      cases taken
      exact janitorBox_kept kept uuid stage janitorIndex boxIndex
  | allBox uuid order =>
      obtain ⟨-, taken⟩ := Option.ite_none_right_eq_some.mp taken
      cases taken
      exact allBox_kept kept uuid order
  | leave uuid =>
      cases taken
      exact leave_kept kept permitted
  | join uuid name =>
      obtain ⟨outside, taken⟩ := Option.ite_none_right_eq_some.mp taken
      cases taken
      exact join_kept kept name outside permitted
  | recover more =>
      cases taken
      exact recover_kept kept more
  | close =>
      cases taken
      exact ⟨kept.boxes, kept.ranking⟩

omit [DecidableEq υ] in
theorem challengeOpen_kept (draws : ℕ → List ℕ) (names : υ → Option String) (memberCount : ℕ)
    (isApply : Bool) (currStage maxVictoryStage : ℕ) :
    Kept (challengeOpen config draws names memberCount isApply currStage maxVictoryStage) := by
  refine ⟨⟨List.nodup_nil, List.nodup_nil, ?_, nofun, nofun, nofun⟩, List.Pairwise.nil,
    ⟨List.nodup_nil, rankedFrom_nil _ _⟩, ?_, nofun⟩
  · intro key present
    by_contra later
    refine present ?_
    have other : key.1 ≠ currStage := fun same => later same.le
    unfold State.rewards challengeOpen
    dsimp only
    rw [if_neg other]
    rfl
  · intro uuid
    simp [challengeOpen]

/-- In every period in which no ranked member leaves, and no role joins that has got a box of the
current stage, the boxes are given fairly and the ranking is right all the time. -/
theorem good_of_permitted {draws : ℕ → List ℕ} {names : υ → Option String} {memberCount : ℕ}
    {isApply : Bool} {currStage maxVictoryStage : ℕ} {events : List (Event υ)}
    (permitted : Guarded (step config) Permitted
      (challengeOpen config draws names memberCount isApply currStage maxVictoryStage) events) :
    Always (step config) Good
      (challengeOpen config draws names memberCount isApply currStage maxVictoryStage) events :=
  (always_of_guarded step_kept permitted (challengeOpen_kept draws names memberCount isApply currStage
    maxVictoryStage)).mono fun _ kept => kept.good

/-- Two stages with one janitor each, who leaves two boxes. -/
def small : Config := ⟨3, 2, fun _ => [1], fun _ => ⟨[10], [(2, 5)]⟩⟩

/-- Two members, 1 and 2, open the challenge. -/
def opened : State ℕ :=
  challengeOpen small (fun _ => [0, 0])
    (fun uuid => if uuid = 1 then some "one" else if uuid = 2 then some "two" else none) 2 false 1 0

/-- A third role joins; the members defeat the first janitor and claim its boxes, and the third one leaves
without having hurt anybody. -/
def fairRun : List (Event ℕ) :=
  [.challenge 1 0 [6] fun _ => [], .join 3 "three", .challenge 2 0 [0] fun _ => [1, 0],
    .janitorBox 1 1 0 1, .leave 3, .allBox 2 [(2, 1), (1, 1)], .challenge 1 0 [1] fun _ => [],
    .recover fun _ => 1, .close]

theorem good_of_permitted_fairRun :
    Always (step small) Good opened fairRun ∧
      (run (step small) opened fairRun).map
        (fun state => (state.given.map Given.place, state.hurtRank.list)) =
          some ([(1, 1, 1), (1, 1, 0)], [1, 2]) :=
  ⟨good_of_permitted (by decide +kernel), by decide +kernel⟩

def leftRun : List (Event ℕ) := [.challenge 1 0 [6] fun _ => [], .leave 1]

/-- The ranking still has the member that has left. -/
theorem leftRun_not_good : ¬ Always (step small) Good opened leftRun := by
  intro always
  have ends : (run (step small) opened leftRun).map
      (fun state => (state.hurtRank.list, (state.memberDict 1).isSome)) = some ([1], false) := by
    decide +kernel
  obtain ⟨final, execution, same⟩ := Option.map_eq_some_iff.mp ends
  have ranked : final.hurtRank.list = [1] := congrArg Prod.fst same
  have left : (final.memberDict 1).isSome = false := congrArg Prod.snd same
  have current := (always.last execution).current 1 (ranked ▸ List.mem_singleton_self 1)
  cases left.symm.trans current

end UEServer.DynastyChallenge
