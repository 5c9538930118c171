import UEServer.Salon.Basic

/-!
# The rounds of a salon contest

A round gives each member a rank and a score.  All rounds but the last one only add points; the last one
takes a point from each member that has one and gives all of them to its winner.
-/

namespace UEServer.Salon

variable {ν : Type*} [LinearOrder ν]

/-- The comparison of a round looks at the attribute, and then at the grade, the level and the role's level. -/
theorem cmp_eq (attr : AttrDict ν → ν) : cmp (attr, true) =
    TableSort.thenBy (fun a b : Player ν => decide (attr b.info.lover.attrDict < attr a.info.lover.attrDict))
      (TableSort.thenBy (fun a b => decide (b.info.lover.grade < a.info.lover.grade))
        (TableSort.thenBy (fun a b => decide (b.info.lover.level < a.info.lover.level))
          fun a b => decide (b.info.level < a.info.level))) := by
  funext a b
  rw [cmp, TableSort.thenBy]
  rcases lt_trichotomy (attr a.info.lover.attrDict) (attr b.info.lover.attrDict) with less | same | more
  · simp [less.ne, less, less.not_gt]
  · simp only [same, lt_irrefl, decide_false, Bool.false_eq_true, if_false, if_true, pvpLoverInfoCmp, cmpLover,
      beq_true, TableSort.thenBy]
    rcases lt_trichotomy a.info.lover.grade b.info.lover.grade with less | same | more
    · simp [less.ne, less, less.not_gt]
    · simp only [same, lt_irrefl, decide_false, Bool.false_eq_true, if_false, ne_eq, not_true_eq_false]
      rcases lt_trichotomy a.info.lover.level b.info.lover.level with less | same | more
      · simp [less.ne, less, less.not_gt]
      · simp [same]
      · simp [more.ne', more]
    · simp [more.ne', more]
  · simp [more.ne', more]

theorem cmp_strictWeak (attr : AttrDict ν → ν) : TableSort.StrictWeak (cmp (ν := ν) (attr, true)) := by
  rw [cmp_eq]
  exact (TableSort.strictWeak_key _).thenBy ((TableSort.strictWeak_key _).thenBy
    ((TableSort.strictWeak_key _).thenBy (TableSort.strictWeak_key _)))

section
omit [LinearOrder ν]

def Comes (player : Player ν) (entry : Player ν × ℤ) : Prop :=
  entry.1.info = player.info ∧ entry.1.totalScore = some (player.total + entry.2)

theorem exists_of_forall₂ {α β : Type*} {relation : α → β → Prop} {left : List α} {right : List β}
    (all : List.Forall₂ relation left right) {second : β} (mem : second ∈ right) :
    ∃ first ∈ left, relation first second := by
  induction all with
  | nil => exact absurd mem List.not_mem_nil
  | cons head _ ih =>
      rcases List.mem_cons.mp mem with rfl | mem
      · exact ⟨_, List.mem_cons_self, head⟩
      · obtain ⟨first, inside, related⟩ := ih mem
        exact ⟨first, List.mem_cons_of_mem _ inside, related⟩

theorem comes_scored (player : Player ν) (index : ℕ) (score : ℤ) :
    Comes player (player.scored index score, score) := ⟨rfl, rfl⟩

theorem pvpScore_nonneg (index : ℕ) : 0 ≤ (pvpScore[index]?).getD 0 := by
  have all : ∀ score ∈ pvpScore, (0 : ℤ) ≤ score := by decide
  cases found : pvpScore[index]? with
  | none => exact le_rfl
  | some score => exact all score (List.mem_of_getElem? found)

theorem scoreLoop_open (index : ℕ) (list : List (Player ν)) :
    List.Forall₂ (fun player entry => Comes player entry ∧ 0 ≤ entry.2) list
      (scoreLoop false index list).1 := by
  induction list generalizing index with
  | nil => exact .nil
  | cons player rest ih =>
      exact .cons ⟨comes_scored player index _, pvpScore_nonneg _⟩ (ih (index + 1))

/-- Behind the winner, the last round takes a point from who has one, and counts them. -/
theorem scoreLoop_last {index : ℕ} (behind : 1 < index) (list : List (Player ν)) :
    List.Forall₂ (fun player entry => Comes player entry ∧
        entry.2 = if player.totalScore ≠ some 0 then -1 else 0) list (scoreLoop true index list).1 ∧
      (scoreLoop true index list).2 = ((list.filter fun player => player.totalScore ≠ some 0).length : ℤ) := by
  induction list generalizing index with
  | nil => exact ⟨.nil, rfl⟩
  | cons player rest ih =>
      obtain ⟨all, count⟩ := ih (Nat.lt_succ_of_lt behind)
      rw [scoreLoop]
      dsimp only
      rw [if_pos rfl, if_pos behind, List.filter_cons]
      split
      · rename_i some_
        refine ⟨.cons ⟨comes_scored player index (-1), (if_pos some_).symm⟩ all, ?_⟩
        rw [if_pos (decide_eq_true some_), List.length_cons, count]
        rfl
      · rename_i nothing
        refine ⟨.cons ⟨comes_scored player index 0, (if_neg nothing).symm⟩ all, ?_⟩
        rw [if_neg (by simpa using nothing), count]

theorem uuids_of_comes {list : List (Player ν)} {ranked : List (Player ν × ℤ)}
    (comes : List.Forall₂ Comes list ranked) :
    ranked.map (fun entry => entry.1.info.uuid) = list.map fun player => player.info.uuid := by
  induction comes with
  | nil => rfl
  | cons head _ ih => rw [List.map_cons, List.map_cons, ih, head.1]

end

variable {rankList : List (String × ℤ)}

theorem scoreOf_of_mem (nodup : (rankList.map Prod.fst).Nodup)
    {uuid : String} {score : ℤ} (mem : (uuid, score) ∈ rankList) : scoreOf rankList uuid = score := by
  rw [scoreOf]
  cases found : rankList.find? fun entry : String × ℤ => entry.1 = uuid with
  | none =>
      have absent := List.find?_eq_none.mp found (uuid, score) mem
      exact absurd rfl (of_decide_eq_false (eq_false_of_ne_true absent))
  | some entry =>
      have same : entry.1 = uuid := of_decide_eq_true (@List.find?_some _ (fun entry : String × ℤ => entry.1 = uuid) _ _ found)
      have unique := List.inj_on_of_nodup_map nodup (List.mem_of_find?_eq_some found) mem same
      rw [unique]
      rfl

variable {keys : List String}

theorem sum_scoreOf
    (perm : (rankList.map Prod.fst).Perm keys) (nodup : keys.Nodup) :
    (keys.map (scoreOf rankList)).sum = (rankList.map Prod.snd).sum := by
  have nodup' := perm.nodup_iff.mpr nodup
  rw [← (perm.map _).sum_eq, List.map_map]
  refine congrArg List.sum (List.map_congr_left fun entry mem => ?_)
  exact scoreOf_of_mem nodup' mem

structure Playing (keys : List String) (rounds : List (List (String × ℤ))) (pvpTerm : List (Player ν)) :
    Prop where
  names : (pvpTerm.map fun player => player.info.uuid).Perm keys
  totals : ∀ player ∈ pvpTerm, player.total = (rounds.map fun rankList => scoreOf rankList player.info.uuid).sum
  known : rounds ≠ [] → ∀ player ∈ pvpTerm, player.totalScore = some player.total
  nonneg : ∀ player ∈ pvpTerm, 0 ≤ player.total

variable {rounds : List (List (String × ℤ))} {pvpTerm : List (Player ν)}

omit [LinearOrder ν] in
theorem Playing.sum_nonneg (playing : Playing keys rounds pvpTerm) {uuid : String} (mem : uuid ∈ keys) :
    0 ≤ (rounds.map fun rankList => scoreOf rankList uuid).sum := by
  obtain ⟨player, inside, rfl⟩ := List.mem_map.mp (playing.names.mem_iff.mpr mem)
  rw [← playing.totals player inside]
  exact playing.nonneg player inside

omit [LinearOrder ν] in
/-- What a round leaves behind, if the members come from an order of those before it. -/
theorem Playing.next (nodup : keys.Nodup)
    {pvpTerm ordered : List (Player ν)} (playing : Playing keys rounds pvpTerm)
    (perm : ordered.Perm pvpTerm) {ranked : List (Player ν × ℤ)} (comes : List.Forall₂ Comes ordered ranked)
    (nonneg : ∀ entry ∈ ranked, 0 ≤ entry.1.total) :
    Playing keys (rounds ++ [ranked.map fun (player, score) => (player.info.uuid, score)])
        (ranked.map Prod.fst) ∧
      ((ranked.map fun (player, score) => (player.info.uuid, score)).map Prod.fst).Perm keys := by
  have uuids : (ranked.map fun entry => entry.1.info.uuid).Perm keys := by
    rw [uuids_of_comes comes]
    exact (perm.map _).trans playing.names
  have names : ((ranked.map fun (player, score) => (player.info.uuid, score)).map Prod.fst).Perm keys := by
    rw [List.map_map]
    exact uuids
  have nodup' := names.nodup_iff.mpr nodup
  -- Each entry stems from a member of the round before.
  have origin : ∀ entry ∈ ranked, ∃ player ∈ pvpTerm, Comes player entry := by
    intro entry mem
    obtain ⟨player, inside, from_⟩ := exists_of_forall₂ comes mem
    exact ⟨player, perm.mem_iff.mp inside, from_⟩
  refine ⟨⟨?_, ?_, ?_, ?_⟩, names⟩
  · rw [List.map_map]
    exact uuids
  · intro player mem
    obtain ⟨entry, inside, rfl⟩ := List.mem_map.mp mem
    obtain ⟨old, old_mem, same, total⟩ := origin entry inside
    have score : scoreOf (ranked.map fun (player, score) => (player.info.uuid, score)) entry.1.info.uuid =
        entry.2 := scoreOf_of_mem nodup' (List.mem_map.mpr ⟨entry, inside, rfl⟩)
    rw [List.map_append, List.sum_append, List.map_singleton, List.sum_singleton, score, Player.total, total,
      Option.getD_some, playing.totals old old_mem, same]
  · intro _ player mem
    obtain ⟨entry, inside, rfl⟩ := List.mem_map.mp mem
    obtain ⟨old, -, -, total⟩ := origin entry inside
    rw [Player.total, total]
    rfl
  · intro player mem
    obtain ⟨entry, inside, rfl⟩ := List.mem_map.mp mem
    exact nonneg entry inside

variable (table : TableSort (Player ν))

theorem Playing.playRound (nodup : keys.Nodup) (playing : Playing keys rounds pvpTerm)
    (attr : AttrDict ν → ν) :
    Playing keys (rounds ++ [(Salon.playRound table pvpTerm false (attr, true)).2])
        (Salon.playRound table pvpTerm false (attr, true)).1 ∧
      ((Salon.playRound table pvpTerm false (attr, true)).2.map Prod.fst).Perm keys := by
  have perm := table.perm (cmp_strictWeak attr) pvpTerm
  have scores := scoreLoop_open 1 (table.sort (cmp (attr, true)) pvpTerm)
  refine playing.next nodup perm (scores.imp fun _ _ both => both.1) fun entry mem => ?_
  obtain ⟨player, inside, ⟨-, total⟩, score⟩ := exists_of_forall₂ scores mem
  have before := playing.nonneg player (perm.mem_iff.mp inside)
  rw [Player.total, total, Option.getD_some]
  omega

/-- Behind its winner, a last round takes a point from who has one; the winner gets them. -/
structure Moves (score : String → ℤ) (rankList : List (String × ℤ)) : Prop where
  moved : ∃ winner addScore rest, rankList = (winner, addScore) :: rest ∧
    addScore = ((rest.filter fun entry => 0 < score entry.1).length : ℤ) ∧
    ∀ entry ∈ rest, entry.2 = if 0 < score entry.1 then -1 else 0

theorem sum_taken (score : String → ℤ) {rest : List (String × ℤ)}
    (taken : ∀ entry ∈ rest, entry.2 = if 0 < score entry.1 then -1 else 0) :
    (rest.map Prod.snd).sum = -((rest.filter fun entry => 0 < score entry.1).length : ℤ) := by
  induction rest with
  | nil => rfl
  | cons entry rest ih =>
      rw [List.map_cons, List.sum_cons, ih fun other mem => taken other (List.mem_cons_of_mem _ mem),
        taken entry List.mem_cons_self, List.filter_cons]
      by_cases positive : 0 < score entry.1
      · rw [if_pos positive, if_pos (decide_eq_true positive), List.length_cons]
        omega
      · rw [if_neg positive, if_neg (by simpa using positive)]
        omega

theorem Moves.sum_eq_zero {score : String → ℤ}
    (moves : Moves score rankList) : (rankList.map Prod.snd).sum = 0 := by
  obtain ⟨winner, addScore, rest, rfl, count, taken⟩ := moves.moved
  rw [List.map_cons, List.sum_cons, sum_taken score taken, count]
  omega

theorem Playing.lastRound (nodup : keys.Nodup)
    (some_ : keys ≠ []) (began : rounds ≠ [])
    (playing : Playing keys rounds pvpTerm) (attr : AttrDict ν → ν) :
    Playing keys (rounds ++ [(Salon.playRound table pvpTerm true (attr, true)).2])
        (Salon.playRound table pvpTerm true (attr, true)).1 ∧
      ((Salon.playRound table pvpTerm true (attr, true)).2.map Prod.fst).Perm keys ∧
      Moves (fun uuid => (rounds.map fun rankList => scoreOf rankList uuid).sum)
        (Salon.playRound table pvpTerm true (attr, true)).2 := by
  have perm := table.perm (cmp_strictWeak attr) pvpTerm
  rw [Salon.playRound]
  generalize table.sort (cmp (attr, true)) pvpTerm = ordered at perm ⊢
  cases ordered with
  | nil =>
      have names := playing.names
      rw [perm.symm.eq_nil, List.map_nil] at names
      exact absurd names.symm.eq_nil some_
  | cons winner others =>
      obtain ⟨scores, count⟩ := scoreLoop_last (Nat.lt_succ_self 1) others
      have loop : (scoreLoop true 1 (winner :: others)).1 =
          (winner.scored 1 (scoreLoop true 2 others).2, (scoreLoop true 2 others).2) ::
            (scoreLoop true 2 others).1 := rfl
      rw [loop]
      generalize (scoreLoop true 2 others).1 = ranked at scores ⊢
      generalize (scoreLoop true 2 others).2 = addScore at count ⊢
      have inside : ∀ player ∈ others, player ∈ pvpTerm := fun player mem =>
        perm.mem_iff.mp (List.mem_cons_of_mem _ mem)
      have comes : List.Forall₂ Comes (winner :: others)
          ((winner.scored 1 addScore, addScore) :: ranked) :=
        .cons (comes_scored winner 1 addScore) (scores.imp fun _ _ both => both.1)
      have positive : ∀ player ∈ others, (player.totalScore ≠ some 0 ↔
          0 < (rounds.map fun rankList => scoreOf rankList player.info.uuid).sum) := by
        intro player mem
        have nonneg := playing.nonneg player (inside player mem)
        rw [playing.known began player (inside player mem), ← playing.totals player (inside player mem), ne_eq,
          Option.some.injEq]
        omega
      have nonneg : ∀ entry ∈ (winner.scored 1 addScore, addScore) :: ranked, 0 ≤ entry.1.total := by
        intro entry mem
        rcases List.mem_cons.mp mem with rfl | mem
        · have before := playing.nonneg winner (perm.mem_iff.mp List.mem_cons_self)
          change 0 ≤ winner.total + addScore
          omega
        · obtain ⟨player, from_, ⟨-, total⟩, score⟩ := exists_of_forall₂ scores mem
          have before := playing.nonneg player (inside player from_)
          have known := playing.known began player (inside player from_)
          rw [Player.total, total, Option.getD_some, score]
          split
          · rename_i points
            rw [known, ne_eq, Option.some.injEq] at points
            omega
          · omega
      obtain ⟨played, names⟩ := playing.next nodup perm comes nonneg
      refine ⟨played, names, ⟨winner.info.uuid, addScore,
        ranked.map fun (player, score) => (player.info.uuid, score), rfl, ?_, ?_⟩⟩
      · have uuids := uuids_of_comes (scores.imp fun _ _ both => both.1)
        have same : ((ranked.map fun (player, score) => (player.info.uuid, score)).map Prod.fst) =
            others.map fun player => player.info.uuid := by
          rw [List.map_map]
          exact uuids
        have lengths : ∀ entries : List (String × ℤ), (entries.filter fun entry =>
            0 < (rounds.map fun rankList => scoreOf rankList entry.1).sum).length =
            ((entries.map Prod.fst).filter fun uuid =>
              0 < (rounds.map fun rankList => scoreOf rankList uuid).sum).length := by
          intro entries
          rw [List.filter_map, List.length_map]
          rfl
        rw [count, lengths, same, List.filter_map, List.length_map]
        refine congrArg _ (congrArg List.length (List.filter_congr fun player mem => ?_))
        exact decide_eq_decide.mpr (positive player mem)
      · intro entry mem
        obtain ⟨⟨player', score⟩, mem', rfl⟩ := List.mem_map.mp mem
        obtain ⟨player, from_, ⟨same, -⟩, taken⟩ := exists_of_forall₂ scores mem'
        have points := positive player from_
        rw [← same] at points
        exact taken.trans (if_congr points rfl rfl)

theorem pvpRun_right (pvpId : ℕ) {playersNum : ℕ} (positive : 1 ≤ playersNum) {roleDict : Table String ℕ}
    (names : (pvpTerm.map fun player => player.info.uuid).Perm roleDict.keys)
    (size : roleDict.size = playersNum) (fresh : ∀ player ∈ pvpTerm, player.totalScore = none) :
    RightRecord playersNum (pvpRun table pvpId pvpTerm roleDict) := by
  have nodup := roleDict.keys_nodup
  have some_ : roleDict.keys ≠ [] := by
    intro none_
    rw [Table.size, none_, List.length_nil] at size
    omega
  have start : Playing roleDict.keys [] pvpTerm := by
    refine ⟨names, fun player mem => ?_, fun began => absurd rfl began, fun player mem => ?_⟩
    · rw [Player.total, fresh player mem]
      rfl
    · rw [Player.total, fresh player mem]
      exact le_rfl
  obtain ⟨one, names_one⟩ := start.playRound table nodup AttrDict.etiquette
  obtain ⟨two, names_two⟩ := one.playRound table nodup AttrDict.culture
  obtain ⟨three, names_three⟩ := two.playRound table nodup AttrDict.charm
  obtain ⟨four, names_four, moves⟩ := three.lastRound table nodup some_ (by simp) AttrDict.planning
  have record : pvpRun table pvpId pvpTerm roleDict = pvpRun table pvpId pvpTerm roleDict := rfl
  conv_rhs at record => rw [pvpRun]
  dsimp only [pvpAttrListCmp, playRounds, List.isEmpty] at record
  generalize Salon.playRound table pvpTerm false (AttrDict.etiquette, true) = first at *
  generalize Salon.playRound table first.1 false (AttrDict.culture, true) = second at *
  generalize Salon.playRound table second.1 false (AttrDict.charm, true) = third at *
  generalize Salon.playRound table third.1 true (AttrDict.planning, true) = fourth at *
  rw [record]
  have cmp_weak : TableSort.StrictWeak (cmpTotal (ν := ν)) := TableSort.strictWeak_key Player.total
  have final := table.perm cmp_weak fourth.1
  have nonneg : ∀ rounds, ∀ uuid ∈ roleDict.keys, 0 ≤ ((([first.2, second.2, third.2, fourth.2].take rounds).map
      fun rankList => scoreOf rankList uuid).sum) := by
    intro rounds uuid mem
    rcases rounds with _ | _ | _ | _ | more
    · exact le_rfl
    · exact one.sum_nonneg mem
    · exact two.sum_nonneg mem
    · exact three.sum_nonneg mem
    · rw [List.take_of_length_le (Nat.le_add_left 4 more)]
      exact four.sum_nonneg mem
  refine ⟨size, rfl, ?_, nonneg, ?_, ?_, ?_, ?_, ?_⟩
  · intro rankList mem
    simp only [List.mem_cons, List.not_mem_nil, or_false] at mem
    rcases mem with rfl | rfl | rfl | rfl
    · exact names_one
    · exact names_two
    · exact names_three
    · exact names_four
  · obtain ⟨winner, addScore, rest, eq, count, taken⟩ := moves.moved
    exact ⟨winner, addScore, rest, congrArg some eq, count, taken⟩
  · have split_ : ∀ uuid, ((([first.2, second.2, third.2, fourth.2].take 4).map fun rankList =>
        scoreOf rankList uuid).sum) = (([first.2, second.2, third.2, fourth.2].take 3).map fun rankList =>
          scoreOf rankList uuid).sum + scoreOf fourth.2 uuid := by
      simp [add_assoc]
    have scores := sum_scoreOf names_four nodup
    rw [moves.sum_eq_zero] at scores
    change (roleDict.keys.map fun uuid => (([first.2, second.2, third.2, fourth.2].take 4).map fun rankList =>
        scoreOf rankList uuid).sum).sum = _
    simp only [split_]
    rw [List.sum_map_add, scores, add_zero]
    rfl
  · rw [List.map_map]
    exact (final.map _).trans four.names
  · intro entry mem
    obtain ⟨player, inside, rfl⟩ := List.mem_map.mp mem
    exact four.totals player (final.mem_iff.mp inside)
  · refine List.pairwise_map.mpr ((table.sorted cmp_weak fourth.1).imp fun {one two} stays => ?_)
    exact not_lt.mp (of_decide_eq_false stays)

end UEServer.Salon
