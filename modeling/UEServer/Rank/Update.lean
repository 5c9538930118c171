import UEServer.Rank.Basic

/-!
# Updates of rank lists

What an update of a score does to a list that is in step, and where the entry ends up.
-/

namespace UEServer.Rank

section
variable {ι : Type*} [DecidableEq ι] {cls : RankCls ι} {id : ι} {score : ℚ} {front back : List ι}

/-- An entry has got a score and its place: the order is right, and the rest is as it was. -/
structure Resorted (cls after : RankCls ι) (id : ι) (score : ℚ) (high low : List ι) : Prop where
  list : after.roleList = high ++ id :: low
  sorted : Descending after.score after.roleList
  inOrder : after.ranked.InOrder
  dict : after.roleDict = cls.roleDict
  forbid : after.forbidDict = cls.forbidDict
  maxLen : after.maxLen = cls.maxLen

theorem descending_update {key : ι → ℚ} {list : List ι} (absent : id ∉ list)
    (sorted : Descending key list) : Descending (Function.update key id score) list := by
  refine List.Pairwise.imp_of_mem (fun {first second} first_mem second_mem le => ?_) sorted
  have first_ne : first ≠ id := by
    rintro rfl
    exact absent first_mem
  have second_ne : second ≠ id := by
    rintro rfl
    exact absent second_mem
  rw [Function.update_of_ne first_ne, Function.update_of_ne second_ne]
  exact le

omit [DecidableEq ι] in
theorem mem_ne {list : List ι} (absent : id ∉ list) {other : ι} (mem : other ∈ list) :
    other ≠ id := by
  rintro rfl
  exact absent mem

theorem sortRole_eq (cls : RankCls ι) (id : ι) (score : ℚ) (isAdd : Bool) :
    cls.sortRole id score isAdd =
      (updateSortedList (Function.update cls.score id score) cls.ranked id isAdd).map fun state =>
        { cls with
          roleList := state.list
          objs := fun other => ⟨Function.update cls.score id score other, state.rank other⟩ } := by
  have scores : (fun other => (Function.update cls.objs id
      { cls.objs id with rankScore := score } other).rankScore) =
        Function.update cls.score id score := by
    funext other
    by_cases same : other = id
    · subst same
      simp
    · simp [same, RankCls.score]
  have ranks : (fun other => (Function.update cls.objs id
      { cls.objs id with rankScore := score } other).rank) = cls.ranked.rank := by
    funext other
    by_cases same : other = id
    · subst same
      simp [RankCls.ranked]
    · simp [same, RankCls.ranked]
  unfold RankCls.sortRole
  dsimp only
  rw [scores, ranks]
  refine congrArg (fun f => Option.map f _) (funext fun state => ?_)
  rw [← scores]

variable {high low : List ι}

theorem resorted_of_moved {before state : Ranked ι}
    (moved : Moved before state high low id)
    (sorted : Descending (Function.update cls.score id score) (high ++ id :: low)) :
    Resorted cls { cls with
      roleList := state.list
      objs := fun other => ⟨Function.update cls.score id score other, state.rank other⟩ } id
      score high low := by
  refine ⟨moved.list, ?_, moved.inOrder, rfl, rfl, rfl⟩
  rw [moved.list]
  exact sorted

/-- An entry moves up.  It is the last one afterwards if it was before, and none before it has a
smaller score. -/
theorem sortRole_raised (inOrder : cls.ranked.InOrder) (list : cls.roleList = front ++ id :: back)
    (sorted : Descending cls.score (front ++ back))
    (below : ∀ other ∈ back, cls.score other ≤ score) :
    ∃ after high low, cls.sortRole id score true = some after ∧
      Resorted cls after id score high low ∧ high ++ low = front ++ back ∧
      (low = [] ↔ back = [] ∧ ∀ other ∈ front, score ≤ cls.score other) := by
  have list : cls.ranked.list = front ++ id :: back := list
  have nodup := inOrder.nodup
  rw [list] at nodup
  have absent : id ∉ front ++ back := fun mem =>
    (List.nodup_cons.mp (List.perm_middle.nodup_iff.mp nodup)).1 mem
  have key_eq : ∀ other ∈ front ++ back,
      Function.update cls.score id score other = cls.score other := by
    intro other mem
    exact Function.update_of_ne (mem_ne absent mem) _ _
  have key_self : Function.update cls.score id score id = score := Function.update_self ..
  have sorted := @descending_update _ _ _ score _ _ absent sorted
  obtain ⟨state, raised, moved⟩ := raise_moved (Function.update cls.score id score) inOrder list
  have ordered := @descending_raised _ _ _ _ _ id _ sorted fun other mem => by
    rw [key_eq other (List.mem_append_right _ mem), key_self]
    exact below other mem
  refine ⟨_, _, _, ?_, resorted_of_moved moved ordered, ?_, ?_⟩
  · rw [sortRole_eq, updateSortedList, inOrder.rank_self list]
    dsimp only
    rw [if_pos rfl, raised]
    rfl
  · rw [← List.append_assoc, List.rdropWhile_append_rtakeWhile]
  · rw [List.append_eq_nil_iff, and_comm]
    refine and_congr_right fun _ => ⟨fun none_passed other mem => ?_, fun above => ?_⟩
    · have kept : front.rdropWhile (fun obj => Function.update cls.score id score obj <
          Function.update cls.score id score id) = front := by
        have split := @List.rdropWhile_append_rtakeWhile _ (fun obj => decide
          (Function.update cls.score id score obj < Function.update cls.score id score id)) front
        rwa [none_passed, List.append_nil] at split
      have least := le_of_mem_rdropWhile (List.pairwise_append.mp sorted).1 other (by rwa [kept])
      rwa [key_eq other (List.mem_append_left _ mem), key_self] at least
    · refine List.eq_nil_iff_forall_not_mem.mpr fun other mem => ?_
      have smaller : Function.update cls.score id score other <
          Function.update cls.score id score id := by simpa using List.mem_rtakeWhile_imp mem
      have mem_front := (List.rtakeWhile_suffix _ _).subset mem
      rw [key_eq other (List.mem_append_left _ mem_front), key_self] at smaller
      exact absurd (above other mem_front) (not_le.mpr smaller)

/-- An entry moves down.  It is the last one afterwards if every entry after it has a greater
score. -/
theorem sortRole_lowered (inOrder : cls.ranked.InOrder)
    (list : cls.roleList = front ++ id :: back) (sorted : Descending cls.score (front ++ back))
    (above : ∀ other ∈ front, score ≤ cls.score other) :
    ∃ after high low, cls.sortRole id score false = some after ∧
      Resorted cls after id score high low ∧ high ++ low = front ++ back ∧
      (low = [] ↔ ∀ other ∈ back, score < cls.score other) := by
  have list : cls.ranked.list = front ++ id :: back := list
  have nodup := inOrder.nodup
  rw [list] at nodup
  have absent : id ∉ front ++ back := fun mem =>
    (List.nodup_cons.mp (List.perm_middle.nodup_iff.mp nodup)).1 mem
  have key_eq : ∀ other ∈ front ++ back,
      Function.update cls.score id score other = cls.score other := by
    intro other mem
    exact Function.update_of_ne (mem_ne absent mem) _ _
  have key_self : Function.update cls.score id score id = score := Function.update_self ..
  have sorted := @descending_update _ _ _ score _ _ absent sorted
  obtain ⟨state, lowered, moved⟩ := lower_moved (Function.update cls.score id score) inOrder list
  have ordered := @descending_lowered _ _ _ _ _ id _ sorted fun other mem => by
    rw [key_eq other (List.mem_append_left _ mem), key_self]
    exact above other mem
  refine ⟨_, _, _, ?_, resorted_of_moved moved ordered, ?_, ?_⟩
  · rw [sortRole_eq, updateSortedList, inOrder.rank_self list]
    dsimp only
    rw [if_neg Bool.false_ne_true, lowered]
    rfl
  · rw [List.append_assoc, List.takeWhile_append_dropWhile]
  · rw [List.dropWhile_eq_nil_iff]
    refine forall₂_congr fun other mem => ?_
    rw [key_eq other (List.mem_append_right _ mem), key_self, decide_eq_true_eq]

theorem enter_score (cls : RankCls ι) (id : ι) (score : ℚ) :
    (cls.enter id score).score = Function.update cls.score id score := by
  funext other
  by_cases same : other = id
  · subst same
    simp [RankCls.score, RankCls.enter]
  · simp [RankCls.score, RankCls.enter, same]

theorem enter_ranked (cls : RankCls ι) (id : ι) (score : ℚ) :
    (cls.enter id score).ranked = ⟨cls.roleList, Function.update cls.ranked.rank id none⟩ := by
  have ranks : (cls.enter id score).ranked.rank = Function.update cls.ranked.rank id none := by
    funext other
    by_cases same : other = id
    · subst same
      simp [RankCls.ranked, RankCls.enter]
    · simp [RankCls.ranked, RankCls.enter, same]
  rw [← ranks]
  rfl

theorem sortRole_new (inOrder : cls.ranked.InOrder) (absent : id ∉ cls.roleList)
    (sorted : Descending cls.score cls.roleList) (score : ℚ) (isAdd : Bool) :
    ∃ after high low, (cls.enter id score).sortRole id score isAdd = some after ∧
      Resorted (cls.enter id score) after id score high low ∧ high ++ low = cls.roleList := by
  have entered : (cls.enter id score).ranked.InOrder := by
    rw [enter_ranked]
    exact ⟨inOrder.nodup, inOrder.ranked.update absent none⟩
  have unranked : (cls.enter id score).ranked.rank id = none := by
    rw [enter_ranked]
    exact Function.update_self ..
  have scores : Function.update (cls.enter id score).score id score =
      Function.update cls.score id score := by
    rw [enter_score, Function.update_idem]
  have list : ((cls.enter id score).ranked.append id).list = cls.roleList ++ id :: [] := rfl
  obtain ⟨state, raised, moved⟩ := raise_moved (Function.update cls.score id score)
    (append_inOrder entered absent) list
  have sorted := @descending_update _ _ _ score _ _ absent sorted
  have ordered := @descending_raised _ _ _ _ [] id _ (by rwa [List.append_nil]) nofun
  refine ⟨_, _, _, ?_, resorted_of_moved moved (by rw [scores]; exact ordered), ?_⟩
  · rw [sortRole_eq, updateSortedList, unranked, scores]
    rw [show (cls.enter id score).ranked.list.length = cls.roleList.length from rfl, raised]
    rfl
  · rw [List.append_nil, List.rdropWhile_append_rtakeWhile]

/-- What an update of a list in step leaves in step. -/
structure Updated (cls after : RankCls ι) (id : ι) : Prop where
  inStep : after.InStep
  forbid : after.forbidDict = cls.forbidDict
  maxLen : after.maxLen = cls.maxLen
  members : ∀ other ∈ after.roleList, other = id ∨ other ∈ cls.roleList

omit [DecidableEq ι] in
theorem Updated.refl (inStep : cls.InStep) (id : ι) : Updated cls cls id :=
  ⟨inStep, rfl, rfl, fun _ mem => .inr mem⟩

omit [DecidableEq ι] in
theorem sorted_of_mem (inStep : cls.InStep) (list : cls.roleList = front ++ id :: back) :
    Descending cls.score (front ++ back) ∧ (∀ other ∈ front, cls.score id ≤ cls.score other) ∧
      ∀ other ∈ back, cls.score other ≤ cls.score id := by
  have sorted := inStep.sorted
  rw [list] at sorted
  obtain ⟨sorted_front, sorted_tail, apart⟩ := List.pairwise_append.mp sorted
  obtain ⟨below, sorted_back⟩ := List.pairwise_cons.mp sorted_tail
  refine ⟨List.pairwise_append.mpr ⟨sorted_front, sorted_back, fun other mem later later_mem =>
    apart other mem later (List.mem_cons_of_mem _ later_mem)⟩, fun other mem => ?_, below⟩
  exact apart other mem id List.mem_cons_self

/-- A direction test that an update may use: for two different scores it says which one is
greater. -/
def Tells (isAdd : ℚ → ℚ → Bool) : Prop :=
  ∀ old new, old ≠ new → (isAdd old new = true ↔ old < new)

theorem sortRole_listed {isAdd : ℚ → ℚ → Bool} (tells : Tells isAdd) (inStep : cls.InStep)
    (list : cls.roleList = front ++ id :: back) (different : cls.score id ≠ score) :
    ∃ after high low, cls.sortRole id score (isAdd (cls.score id) score) = some after ∧
      Resorted cls after id score high low ∧ high ++ low = front ++ back ∧
      (low = [] ↔ (∀ other ∈ front, score ≤ cls.score other) ∧
        ∀ other ∈ back, score < cls.score other) := by
  obtain ⟨sorted, above, below⟩ := sorted_of_mem inStep list
  cases direction : isAdd (cls.score id) score with
  | true =>
      have greater := (tells _ _ different).mp direction
      obtain ⟨after, high, low, moved, resorted, rest, last⟩ := sortRole_raised inStep.inOrder list
        sorted fun other mem => (below other mem).trans greater.le
      refine ⟨after, high, low, moved, resorted, rest, last.trans ?_⟩
      rw [and_comm]
      refine and_congr_right fun _ => ⟨?_, fun all => List.eq_nil_iff_forall_not_mem.mpr ?_⟩
      · exact nofun
      · exact fun other mem => absurd (all other mem) (not_lt.mpr ((below other mem).trans greater.le))
  | false =>
      have smaller : score < cls.score id := by
        refine lt_of_le_of_ne (not_lt.mp fun less => ?_) different.symm
        rw [(tells _ _ different).mpr less] at direction
        cases direction
      obtain ⟨after, high, low, moved, resorted, rest, last⟩ := sortRole_lowered inStep.inOrder list
        sorted fun other mem => smaller.le.trans (above other mem)
      refine ⟨after, high, low, moved, resorted, rest, last.trans ?_⟩
      exact (and_iff_right fun other mem => smaller.le.trans (above other mem)).symm

omit [DecidableEq ι] in
theorem Resorted.updated {after : RankCls ι}
    (resorted : Resorted cls after id score high low) (short : after.roleList.length ≤ cls.maxLen)
    (dict : ∀ other, cls.roleDict other = true ↔ other = id ∨ other ∈ high ++ low) :
    after.InStep := by
  refine ⟨resorted.sorted, resorted.inOrder, fun other => ?_, ?_⟩
  · rw [resorted.dict, dict, resorted.list, List.mem_append, List.mem_append, List.mem_cons]
    tauto
  · rw [resorted.maxLen]
    exact short

theorem enter_updated (inStep : cls.InStep) (absent : id ∉ cls.roleList)
    (room : cls.roleList.length < cls.maxLen) (score : ℚ) (isAdd : Bool) :
    ∃ after, (cls.enter id score).sortRole id score isAdd = some after ∧ Updated cls after id := by
  obtain ⟨after, high, low, moved, resorted, rest⟩ :=
    sortRole_new inStep.inOrder absent inStep.sorted score isAdd
  have length : after.roleList.length = cls.roleList.length + 1 := by
    rw [resorted.list, ← rest, List.length_append, List.length_append, List.length_cons]
    omega
  refine ⟨after, moved, resorted.updated ?_ fun other => ?_, resorted.forbid, resorted.maxLen,
    fun other mem => ?_⟩
  · rw [length]
    exact room
  · rw [rest, ← inStep.dict]
    by_cases same : other = id
    · simp [same, RankCls.enter]
    · simp [same, RankCls.enter]
  · rw [resorted.list, List.mem_append, List.mem_cons] at mem
    rw [← rest, List.mem_append]
    tauto

theorem evict_inStep (inStep : cls.InStep) {last : ι} (is_last : cls.roleList.getLast? = some last) :
    (cls.evict last).InStep := by
  obtain ⟨front, list⟩ := List.getLast?_eq_some_iff.mp is_last
  have shorter : (cls.evict last).roleList = front := by
    rw [RankCls.evict, list, List.dropLast_concat]
  have nodup := inStep.inOrder.nodup
  have ranked := inStep.inOrder.ranked
  rw [show cls.ranked.list = _ from list] at nodup ranked
  have absent : last ∉ front := fun mem =>
    (List.nodup_append'.mp nodup).2.2 mem (List.mem_singleton_self last)
  have sorted := inStep.sorted
  rw [list] at sorted
  refine ⟨?_, ⟨?_, ?_⟩, fun other => ?_, ?_⟩
  · rw [shorter]
    exact (List.pairwise_append.mp sorted).1
  · rw [show (cls.evict last).ranked.list = front from shorter]
    exact (List.nodup_append'.mp nodup).1
  · rw [show (cls.evict last).ranked.list = front from shorter]
    exact (rankedFrom_append.mp ranked).1
  · rw [shorter]
    have before := inStep.dict other
    rw [list, List.mem_append, List.mem_singleton] at before
    by_cases same : other = last
    · subst same
      simp [RankCls.evict, absent]
    · refine Iff.trans ?_ (before.trans (or_iff_left same))
      rw [RankCls.evict]
      dsimp only
      rw [Function.update_of_ne same]
  · rw [shorter]
    have short := inStep.short
    rw [list, List.length_append] at short
    exact (Nat.le_add_right _ _).trans short

/-- An update keeps a list in step; it raises only if the greatest length is zero. -/
theorem updateRank_spec {isAdd : ℚ → ℚ → Bool} (tells : Tells isAdd) (inStep : cls.InStep)
    (id : ι) (score : ℚ) :
    (updateRank isAdd cls id score = none ∧ cls.maxLen = 0) ∨
      ∃ after, updateRank isAdd cls id score = some after ∧ Updated cls after id := by
  unfold updateRank
  by_cases listed : cls.roleDict id = true
  · rw [if_pos listed]
    refine .inr ?_
    by_cases same : cls.score id = score
    · rw [if_pos same]
      exact ⟨cls, rfl, .refl inStep id⟩
    · rw [if_neg same]
      obtain ⟨front, back, list⟩ := List.append_of_mem ((inStep.dict id).mp listed)
      obtain ⟨after, high, low, moved, resorted, rest, -⟩ := sortRole_listed tells inStep list same
      refine ⟨after, moved, resorted.updated ?_ fun other => ?_, resorted.forbid, resorted.maxLen,
        fun other mem => ?_⟩
      · have short := inStep.short
        rw [list, List.length_append, List.length_cons, ← Nat.add_assoc, ← List.length_append,
          ← rest, List.length_append] at short
        rw [resorted.list, List.length_append, List.length_cons]
        omega
      · rw [inStep.dict, list, rest, List.mem_append, List.mem_append, List.mem_cons]
        tauto
      · rw [resorted.list, List.mem_append, List.mem_cons] at mem
        have member : other ∈ high ++ low ↔ other ∈ front ++ back := by rw [rest]
        rw [List.mem_append, List.mem_append] at member
        rw [list, List.mem_append, List.mem_cons]
        tauto
  · have absent : id ∉ cls.roleList := fun mem => listed ((inStep.dict id).mpr mem)
    rw [if_neg listed]
    split
    · rename_i full
      cases found : cls.roleList.getLast? with
      | none =>
          have nothing : cls.roleList = [] := List.getLast?_eq_none_iff.mp found
          rw [nothing] at full
          exact .inl ⟨rfl, Nat.le_zero.mp full⟩
      | some last =>
          refine .inr ?_
          dsimp only
          split
          · exact ⟨cls, rfl, .refl inStep id⟩
          · have fewer : (cls.evict last).roleList.length < (cls.evict last).maxLen := by
              obtain ⟨front, list⟩ := List.getLast?_eq_some_iff.mp found
              have short := inStep.short
              change cls.roleList.dropLast.length < cls.maxLen
              rw [list, List.length_append, List.length_singleton] at short
              rw [list, List.dropLast_concat]
              omega
            obtain ⟨after, entered, updated⟩ := enter_updated (evict_inStep inStep found)
              (fun mem => absent (List.dropLast_subset _ mem)) fewer score (isAdd score score)
            refine ⟨after, entered, updated.inStep, updated.forbid, updated.maxLen,
              fun other mem => ?_⟩
            exact (updated.members other mem).imp_right fun mem => List.dropLast_subset _ mem
    · rename_i room
      exact .inr (enter_updated inStep absent (Nat.lt_of_not_le room) score (isAdd score score))

omit [DecidableEq ι] in
theorem rank_eq_length_iff (inOrder : cls.ranked.InOrder)
    (list : cls.roleList = high ++ id :: low) :
    (cls.objs id).rank = some cls.roleList.length ↔ low = [] := by
  have rank := inOrder.rank_self (show cls.ranked.list = high ++ id :: low from list)
  rw [show (cls.objs id).rank = some (high.length + 1) from rank, list, List.length_append,
    List.length_cons, Option.some.injEq]
  constructor
  · intro equal
    exact List.length_eq_zero_iff.mp (by omega)
  · rintro rfl
    rfl

/-- The entry that is to be removed has got its new score.  It is removed if it is the last one, and
otherwise the removal raises. -/
theorem removeRank_spec {update : RankCls ι → ι → ℚ → Option (RankCls ι)} {middle : RankCls ι} (listed : cls.roleDict id = true) (updated : update cls id (-1) = some middle)
    (inStep : middle.InStep) (list : middle.roleList = high ++ id :: low) :
    ((removeRank update cls id).1 = false ↔ low = []) ∧
      (low = [] → (removeRank update cls id).2 = middle.evict id ∧ (middle.evict id).InStep ∧
        (middle.evict id).roleList = high) := by
  have last := rank_eq_length_iff inStep.inOrder list
  unfold removeRank
  rw [if_pos listed, updated]
  dsimp only
  constructor
  · rw [← last]
    split
    · rename_i here
      exact iff_of_true rfl here
    · rename_i elsewhere
      exact iff_of_false nofun elsewhere
  · intro nothing
    rw [if_pos (last.mpr nothing)]
    subst nothing
    refine ⟨rfl, evict_inStep inStep (by rw [list]; simp), ?_⟩
    rw [RankCls.evict, list, List.dropLast_concat]

theorem removeRank_of_absent (update : RankCls ι → ι → ℚ → Option (RankCls ι))
    (inStep : cls.InStep) (absent : id ∉ cls.roleList) : removeRank update cls id = (false, cls) := by
  rw [removeRank, if_neg fun listed => absent ((inStep.dict id).mp listed)]

end

end UEServer.Rank
