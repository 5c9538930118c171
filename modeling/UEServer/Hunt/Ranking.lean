import UEServer.Hunt.Basic
import UEServer.Rank.Resort

/-!
# What a hit does to the ranking

Whatever the hits are, everybody who has hit is listed until the list is full, and the ranks are the
indices.  A hit leaves the order right exactly if it is permitted.
-/

namespace UEServer.Hunt

open Rank

section
variable {ι : Type*} [DecidableEq ι]

theorem accumulated_concat (hits : List (ι × ℤ)) (uuid : ι) (hurt : ℤ) :
    accumulated (hits ++ [(uuid, hurt)]) =
      Function.update (accumulated hits) uuid (accumulated hits uuid + hurt) := by
  funext other
  by_cases same : other = uuid
  · subst same
    simp [accumulated]
  · rw [Function.update_of_ne same]
    simp [accumulated, Ne.symm same]

theorem accumulated_of_not_hasHit {hits : List (ι × ℤ)} {uuid : ι} (fresh : ¬ HasHit hits uuid) :
    accumulated hits uuid = 0 := by
  have nothing : hits.filter (fun hit => hit.1 = uuid) = [] := by
    refine List.filter_eq_nil_iff.mpr fun hit mem => ?_
    intro same
    exact fresh (List.mem_map.mpr ⟨hit, mem, of_decide_eq_true same⟩)
  rw [accumulated, nothing]
  rfl

omit [DecidableEq ι] in
theorem hasHit_concat {hits : List (ι × ℤ)} {uuid other : ι} {hurt : ℤ} :
    HasHit (hits ++ [(uuid, hurt)]) other ↔ HasHit hits other ∨ other = uuid := by
  simp [HasHit]

def hitters (hits : List (ι × ℤ)) : ℕ :=
  (hits.map Prod.fst).toFinset.card

theorem hitters_concat (hits : List (ι × ℤ)) (uuid : ι) (hurt : ℤ) [Decidable (HasHit hits uuid)] :
    hitters (hits ++ [(uuid, hurt)]) =
      if HasHit hits uuid then hitters hits else hitters hits + 1 := by
  rw [hitters, List.map_append, List.toFinset_append]
  split
  · rename_i again
    rw [Finset.union_eq_left.mpr]
    · rfl
    · intro other mem
      have same : other = uuid := by simpa using mem
      rw [same]
      exact List.mem_toFinset.mpr again
  · rename_i fresh
    rw [Finset.card_union_of_disjoint]
    · rfl
    · rw [Finset.disjoint_left]
      intro other mem here
      have same : other = uuid := by simpa using here
      rw [same] at mem
      exact fresh (List.mem_toFinset.mp mem)

/-- What holds of the ranking whatever the hits are. -/
structure Listed (hits : List (ι × ℤ)) (ranked : Ranked ι) : Prop where
  listed : ∀ uuid ∈ ranked.list, HasHit hits uuid
  length : ranked.list.length = min rankLen (hitters hits)
  inOrder : ranked.InOrder
  absent : ∀ uuid, uuid ∉ ranked.list → ranked.rank uuid = none

section
variable {hits : List (ι × ℤ)} {ranked : Ranked ι}

theorem Listed.nil : Listed [] (⟨[], fun _ => none⟩ : Ranked ι) where
  listed _ mem := absurd mem List.not_mem_nil
  length := rfl
  inOrder := ⟨List.nodup_nil, rankedFrom_nil _ _⟩
  absent _ _ := rfl

theorem Listed.all (listed : Listed hits ranked) (few : hitters hits ≤ ranked.list.length) (uuid : ι)
    (hit : HasHit hits uuid) : uuid ∈ ranked.list := by
  have subset : ranked.list.toFinset ⊆ (hits.map Prod.fst).toFinset := by
    intro other mem
    exact List.mem_toFinset.mpr (listed.listed other (List.mem_toFinset.mp mem))
  have equal := Finset.eq_of_subset_of_card_le subset
    (by rwa [List.toFinset_card_of_nodup listed.inOrder.nodup])
  rw [← List.mem_toFinset, equal]
  exact List.mem_toFinset.mpr hit

theorem Listed.top_iff (listed : Listed hits ranked) :
    Top hits ranked ↔ Descending (accumulated hits) ranked.list ∧
      ∀ uuid ∈ ranked.list, ∀ other, HasHit hits other → other ∉ ranked.list →
        accumulated hits other ≤ accumulated hits uuid := by
  have length := listed.length
  constructor
  · exact fun top => ⟨top.sorted, top.best⟩
  · rintro ⟨sorted, best⟩
    refine { listed with all := fun few => ?_, full := fun many => ?_, best, sorted }
    · refine listed.all ?_
      rw [length]
      exact le_min few le_rfl
    · rw [length]
      exact min_eq_left many.le

theorem Listed.top_nil : Top [] (⟨[], fun _ => none⟩ : Ranked ι) :=
  Listed.nil.top_iff.mpr ⟨List.Pairwise.nil, fun _ mem => absurd mem List.not_mem_nil⟩

theorem Listed.moved (listed : Listed hits ranked) {after : Ranked ι} {high low : List ι} {uuid : ι}
    (moved : Moved ranked after high low uuid) (mem : uuid ∈ ranked.list)
    (outside : ∀ other, other ∉ ranked.list → after.rank other = ranked.rank other) (hurt : ℤ) :
    Listed (hits ++ [(uuid, hurt)]) after where
  listed other other_mem :=
    hasHit_concat.mpr (.inl (listed.listed other (moved.perm.mem_iff.mp other_mem)))
  length := by
    classical
    rw [moved.perm.length_eq, listed.length, hitters_concat, if_pos (listed.listed uuid mem)]
  inOrder := moved.inOrder
  absent other missing := by
    have before : other ∉ ranked.list := fun mem => missing (moved.perm.mem_iff.mpr mem)
    rw [outside other before, listed.absent other before]

/-- What the move of a role that was not listed comes to. -/
structure Entered (key : ι → ℤ) (base after : Ranked ι) (uuid : ι) : Prop where
  perm : after.list.Perm (base.list ++ [uuid])
  inOrder : after.InOrder
  absent : ∀ other, other ∉ after.list → after.rank other = none
  sorted : Descending key base.list → Descending key after.list

theorem updateSortedList_entered (key : ι → ℤ) {base : Ranked ι} {uuid : ι}
    (inOrder : base.InOrder) (absent : ∀ other, other ∉ base.list → base.rank other = none)
    (missing : uuid ∉ base.list) :
    ∃ after, updateSortedList key base uuid true = some after ∧ Entered key base after uuid := by
  obtain ⟨after, raised, moved⟩ :=
    raise_moved key (append_inOrder inOrder missing) (show (base.append uuid).list = base.list ++ [uuid] from rfl)
  refine ⟨after, ?_, moved.perm, moved.inOrder, fun other out => ?_, fun sorted => ?_⟩
  · rw [updateSortedList, absent uuid missing]
    exact raised
  · have out_before : other ∉ base.list ++ [uuid] := fun mem => out (moved.perm.mem_iff.mpr mem)
    have different : other ≠ uuid := by
      rintro rfl
      exact out_before (by simp)
    rw [raise_outside raised out_before different, Ranked.append]
    dsimp only
    rw [Function.update_of_ne different]
    exact absent other fun mem => out_before (List.mem_append_left _ mem)
  · rw [moved.list]
    refine descending_raised ?_ fun obj mem => absurd mem List.not_mem_nil
    rwa [List.append_nil]

theorem evict_spec {front : List ι} {last : ι} (inOrder : ranked.InOrder)
    (absent : ∀ other, other ∉ ranked.list → ranked.rank other = none)
    (list : ranked.list = front ++ [last]) :
    (evict ranked last).list = front ∧ (evict ranked last).InOrder ∧
      ∀ other, other ∉ front → (evict ranked last).rank other = none := by
  have shorter : (evict ranked last).list = front := by
    rw [evict, list, List.dropLast_concat]
  have nodup := inOrder.nodup
  have ranks := inOrder.ranked
  rw [list] at nodup ranks
  have not_front : last ∉ front := fun mem =>
    (List.nodup_append'.mp nodup).2.2 mem (List.mem_singleton_self last)
  refine ⟨shorter, ⟨?_, ?_⟩, fun other out => ?_⟩
  · rw [shorter]
    exact (List.nodup_append'.mp nodup).1
  · rw [shorter]
    exact (rankedFrom_append.mp ranks).1.update not_front none
  · by_cases same : other = last
    · subst same
      exact Function.update_self ..
    · rw [evict]
      dsimp only
      rw [Function.update_of_ne same]
      refine absent other ?_
      rw [list]
      simp [out, same]

end

section
variable {animal : AnimalCls ι} {hits : List (ι × ℤ)} {uuid : ι} {hurt : ℤ}

/-- What a counted hit does.  The cases are a role that is listed, one that enters a list with room,
one that stays out of a full list, and one that takes the place of the last role. -/
inductive Struck (animal : AnimalCls ι) (uuid : ι) (hurt : ℤ) (key : ι → ℤ) : Ranked ι → Prop where
  | raised {front back : List ι} {after : Ranked ι}
      (list : animal.hurtRank.list = front ++ uuid :: back)
      (moved : Moved animal.hurtRank after (front.rdropWhile fun other => key other < key uuid)
        (front.rtakeWhile (fun other => key other < key uuid) ++ back) uuid)
      (outside : ∀ other, other ∉ animal.hurtRank.list →
        after.rank other = animal.hurtRank.rank other) :
      Struck animal uuid hurt key after
  | entered {after : Ranked ι} (missing : uuid ∉ animal.hurtRank.list)
      (room : animal.hurtRank.list.length < rankLen)
      (entered : Entered key animal.hurtRank after uuid) : Struck animal uuid hurt key after
  | missed {front : List ι} {last : ι} (missing : uuid ∉ animal.hurtRank.list)
      (list : animal.hurtRank.list = front ++ [last])
      (full : rankLen ≤ animal.hurtRank.list.length) (low : hurt ≤ key last) :
      Struck animal uuid hurt key animal.hurtRank
  | evicted {front : List ι} {last : ι} {after : Ranked ι}
      (missing : uuid ∉ animal.hurtRank.list) (list : animal.hurtRank.list = front ++ [last])
      (full : rankLen ≤ animal.hurtRank.list.length) (high : key last < hurt)
      (entered : Entered key (evict animal.hurtRank last) after uuid) :
      Struck animal uuid hurt key after

theorem onHunt_struck (alive : animal.isDeath = false) (joined : uuid ∈ animal.roleDict)
    (listed : Listed hits animal.hurtRank) (hurt : ℤ) :
    ∃ after, animal.onHunt uuid hurt = some { animal with
        hurt := Function.update animal.hurt uuid (animal.hurt uuid + hurt)
        hurtRank := after } ∧
      Struck animal uuid hurt (Function.update animal.hurt uuid (animal.hurt uuid + hurt)) after := by
  let key := Function.update animal.hurt uuid (animal.hurt uuid + hurt)
  rw [AnimalCls.onHunt, if_neg (by simp [alive]), if_pos joined]
  dsimp only
  by_cases mem : uuid ∈ animal.hurtRank.list
  · obtain ⟨front, back, list, -, rank⟩ := listed.inOrder.split mem
    obtain ⟨after, raised, moved⟩ := raise_moved key listed.inOrder list
    have admitted : animal.enlist key uuid hurt = some (some animal.hurtRank) := by
      rw [AnimalCls.enlist, rank]
    have updated : updateSortedList key animal.hurtRank uuid true = some after := by
      rw [updateSortedList, rank]
      exact raised
    refine ⟨after, ?_, .raised list moved fun other out => ?_⟩
    · rw [admitted]
      dsimp only
      rw [updated]
      rfl
    · refine raise_outside raised out ?_
      rintro rfl
      exact out mem
  · have rank := listed.absent uuid mem
    by_cases full : rankLen ≤ animal.hurtRank.list.length
    · cases found : animal.hurtRank.list.getLast? with
      | none =>
          rw [List.getLast?_eq_none_iff.mp found] at full
          exact absurd full (Nat.not_le.mpr (show 0 < rankLen by decide))
      | some last =>
          obtain ⟨front, list⟩ := List.getLast?_eq_some_iff.mp found
          by_cases low : hurt ≤ key last
          · have admitted : animal.enlist key uuid hurt = some none := by
              rw [AnimalCls.enlist, rank]
              rw [if_pos full, found]
              exact if_pos low
            refine ⟨animal.hurtRank, ?_, .missed mem list full low⟩
            rw [admitted]
          · have admitted : animal.enlist key uuid hurt = some (some (evict animal.hurtRank last)) := by
              rw [AnimalCls.enlist, rank]
              rw [if_pos full, found]
              exact if_neg low
            obtain ⟨shorter, inOrder, absent⟩ := evict_spec listed.inOrder listed.absent list
            have missing : uuid ∉ (evict animal.hurtRank last).list := by
              rw [shorter]
              intro front_mem
              exact mem (by simp [list, front_mem])
            obtain ⟨after, updated, entered⟩ :=
              updateSortedList_entered key inOrder (by rwa [shorter]) missing
            refine ⟨after, ?_, .evicted mem list full (not_le.mp low) entered⟩
            rw [admitted]
            dsimp only
            rw [updated]
            rfl
    · have admitted : animal.enlist key uuid hurt = some (some animal.hurtRank) := by
        rw [AnimalCls.enlist, rank]
        exact if_neg full
      obtain ⟨after, updated, entered⟩ :=
        updateSortedList_entered key listed.inOrder listed.absent mem
      refine ⟨after, ?_, .entered mem (Nat.lt_of_not_le full) entered⟩
      rw [admitted]
      dsimp only
      rw [updated]
      rfl

theorem Struck.listed {key : ι → ℤ} {after : Ranked ι} (struck : Struck animal uuid hurt key after)
    (listed : Listed hits animal.hurtRank) : Listed (hits ++ [(uuid, hurt)]) after := by
  classical
  have length := listed.length
  cases struck with
  | raised list moved outside =>
      exact listed.moved moved (by simp [list]) outside hurt
  | entered missing room entered =>
      have fresh : ¬ HasHit hits uuid := fun hit => missing (listed.all (by omega) uuid hit)
      refine ⟨fun other mem => ?_, ?_, entered.inOrder, entered.absent⟩
      · rcases List.mem_append.mp (entered.perm.mem_iff.mp mem) with before | here
        · exact hasHit_concat.mpr (.inl (listed.listed other before))
        · exact hasHit_concat.mpr (.inr (List.mem_singleton.mp here))
      · rw [entered.perm.length_eq, List.length_append, List.length_singleton, hitters_concat,
          if_neg fresh]
        omega
  | missed missing list full low =>
      refine ⟨fun other mem => hasHit_concat.mpr (.inl (listed.listed other mem)), ?_,
        listed.inOrder, listed.absent⟩
      rw [hitters_concat]
      split <;> omega
  | evicted missing list full high entered =>
      obtain ⟨shorter, -, -⟩ := evict_spec listed.inOrder listed.absent list
      refine ⟨fun other mem => ?_, ?_, entered.inOrder, entered.absent⟩
      · rcases List.mem_append.mp (entered.perm.mem_iff.mp mem) with before | here
        · rw [shorter] at before
          exact hasHit_concat.mpr (.inl (listed.listed other (by simp [list, before])))
        · exact hasHit_concat.mpr (.inr (List.mem_singleton.mp here))
      · rw [entered.perm.length_eq, List.length_append, shorter, hitters_concat]
        rw [list, List.length_append] at length full
        split <;> simp only [List.length_singleton] at * <;> omega

section
variable {key : ι → ℤ} {after : Ranked ι} {front back : List ι} {last : ι}

theorem raised_top_iff (listed : Listed hits animal.hurtRank) (top : Top hits animal.hurtRank)
    (known : animal.hurt = accumulated hits)
    (eq_key : key = Function.update animal.hurt uuid (animal.hurt uuid + hurt))
    (list : animal.hurtRank.list = front ++ uuid :: back)
    (moved : Moved animal.hurtRank after (front.rdropWhile fun other => key other < key uuid)
      (front.rtakeWhile (fun other => key other < key uuid) ++ back) uuid) :
    (Descending key after.list ∧ ∀ obj ∈ after.list, ∀ other, HasHit (hits ++ [(uuid, hurt)]) other →
        other ∉ after.list → key other ≤ key obj) ↔
      ∀ other, HasHit hits other → other ∉ front → other ≠ uuid →
        animal.hurt other ≤ animal.hurt uuid + hurt := by
  have self_key : key uuid = animal.hurt uuid + hurt := by rw [eq_key, Function.update_self]
  have other_key : ∀ other, other ≠ uuid → key other = animal.hurt other := by
    intro other different
    rw [eq_key, Function.update_of_ne different]
  have members : ∀ other, other ∈ after.list ↔ other ∈ animal.hurtRank.list :=
    fun other => moved.perm.mem_iff
  have absent : uuid ∉ front ++ back := by
    have nodup := listed.inOrder.nodup
    rw [list] at nodup
    exact (List.nodup_cons.mp (List.perm_middle.nodup_iff.mp nodup)).1
  constructor
  · rintro ⟨sorted, best⟩ other hit out different
    rw [← self_key, ← other_key other different]
    by_cases mem : other ∈ animal.hurtRank.list
    · have behind : other ∈ back := by
        rw [list, List.mem_append, List.mem_cons] at mem
        tauto
      rw [moved.list] at sorted
      have below := (List.pairwise_cons.mp (List.pairwise_append.mp sorted).2.1).1
      exact below other (List.mem_append_right _ behind)
    · exact best uuid ((members uuid).mpr (by simp [list])) other (hasHit_concat.mpr (.inl hit))
        fun after_mem => mem ((members other).mp after_mem)
  · intro condition
    have sorted := top.sorted
    rw [list, ← known] at sorted
    constructor
    · rw [moved.list]
      refine descending_raised (descending_others sorted absent other_key) fun other mem => ?_
      have different : other ≠ uuid := by
        rintro rfl
        exact absent (List.mem_append_right _ mem)
      rw [self_key, other_key other different]
      refine condition other (listed.listed other (by simp [list, mem])) (fun ahead => ?_) different
      have nodup := listed.inOrder.nodup
      rw [list] at nodup
      exact (List.nodup_append'.mp nodup).2.2 ahead (List.mem_cons_of_mem _ mem)
    · intro obj mem other hit out
      have left : other ∉ animal.hurtRank.list := fun before => out ((members other).mpr before)
      have different : other ≠ uuid := by
        rintro rfl
        exact left (by simp [list])
      have hit_before : HasHit hits other := (hasHit_concat.mp hit).resolve_right different
      rw [other_key other different]
      by_cases same : obj = uuid
      · rw [same, self_key]
        refine condition other hit_before (fun ahead => left ?_) different
        simp [list, ahead]
      · rw [other_key obj same, known]
        exact top.best obj ((members obj).mp mem) other hit_before left

theorem last_le (top : Top hits animal.hurtRank) (list : animal.hurtRank.list = front ++ [last])
    {obj : ι} (mem : obj ∈ animal.hurtRank.list) : accumulated hits last ≤ accumulated hits obj := by
  have sorted := top.sorted
  rw [list] at sorted mem
  rcases List.mem_append.mp mem with ahead | here
  · exact (List.pairwise_append.mp sorted).2.2 obj ahead last (List.mem_singleton_self last)
  · rw [List.mem_singleton.mp here]

theorem missed_top_iff (top : Top hits animal.hurtRank) (known : animal.hurt = accumulated hits)
    (eq_key : key = Function.update animal.hurt uuid (animal.hurt uuid + hurt))
    (missing : uuid ∉ animal.hurtRank.list) (list : animal.hurtRank.list = front ++ [last]) :
    (Descending key animal.hurtRank.list ∧ ∀ obj ∈ animal.hurtRank.list, ∀ other,
        HasHit (hits ++ [(uuid, hurt)]) other → other ∉ animal.hurtRank.list → key other ≤ key obj) ↔
      animal.hurt uuid + hurt ≤ animal.hurt last := by
  have self_key : key uuid = animal.hurt uuid + hurt := by rw [eq_key, Function.update_self]
  have other_key : ∀ other, other ≠ uuid → key other = animal.hurt other := by
    intro other different
    rw [eq_key, Function.update_of_ne different]
  have listed_key : ∀ obj ∈ animal.hurtRank.list, key obj = accumulated hits obj := by
    intro obj mem
    rw [other_key obj (ne_of_mem_of_not_mem mem missing), known]
  have last_mem : last ∈ animal.hurtRank.list := by simp [list]
  constructor
  · rintro ⟨-, best⟩
    rw [← self_key, known, ← listed_key last last_mem]
    exact best last last_mem uuid (hasHit_concat.mpr (.inr rfl)) missing
  · intro low
    refine ⟨List.Pairwise.imp_of_mem (fun {first second} first_mem second_mem le => ?_) top.sorted, ?_⟩
    · rw [listed_key first first_mem, listed_key second second_mem]
      exact le
    · intro obj mem other hit out
      rw [listed_key obj mem]
      rcases hasHit_concat.mp hit with before | rfl
      · by_cases same : other = uuid
        · rw [same, self_key]
          rw [known] at low ⊢
          exact low.trans (last_le top list mem)
        · rw [other_key other same, known]
          exact top.best obj mem other before out
      · rw [self_key]
        rw [known] at low ⊢
        exact low.trans (last_le top list mem)

/-- A role enters a list that nobody but a last role has left: this one must not have more. -/
theorem entered_top_iff {base : Ranked ι} (top : Top hits animal.hurtRank)
    (known : animal.hurt = accumulated hits)
    (eq_key : key = Function.update animal.hurt uuid (animal.hurt uuid + hurt))
    (missing : uuid ∉ animal.hurtRank.list) (subset : base.list.Sublist animal.hurtRank.list)
    (entered : Entered key base after uuid)
    (left : ∀ other, HasHit hits other → other ∉ base.list → other ≠ uuid →
      ∀ obj ∈ base.list, animal.hurt other ≤ animal.hurt obj) :
    (Descending key after.list ∧ ∀ obj ∈ after.list, ∀ other,
        HasHit (hits ++ [(uuid, hurt)]) other → other ∉ after.list → key other ≤ key obj) ↔
      ∀ other, HasHit hits other → other ∉ base.list → other ≠ uuid →
        animal.hurt other ≤ animal.hurt uuid + hurt := by
  have self_key : key uuid = animal.hurt uuid + hurt := by rw [eq_key, Function.update_self]
  have other_key : ∀ other, other ≠ uuid → key other = animal.hurt other := by
    intro other different
    rw [eq_key, Function.update_of_ne different]
  have members : ∀ other, other ∈ after.list ↔ other ∈ base.list ∨ other = uuid := by
    intro other
    rw [entered.perm.mem_iff, List.mem_append, List.mem_singleton]
  constructor
  · rintro ⟨-, best⟩ other hit out different
    rw [← self_key, ← other_key other different]
    exact best uuid ((members uuid).mpr (.inr rfl)) other (hasHit_concat.mpr (.inl hit))
      fun mem => ((members other).mp mem).elim out different
  · intro condition
    constructor
    · refine entered.sorted ?_
      refine List.Pairwise.imp_of_mem (fun {first second} first_mem second_mem le => ?_)
        (top.sorted.sublist subset)
      rw [other_key first (ne_of_mem_of_not_mem (subset.subset first_mem) missing),
        other_key second (ne_of_mem_of_not_mem (subset.subset second_mem) missing), known]
      exact le
    · intro obj mem other hit out
      have different : other ≠ uuid := fun same => out ((members other).mpr (.inr same))
      have out_base : other ∉ base.list := fun before => out ((members other).mpr (.inl before))
      have hit_before : HasHit hits other := (hasHit_concat.mp hit).resolve_right different
      rw [other_key other different]
      rcases (members obj).mp mem with before | rfl
      · rw [other_key obj (ne_of_mem_of_not_mem (subset.subset before) missing)]
        exact left other hit_before out_base different obj before
      · rw [self_key]
        exact condition other hit_before out_base different

/-- After a counted hit the ranking has the top participants exactly if the hit fits. -/
theorem Struck.top_iff
    (struck : Struck animal uuid hurt
      (Function.update animal.hurt uuid (animal.hurt uuid + hurt)) after)
    (listed : Listed hits animal.hurtRank) (top : Top hits animal.hurtRank)
    (known : animal.hurt = accumulated hits) :
    Top (hits ++ [(uuid, hurt)]) after ↔ Fits animal hits uuid hurt := by
  have total : accumulated (hits ++ [(uuid, hurt)]) =
      Function.update animal.hurt uuid (animal.hurt uuid + hurt) := by
    rw [accumulated_concat, known]
  have capped : animal.hurtRank.list.length ≤ rankLen := by
    rw [listed.length]
    exact min_le_left _ _
  have last_key : ∀ {front : List ι} {last : ι}, uuid ∉ animal.hurtRank.list →
      animal.hurtRank.list = front ++ [last] →
        Function.update animal.hurt uuid (animal.hurt uuid + hurt) last = animal.hurt last := by
    intro front last missing list
    refine Function.update_of_ne ?_ _ _
    rintro rfl
    exact missing (by simp [list])
  rw [(struck.listed listed).top_iff, total, Fits]
  cases struck with
  | @raised front back after list moved outside =>
      have absent : uuid ∉ front := by
        have nodup := listed.inOrder.nodup
        rw [list] at nodup
        exact fun mem => (List.nodup_append'.mp nodup).2.2 mem List.mem_cons_self
      have before : animal.hurtRank.list.takeWhile (· ≠ uuid) = front := by
        rw [list, List.takeWhile_append_of_pos, List.takeWhile_cons_of_neg (by simp), List.append_nil]
        exact fun other mem => decide_eq_true (ne_of_mem_of_not_mem mem absent)
      rw [if_pos (by simp [list]), before]
      exact raised_top_iff listed top known rfl list moved
  | entered missing room entered =>
      rw [if_neg missing, entered_top_iff top known rfl missing (List.Sublist.refl _) entered]
      · have length := listed.length
        refine iff_of_true (fun other hit out => absurd (listed.all (by omega) other hit) out) ?_
        omega
      · intro other hit out _ obj mem
        rw [known]
        exact top.best obj mem other hit out
  | @missed front last missing list full low =>
      rw [if_neg missing, missed_top_iff top known rfl missing list]
      rw [last_key missing list] at low
      constructor
      · intro le other found _
        obtain rfl : last = other := by simpa [list] using found
        rwa [if_pos low]
      · intro condition
        have here := condition last (by simp [list]) (le_antisymm capped full)
        rwa [if_pos low] at here
  | @evicted front last after missing list full high entered =>
      obtain ⟨shorter, -, -⟩ := evict_spec listed.inOrder listed.absent list
      have sublist : (evict animal.hurtRank last).list.Sublist animal.hurtRank.list := by
        rw [shorter, list]
        exact List.sublist_append_left _ _
      rw [last_key missing list] at high
      -- whoever is left out of the shorter list has no more than the last role
      have behind : ∀ other, HasHit hits other → other ∉ front →
          animal.hurt other ≤ animal.hurt last := by
        intro other hit out
        by_cases same : other = last
        · rw [same]
        · rw [known]
          refine top.best last (by simp [list]) other hit ?_
          rw [list]
          simp [out, same]
      have last_out : last ∉ front := by
        have nodup := listed.inOrder.nodup
        rw [list] at nodup
        exact fun mem => (List.nodup_append'.mp nodup).2.2 mem (List.mem_singleton_self last)
      have last_mem : last ∈ animal.hurtRank.list := by simp [list]
      rw [if_neg missing, entered_top_iff top known rfl missing sublist entered]
      · rw [shorter]
        constructor
        · intro condition other found _
          obtain rfl : last = other := by simpa [list] using found
          rw [if_neg (not_le.mpr high)]
          exact condition last (listed.listed last last_mem) last_out
            (ne_of_mem_of_not_mem last_mem missing)
        · intro condition other hit out _
          have here := condition last (by simp [list]) (le_antisymm capped full)
          rw [if_neg (not_le.mpr high)] at here
          exact (behind other hit out).trans here
      · rw [shorter]
        intro other hit out _ obj mem
        refine (behind other hit out).trans ?_
        rw [known]
        exact last_le top list (by simp [list, mem])

end

end

end

end UEServer.Hunt
