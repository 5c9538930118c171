import UEServer.Rank.SortedList

/-!
# What `update_sorted_list` does to a sorted list

The whole of `update_sorted_list`, for lists in ascending and in descending order.  In both orders it moves
a new object, or one whose key has changed, to its place, and keeps everything else as it was.
-/

namespace UEServer.Rank

open OrderDual

section
variable {ι : Type*} [DecidableEq ι]

/-- `update_sorted_list`; nothing if it raises.  An ascending list is in descending order for the dual
of the order, in which the loops of its branch compare. -/
def updateSortedListIn {α : Type*} [LinearOrder α] (key : ι → α) (state : Ranked ι) (self : ι)
    (isAdd isAscending : Bool) : Option (Ranked ι) :=
  if isAscending then
    match state.rank self with
    | none => raise (toDual ∘ key) (state.append self) self (state.list.length + 1)
    | some rank =>
        if isAdd then lower (toDual ∘ key) state self rank
        else raise (toDual ∘ key) state self rank
  else updateSortedList key state self isAdd

omit [DecidableEq ι] in
/-- A list in ascending or in descending order. -/
def SortedIn {α : Type*} [LinearOrder α] (isAscending : Bool) (key : ι → α) (list : List ι) : Prop :=
  match isAscending with
  | true => list.Pairwise fun first second => key first ≤ key second
  | false => Descending key list

/-- The first object is somewhere before the second one. -/
def Ahead (list : List ι) (first second : ι) : Prop :=
  first ∈ list.takeWhile (· ≠ second)

/-- The objects of the list, with the object itself. -/
def Ranked.listed (state : Ranked ι) (self : ι) : List ι :=
  if self ∈ state.list then state.list else state.list ++ [self]

/-- The object has got to its place in a list, and everything else is as it was. -/
structure Placed {α : Type*} (Sorts : List ι → Prop) (key : ι → α) (listed : List ι) (obj : ι)
    (after : Ranked ι) : Prop where
  perm : after.list.Perm listed
  sorted : Sorts after.list
  ranked : RankedFrom after.rank 0 after.list
  others : after.list.filter (· ≠ obj) = listed.filter (· ≠ obj)
  ties : ∀ other ∈ listed, other ≠ obj → key other = key obj →
    (Ahead after.list other obj ↔ Ahead listed other obj)

omit [DecidableEq ι] in
theorem RankedFrom.nodup {rank : ι → Option ℕ} {start : ℕ} {list : List ι}
    (ranked : RankedFrom rank start list) : list.Nodup := by
  induction list generalizing start with
  | nil => exact List.nodup_nil
  | cons obj list ih =>
      obtain ⟨first, rest⟩ := rankedFrom_cons.mp ranked
      refine List.nodup_cons.mpr ⟨fun mem => ?_, ih rest⟩
      obtain ⟨i, found⟩ := List.mem_iff_getElem?.mp mem
      have again := rest i obj found
      rw [first] at again
      have equal := Option.some.inj again
      omega

theorem ahead_middle {front back : List ι} {other self : ι} (absent : self ∉ front) :
    Ahead (front ++ self :: back) other self ↔ other ∈ front := by
  have before : ∀ obj ∈ front, (decide (obj ≠ self)) = true := by
    intro obj mem
    refine decide_eq_true ?_
    rintro rfl
    exact absent mem
  rw [Ahead, List.takeWhile_append_of_pos before, List.takeWhile_cons_of_neg (by simp),
    List.append_nil]

theorem filter_middle {front back : List ι} {self : ι} (absent : self ∉ front ++ back) :
    (front ++ self :: back).filter (· ≠ self) = front ++ back := by
  rw [List.filter_append, List.filter_cons_of_neg (by simp), ← List.filter_append]
  refine List.filter_eq_self.mpr fun obj mem => decide_eq_true ?_
  rintro rfl
  exact absent mem

end

section
variable {ι β : Type*} [DecidableEq ι] [LinearOrder β] {state : Ranked ι} {front back : List ι}
  {self : ι} {key old : ι → β}

theorem Moved.placed {after : Ranked ι} {high low : List ι}
    (moved : Moved state after high low self) (list : state.list = front ++ self :: back)
    (sorted : Descending key (high ++ self :: low)) (same : high ++ low = front ++ back)
    (ties : ∀ other, key other = key self → (other ∈ high ↔ other ∈ front)) :
    Placed (Descending key) key state.list self after := by
  have nodup := moved.inOrder.nodup
  rw [moved.list] at nodup
  have absent : self ∉ high ++ low :=
    (List.nodup_cons.mp (List.perm_middle.nodup_iff.mp nodup)).1
  have absent_old : self ∉ front ++ back := same ▸ absent
  refine ⟨moved.perm, ?_, moved.inOrder.ranked, ?_, ?_⟩
  · rw [moved.list]
    exact sorted
  · rw [moved.list, list, filter_middle absent, filter_middle absent_old]
    exact same
  · intro other _ _ equal
    rw [moved.list, list, ahead_middle fun mem => absent (List.mem_append_left _ mem),
      ahead_middle fun mem => absent_old (List.mem_append_left _ mem)]
    exact ties other equal

theorem raise_placed (inOrder : state.InOrder) (list : state.list = front ++ self :: back)
    (sorted : Descending key (front ++ back)) (below : ∀ obj ∈ back, key obj ≤ key self) :
    ∃ after, raise key state self (front.length + 1) = some after ∧
      Placed (Descending key) key state.list self after := by
  obtain ⟨after, raised, moved⟩ := raise_moved key inOrder list
  refine ⟨after, raised, moved.placed list (descending_raised sorted below) ?_ ?_⟩
  · rw [← List.append_assoc, List.rdropWhile_append_rtakeWhile]
  · intro other equal
    constructor
    · exact fun mem => (List.rdropWhile_prefix _ _).subset mem
    · intro mem
      rw [← @List.rdropWhile_append_rtakeWhile _ (fun obj => decide (key obj < key self)) front,
        List.mem_append] at mem
      rcases mem with kept | passed
      · exact kept
      · have smaller : key other < key self := by simpa using List.mem_rtakeWhile_imp passed
        exact absurd equal smaller.ne

theorem lower_placed (inOrder : state.InOrder) (list : state.list = front ++ self :: back)
    (sorted : Descending key (front ++ back)) (above : ∀ obj ∈ front, key self ≤ key obj) :
    ∃ after, lower key state self (front.length + 1) = some after ∧
      Placed (Descending key) key state.list self after := by
  obtain ⟨after, lowered, moved⟩ := lower_moved key inOrder list
  refine ⟨after, lowered, moved.placed list (descending_lowered sorted above) ?_ ?_⟩
  · rw [List.append_assoc, List.takeWhile_append_dropWhile]
  · intro other equal
    refine ⟨fun mem => ?_, List.mem_append_left _⟩
    rcases List.mem_append.mp mem with kept | passed
    · exact kept
    · have greater : key self < key other := by simpa using List.mem_takeWhile_imp passed
      exact absurd equal greater.ne'

omit [DecidableEq ι] in
theorem descending_others (sorted : Descending old (front ++ self :: back))
    (absent : self ∉ front ++ back) (same : ∀ other, other ≠ self → key other = old other) :
    Descending key (front ++ back) := by
  have fewer : Descending old (front ++ back) := sorted.sublist (by simp)
  refine List.Pairwise.imp_of_mem (fun {first second} first_mem second_mem le => ?_) fewer
  rw [same first (ne_of_mem_of_not_mem first_mem absent),
    same second (ne_of_mem_of_not_mem second_mem absent)]
  exact le

section
variable (inOrder : state.InOrder) (mem : self ∈ state.list)
include inOrder mem

omit [DecidableEq ι] in
theorem Ranked.InOrder.split :
    ∃ front back, state.list = front ++ self :: back ∧ self ∉ front ++ back ∧
      state.rank self = some (front.length + 1) := by
  obtain ⟨front, back, list⟩ := List.append_of_mem mem
  have nodup := inOrder.nodup
  rw [list] at nodup
  exact ⟨front, back, list, (List.nodup_cons.mp (List.perm_middle.nodup_iff.mp nodup)).1,
    inOrder.rank_self list⟩

theorem raise_listed (sorted : Descending old state.list)
    (same : ∀ other, other ≠ self → key other = old other) (grown : old self ≤ key self) :
    ∃ rank, state.rank self = some rank ∧ ∃ after, raise key state self rank = some after ∧
      Placed (Descending key) key state.list self after := by
  obtain ⟨front, back, list, absent, rank⟩ := inOrder.split mem
  rw [list] at sorted
  refine ⟨_, rank, raise_placed inOrder list (descending_others sorted absent same) ?_⟩
  intro obj later
  rw [same obj (ne_of_mem_of_not_mem (List.mem_append_right _ later) absent)]
  exact ((List.pairwise_cons.mp (List.pairwise_append.mp sorted).2.1).1 obj later).trans grown

theorem lower_listed (sorted : Descending old state.list)
    (same : ∀ other, other ≠ self → key other = old other) (shrunk : key self ≤ old self) :
    ∃ rank, state.rank self = some rank ∧ ∃ after, lower key state self rank = some after ∧
      Placed (Descending key) key state.list self after := by
  obtain ⟨front, back, list, absent, rank⟩ := inOrder.split mem
  rw [list] at sorted
  refine ⟨_, rank, lower_placed inOrder list (descending_others sorted absent same) ?_⟩
  intro obj earlier
  rw [same obj (ne_of_mem_of_not_mem (List.mem_append_left _ earlier) absent)]
  exact shrunk.trans ((List.pairwise_append.mp sorted).2.2 obj earlier self List.mem_cons_self)

end

theorem raise_new (inOrder : state.InOrder) (absent : self ∉ state.list)
    (sorted : Descending old state.list) (same : ∀ other, other ≠ self → key other = old other) :
    ∃ after, raise key (state.append self) self (state.list.length + 1) = some after ∧
      Placed (Descending key) key (state.list ++ [self]) self after := by
  refine raise_placed (append_inOrder inOrder absent) rfl ?_ (fun obj mem => absurd mem List.not_mem_nil)
  rw [List.append_nil]
  refine List.Pairwise.imp_of_mem (fun {first second} first_mem second_mem le => ?_) sorted
  rw [same first (ne_of_mem_of_not_mem first_mem absent),
    same second (ne_of_mem_of_not_mem second_mem absent)]
  exact le

end

section
variable {ι α : Type*} [DecidableEq ι] [LinearOrder α] {state : Ranked ι} {self : ι}
  {key old : ι → α}

/-- In the dual of the order, a list in descending order is one in ascending order. -/
theorem Placed.dual {listed : List ι} {after : Ranked ι}
    (placed : Placed (Descending (toDual ∘ key)) (toDual ∘ key) listed self after) :
    Placed (SortedIn true key) key listed self after where
  perm := placed.perm
  sorted := placed.sorted
  ranked := placed.ranked
  others := placed.others
  ties := placed.ties

/-- A new object, or one whose key has changed as is announced, gets to its place in a sorted list. -/
theorem updateSortedListIn_placed {isAdd isAscending : Bool}
    (sorted : SortedIn isAscending old state.list) (ranked : RankedFrom state.rank 0 state.list)
    (same : ∀ other, other ≠ self → key other = old other)
    (changed : state.rank self = none ∨
      self ∈ state.list ∧ if isAdd then old self ≤ key self else key self ≤ old self) :
    ∃ after, updateSortedListIn key state self isAdd isAscending = some after ∧
      Placed (SortedIn isAscending key) key (state.listed self) self after := by
  have inOrder : state.InOrder := ⟨ranked.nodup, ranked⟩
  rcases changed with new | ⟨mem, changed⟩
  · have absent : self ∉ state.list := by
      intro mem
      obtain ⟨front, back, list, absent, rank⟩ := inOrder.split mem
      cases new.symm.trans rank
    rw [Ranked.listed, if_neg absent]
    cases isAscending with
    | true =>
        have dual_sorted : Descending (toDual ∘ old) state.list := sorted
        have dual_same : ∀ other, other ≠ self → (toDual ∘ key) other = (toDual ∘ old) other := same
        obtain ⟨after, raised, placed⟩ := raise_new inOrder absent dual_sorted dual_same
        refine ⟨after, ?_, placed.dual⟩
        rw [updateSortedListIn, if_pos rfl, new]
        exact raised
    | false =>
        obtain ⟨after, raised, placed⟩ := raise_new inOrder absent sorted same
        refine ⟨after, ?_, placed⟩
        rw [updateSortedListIn, if_neg nofun, updateSortedList, new]
        exact raised
  · rw [Ranked.listed, if_pos mem]
    have dual_same : ∀ other, other ≠ self → (toDual ∘ key) other = (toDual ∘ old) other := same
    cases isAscending with
    | true =>
        have dual_sorted : Descending (toDual ∘ old) state.list := sorted
        rw [updateSortedListIn, if_pos rfl]
        cases isAdd with
        | true =>
            obtain ⟨rank, found, after, lowered, placed⟩ :=
              lower_listed inOrder mem dual_sorted dual_same changed
            rw [found]
            exact ⟨after, lowered, placed.dual⟩
        | false =>
            obtain ⟨rank, found, after, raised, placed⟩ :=
              raise_listed inOrder mem dual_sorted dual_same changed
            rw [found]
            exact ⟨after, raised, placed.dual⟩
    | false =>
        rw [updateSortedListIn, if_neg nofun, updateSortedList]
        cases isAdd with
        | true =>
            obtain ⟨rank, found, after, raised, placed⟩ := raise_listed inOrder mem sorted same changed
            rw [found]
            exact ⟨after, raised, placed⟩
        | false =>
            obtain ⟨rank, found, after, lowered, placed⟩ := lower_listed inOrder mem sorted same changed
            rw [found]
            exact ⟨after, lowered, placed⟩

end

/-- Three objects in ascending order, the second and the third one with the same key. -/
def tied : Ranked ℕ := ⟨[1, 2, 3], fun obj => if obj ∈ [1, 2, 3] then some obj else none⟩

/-- The first object's key grows to that of the others, and it stays before both. -/
theorem updateSortedListIn_placed_tied :
    ∃ after, updateSortedListIn (fun _ => 7) tied 1 true true = some after ∧
      Placed (SortedIn true fun _ => 7) (fun _ => 7) (tied.listed 1) 1 after := by
  have sorted : SortedIn true (fun obj => if obj = 1 then 4 else 7) tied.list := by
    unfold SortedIn tied
    decide
  have ranked : RankedFrom tied.rank 0 tied.list :=
    rankedFrom_cons.mpr ⟨rfl, rankedFrom_cons.mpr ⟨rfl, rankedFrom_cons.mpr
      ⟨rfl, rankedFrom_nil _ _⟩⟩⟩
  have same : ∀ other, other ≠ 1 → 7 = if other = 1 then 4 else 7 := fun _ other => (if_neg other).symm
  exact updateSortedListIn_placed sorted ranked same (.inr ⟨by decide, by decide⟩)

end UEServer.Rank
