import Mathlib

/-!
# Lists in descending order

`update_sorted_list` of `global_variables.lua`, as it is called for a list in descending order: an
object whose key has changed is moved up or down, one place after the other, and every object that
makes room for it is given its new rank.  Nothing in the source asks for the ascending order.
-/

namespace UEServer.Rank

/-- A list of objects, and the field `rank` of every object. -/
structure Ranked (ι : Type*) where
  list : List ι
  rank : ι → Option Nat

section
variable {ι α : Type*} [DecidableEq ι] [LinearOrder α]

/-- Put an object at an index, and give it this rank. -/
def Ranked.assign (state : Ranked ι) (index : Nat) (obj : ι) : Ranked ι where
  list := state.list.set (index - 1) obj
  rank := Function.update state.rank obj (some index)

/-- The loop that moves an object up.  The first argument is the index it looks at. -/
def raiseLoop (key : ι → α) (self : ι) : Nat → Ranked ι → Option (Nat × Ranked ι)
  | 0, state => some (1, state)
  | i + 1, state =>
      match state.list[i]? with
      | none => none
      | some obj =>
          if key self ≤ key obj then some (i + 2, state)
          else raiseLoop key self i (state.assign (i + 2) obj)

/-- The loop that moves an object down.  The first argument is the number of indices left, and the
second one the index before the one it looks at. -/
def lowerLoop (key : ι → α) (self : ι) : Nat → Nat → Ranked ι → Option (Nat × Ranked ι)
  | 0, _, state => some (state.list.length, state)
  | left + 1, i, state =>
      match state.list[i]? with
      | none => none
      | some obj =>
          if key obj ≤ key self then some (i, state)
          else lowerLoop key self left (i + 1) (state.assign i obj)

def Ranked.append (state : Ranked ι) (self : ι) : Ranked ι where
  list := state.list ++ [self]
  rank := Function.update state.rank self (some (state.list.length + 1))

def raise (key : ι → α) (state : Ranked ι) (self : ι) (rank : Nat) : Option (Ranked ι) :=
  if rank = 1 then some state
  else (raiseLoop key self (rank - 1) state).map fun (index, state) => state.assign index self

def lower (key : ι → α) (state : Ranked ι) (self : ι) (rank : Nat) : Option (Ranked ι) :=
  if rank = state.list.length then some state
  else
    (lowerLoop key self (state.list.length - rank) rank state).map fun (index, state) =>
      state.assign index self

/-- `update_sorted_list`; nothing if it raises. -/
def updateSortedList (key : ι → α) (state : Ranked ι) (self : ι) (isAdd : Bool) :
    Option (Ranked ι) :=
  match state.rank self with
  | none => raise key (state.append self) self (state.list.length + 1)
  | some rank => if isAdd then raise key state self rank else lower key state self rank

/-- The ranks of the objects of a list are their indices, counted from a start. -/
def RankedFrom (rank : ι → Option Nat) (start : Nat) (list : List ι) : Prop :=
  ∀ i obj, list[i]? = some obj → rank obj = some (start + i + 1)

/-- No object occurs twice, and every rank is the index. -/
structure Ranked.InOrder (state : Ranked ι) : Prop where
  nodup : state.list.Nodup
  ranked : RankedFrom state.rank 0 state.list

omit [DecidableEq ι] in
theorem rankedFrom_nil (rank : ι → Option Nat) (start : Nat) : RankedFrom rank start [] :=
  fun i obj found => by simp at found

variable {rank : ι → Option Nat}

omit [DecidableEq ι] in
theorem rankedFrom_cons {start : Nat} {obj : ι} {list : List ι} :
    RankedFrom rank start (obj :: list) ↔
      rank obj = some (start + 1) ∧ RankedFrom rank (start + 1) list := by
  constructor
  · intro ranked
    refine ⟨ranked 0 obj rfl, fun i other found => ?_⟩
    rw [ranked (i + 1) other (by simpa using found), Nat.add_right_comm start 1 i, Nat.add_assoc start i 1]
  · rintro ⟨first, rest⟩ i other found
    cases i with
    | zero =>
        obtain rfl := Option.some.inj found
        exact first
    | succ i =>
        rw [rest i other (by simpa using found), Nat.add_right_comm start 1 i, Nat.add_assoc start i 1]

omit [DecidableEq ι] in
theorem rankedFrom_append {start : Nat} {front back : List ι} :
    RankedFrom rank start (front ++ back) ↔
      RankedFrom rank start front ∧ RankedFrom rank (start + front.length) back := by
  induction front generalizing start with
  | nil => simp [rankedFrom_nil]
  | cons obj front ih =>
      rw [List.cons_append, rankedFrom_cons, rankedFrom_cons, ih, and_assoc, List.length_cons,
        Nat.add_right_comm, Nat.add_assoc start]

theorem RankedFrom.update {start : Nat} {list : List ι}
    (ranked : RankedFrom rank start list) {obj : ι} (absent : obj ∉ list) (value : Option Nat) :
    RankedFrom (Function.update rank obj value) start list := by
  intro i other found
  have different : other ≠ obj := by
    rintro rfl
    exact absent (List.mem_of_getElem? found)
  rw [Function.update_of_ne different]
  exact ranked i other found

/-- An object has found its place: the list, and the ranks before and after it. -/
structure Settles (front back : List ι) (obj : ι) (index : Nat) (state : Ranked ι) : Prop where
  place : index = front.length + 1
  list : (state.assign index obj).list = front ++ obj :: back
  ranked_front : RankedFrom state.rank 0 front
  ranked_back : RankedFrom state.rank (front.length + 1) back

theorem Settles.inOrder {front back : List ι} {self : ι} {index : Nat} {state : Ranked ι}
    (settles : Settles front back self index state) (nodup : (front ++ self :: back).Nodup) :
    (state.assign index self).InOrder := by
  obtain ⟨-, tail_nodup, apart⟩ := List.nodup_append'.mp nodup
  have not_front : self ∉ front := fun mem => apart mem List.mem_cons_self
  have not_back : self ∉ back := (List.nodup_cons.mp tail_nodup).1
  refine ⟨by rw [settles.list]; exact nodup, ?_⟩
  rw [settles.list, rankedFrom_append, rankedFrom_cons]
  refine ⟨settles.ranked_front.update not_front _, ?_, ?_⟩
  · rw [settles.place, Nat.zero_add]
    exact Function.update_self ..
  · rw [Nat.zero_add]
    exact settles.ranked_back.update not_back _

/-- The loop moves an object up over the objects with smaller keys that end the part before it. -/
theorem raiseLoop_settles (key : ι → α) (self : ι) (front : List ι) (hole : ι) (back : List ι)
    (state : Ranked ι) (list : state.list = front ++ hole :: back) (nodup : (front ++ back).Nodup)
    (ranked_front : RankedFrom state.rank 0 front)
    (ranked_back : RankedFrom state.rank (front.length + 1) back) :
    ∃ index after, raiseLoop key self front.length state = some (index, after) ∧
      Settles (front.rdropWhile fun obj => key obj < key self)
        (front.rtakeWhile (fun obj => key obj < key self) ++ back) self index after := by
  induction front using List.reverseRecOn generalizing hole back state with
  | nil =>
      refine ⟨1, state, rfl, rfl, ?_, rankedFrom_nil _ _, ranked_back⟩
      rw [Ranked.assign, list]
      rfl
  | append_singleton front obj ih =>
      have here : state.list[front.length]? = some obj := by
        rw [list]
        simp
      rw [List.length_append, List.length_singleton, raiseLoop, here]
      dsimp only
      by_cases smaller : key obj < key self
      · rw [if_neg (not_le.mpr smaller), List.rdropWhile_concat_pos _ _ _ (by simpa using smaller),
          List.rtakeWhile_concat_pos _ _ _ (by simpa using smaller), List.append_assoc,
          List.singleton_append]
        obtain ⟨ranked_front, ranked_obj⟩ := rankedFrom_append.mp ranked_front
        have obj_front : obj ∉ front := by
          intro mem
          rw [List.append_assoc] at nodup
          exact (List.nodup_append'.mp nodup).2.2 mem (by simp)
        have obj_back : obj ∉ back := fun mem =>
          (List.nodup_append'.mp nodup).2.2 (by simp) mem
        refine ih obj (obj :: back) (state.assign (front.length + 2) obj) ?_ ?_ ?_ ?_
        · rw [Ranked.assign, list]
          simp
        · simpa using nodup
        · exact ranked_front.update obj_front _
        · refine rankedFrom_cons.mpr ⟨Function.update_self .., ?_⟩
          rw [List.length_append] at ranked_back
          exact ranked_back.update obj_back _
      · rw [if_pos (not_lt.mp smaller), List.rdropWhile_concat_neg _ _ _ (by simpa using smaller),
          List.rtakeWhile_concat_neg _ _ _ (by simpa using smaller), List.nil_append]
        refine ⟨front.length + 2, state, rfl, by simp, ?_, ranked_front, ranked_back⟩
        rw [Ranked.assign, list]
        simp

/-- The loop moves an object down over the objects with greater keys that start the part after
it. -/
theorem lowerLoop_settles (key : ι → α) (self : ι) (front : List ι) (hole : ι) (back : List ι)
    (state : Ranked ι) (list : state.list = front ++ hole :: back) (nodup : (front ++ back).Nodup)
    (ranked_front : RankedFrom state.rank 0 front)
    (ranked_back : RankedFrom state.rank (front.length + 1) back) :
    ∃ index after, lowerLoop key self back.length (front.length + 1) state = some (index, after) ∧
      Settles (front ++ back.takeWhile fun obj => key self < key obj)
        (back.dropWhile fun obj => key self < key obj) self index after := by
  induction back generalizing front hole state with
  | nil =>
      refine ⟨state.list.length, state, rfl, by simp [list], ?_, by simpa using ranked_front,
        rankedFrom_nil _ _⟩
      rw [Ranked.assign, list]
      simp
  | cons obj back ih =>
      have here : state.list[front.length + 1]? = some obj := by
        rw [list]
        simp
      rw [List.length_cons, lowerLoop, here]
      dsimp only
      by_cases greater : key self < key obj
      · rw [if_neg (not_le.mpr greater), List.takeWhile_cons_of_pos (by simpa using greater),
          List.dropWhile_cons_of_pos (by simpa using greater), List.append_cons]
        obtain ⟨-, ranked_back⟩ := rankedFrom_cons.mp ranked_back
        have obj_back : obj ∉ back :=
          (List.nodup_cons.mp (List.nodup_append'.mp nodup).2.1).1
        have obj_front : obj ∉ front := fun mem =>
          (List.nodup_append'.mp nodup).2.2 mem List.mem_cons_self
        have moved := ih (front ++ [obj]) obj (state.assign (front.length + 1) obj) ?_ ?_ ?_ ?_
        · rw [List.length_append] at moved
          exact moved
        · rw [Ranked.assign, list]
          simp
        · rw [← List.append_cons]
          exact nodup
        · refine rankedFrom_append.mpr ⟨ranked_front.update obj_front _, ?_⟩
          refine rankedFrom_cons.mpr ⟨?_, rankedFrom_nil _ _⟩
          rw [Nat.zero_add]
          exact Function.update_self ..
        · rw [List.length_append]
          exact ranked_back.update obj_back _
      · rw [if_pos (not_lt.mp greater), List.takeWhile_cons_of_neg (by simpa using greater),
          List.dropWhile_cons_of_neg (by simpa using greater), List.append_nil]
        refine ⟨front.length + 1, state, rfl, rfl, ?_, ranked_front, ranked_back⟩
        rw [Ranked.assign, list]
        simp

/-- The loop leaves the ranks of the objects that are not listed as they are. -/
theorem raiseLoop_outside {key : ι → α} {self other : ι} {i index : Nat} {state after : Ranked ι}
    (looped : raiseLoop key self i state = some (index, after)) (absent : other ∉ state.list) :
    after.rank other = state.rank other := by
  induction i generalizing state with
  | zero =>
      cases looped
      rfl
  | succ i ih =>
      rw [raiseLoop] at looped
      cases found : state.list[i]? with
      | none =>
          rw [found] at looped
          cases looped
      | some obj =>
          rw [found] at looped
          dsimp only at looped
          have different : other ≠ obj := by
            rintro rfl
            exact absent (List.mem_of_getElem? found)
          split at looped
          · cases looped
            rfl
          · rw [ih looped, Ranked.assign]
            · exact Function.update_of_ne different ..
            · intro mem
              rcases List.mem_or_eq_of_mem_set mem with before | here
              · exact absent before
              · exact different here

theorem raise_outside {key : ι → α} {self other : ι} {rank : Nat} {state after : Ranked ι}
    (raised : raise key state self rank = some after) (absent : other ∉ state.list)
    (different : other ≠ self) : after.rank other = state.rank other := by
  rw [raise] at raised
  split at raised
  · cases raised
    rfl
  · obtain ⟨⟨index, middle⟩, looped, rfl⟩ := Option.map_eq_some_iff.mp raised
    rw [← raiseLoop_outside looped absent]
    exact Function.update_of_ne different ..

def Descending (key : ι → α) (list : List ι) : Prop :=
  list.Pairwise fun first second => key second ≤ key first

/-- The outcome of an update: the list is in order again, and the object is somewhere in it. -/
structure Moved (state after : Ranked ι) (front back : List ι) (obj : ι) : Prop where
  list : after.list = front ++ obj :: back
  perm : after.list.Perm state.list
  inOrder : after.InOrder

section
variable {state : Ranked ι} {front back : List ι} {self : ι}

omit [DecidableEq ι] in
theorem Ranked.InOrder.rank_self (inOrder : state.InOrder) (list : state.list = front ++ self :: back) :
    state.rank self = some (front.length + 1) := by
  have ranked := inOrder.ranked
  rw [list, rankedFrom_append, rankedFrom_cons] at ranked
  rw [ranked.2.1, Nat.zero_add]

omit [DecidableEq ι] in
theorem Ranked.InOrder.parts (inOrder : state.InOrder) (list : state.list = front ++ self :: back) :
    (front ++ back).Nodup ∧ RankedFrom state.rank 0 front ∧
      RankedFrom state.rank (front.length + 1) back := by
  obtain ⟨nodup, ranked⟩ := inOrder
  rw [list] at nodup ranked
  rw [rankedFrom_append, rankedFrom_cons, Nat.zero_add] at ranked
  exact ⟨nodup.sublist (by simp), ranked.1, ranked.2.2⟩

theorem Settles.moved {high low : List ι} {index : Nat} {middle : Ranked ι}
    (settles : Settles high low self index middle) (inOrder : state.InOrder)
    (list : state.list = front ++ self :: back) (same : high ++ low = front ++ back) :
    Moved state (middle.assign index self) high low self := by
  have perm : (high ++ self :: low).Perm state.list := by
    rw [list]
    refine List.perm_middle.trans (List.Perm.trans ?_ List.perm_middle.symm)
    rw [same]
  exact ⟨settles.list, settles.list ▸ perm, settles.inOrder (perm.nodup_iff.mpr inOrder.nodup)⟩

/-- Moving up ends behind the last object before it whose key is not smaller. -/
theorem raise_moved (key : ι → α) (inOrder : state.InOrder)
    (list : state.list = front ++ self :: back) :
    ∃ after, raise key state self (front.length + 1) = some after ∧
      Moved state after (front.rdropWhile fun obj => key obj < key self)
        (front.rtakeWhile (fun obj => key obj < key self) ++ back) self := by
  unfold raise
  by_cases first : front.length + 1 = 1
  · obtain rfl : front = [] := List.length_eq_zero_iff.mp (by omega)
    exact ⟨state, if_pos rfl, list, .refl _, inOrder⟩
  · rw [if_neg first, Nat.add_sub_cancel]
    obtain ⟨nodup, ranked_front, ranked_back⟩ := inOrder.parts list
    obtain ⟨index, middle, looped, settles⟩ :=
      raiseLoop_settles key self front self back state list nodup ranked_front ranked_back
    rw [looped]
    exact ⟨_, rfl, settles.moved inOrder list
      (by rw [← List.append_assoc, List.rdropWhile_append_rtakeWhile])⟩

/-- Moving down ends before the first object after it whose key is not greater. -/
theorem lower_moved (key : ι → α) (inOrder : state.InOrder)
    (list : state.list = front ++ self :: back) :
    ∃ after, lower key state self (front.length + 1) = some after ∧
      Moved state after (front ++ back.takeWhile fun obj => key self < key obj)
        (back.dropWhile fun obj => key self < key obj) self := by
  unfold lower
  have length : state.list.length = front.length + back.length + 1 := by
    rw [list, List.length_append, List.length_cons, Nat.add_assoc]
  by_cases last : front.length + 1 = state.list.length
  · obtain rfl : back = [] := List.length_eq_zero_iff.mp (by omega)
    exact ⟨state, if_pos last, by simpa using list, .refl _, inOrder⟩
  · rw [if_neg last, show state.list.length - (front.length + 1) = back.length by omega]
    obtain ⟨nodup, ranked_front, ranked_back⟩ := inOrder.parts list
    obtain ⟨index, middle, looped, settles⟩ :=
      lowerLoop_settles key self front self back state list nodup ranked_front ranked_back
    rw [looped]
    exact ⟨_, rfl, settles.moved inOrder list
      (by rw [List.append_assoc, List.takeWhile_append_dropWhile])⟩

theorem append_inOrder (inOrder : state.InOrder) (absent : self ∉ state.list) :
    (state.append self).InOrder := by
  refine ⟨?_, rankedFrom_append.mpr ⟨inOrder.ranked.update absent _, ?_⟩⟩
  · exact List.nodup_append'.mpr ⟨inOrder.nodup, List.nodup_singleton self,
      fun obj mem only => absent (List.mem_singleton.mp only ▸ mem)⟩
  · refine rankedFrom_cons.mpr ⟨?_, rankedFrom_nil _ _⟩
    rw [Nat.zero_add]
    exact Function.update_self ..

variable {key : ι → α}

section
omit [DecidableEq ι]

theorem descending_insert (sorted : Descending key (front ++ back))
    (above : ∀ obj ∈ front, key self ≤ key obj) (below : ∀ obj ∈ back, key obj ≤ key self) :
    Descending key (front ++ self :: back) := by
  obtain ⟨sorted_front, sorted_back, apart⟩ := List.pairwise_append.mp sorted
  refine List.pairwise_append.mpr ⟨sorted_front, List.pairwise_cons.mpr ⟨below, sorted_back⟩, ?_⟩
  intro obj mem other other_mem
  rcases List.mem_cons.mp other_mem with rfl | later
  · exact above obj mem
  · exact apart obj mem other later

theorem le_of_mem_rdropWhile (sorted : Descending key front) {bound : α} :
    ∀ obj ∈ front.rdropWhile fun obj => key obj < bound, bound ≤ key obj := by
  induction front using List.reverseRecOn with
  | nil => simp
  | append_singleton front last ih =>
      obtain ⟨sorted_front, -, apart⟩ := List.pairwise_append.mp sorted
      by_cases smaller : key last < bound
      · rw [List.rdropWhile_concat_pos _ _ _ (by simpa using smaller)]
        exact ih sorted_front
      · rw [List.rdropWhile_concat_neg _ _ _ (by simpa using smaller)]
        intro obj mem
        rcases List.mem_append.mp mem with earlier | only
        · exact (not_lt.mp smaller).trans (apart obj earlier last (by simp))
        · rw [List.mem_singleton.mp only]
          exact not_lt.mp smaller

theorem le_of_mem_dropWhile (sorted : Descending key back) {bound : α} :
    ∀ obj ∈ back.dropWhile fun obj => bound < key obj, key obj ≤ bound := by
  induction back with
  | nil => simp
  | cons first back ih =>
      obtain ⟨below, sorted_back⟩ := List.pairwise_cons.mp sorted
      by_cases greater : bound < key first
      · rw [List.dropWhile_cons_of_pos (by simpa using greater)]
        exact ih sorted_back
      · rw [List.dropWhile_cons_of_neg (by simpa using greater)]
        intro obj mem
        rcases List.mem_cons.mp mem with rfl | later
        · exact not_lt.mp greater
        · exact (below obj later).trans (not_lt.mp greater)

/-- An object that moves up finds its place if the objects after it have no greater keys. -/
theorem descending_raised (sorted : Descending key (front ++ back))
    (below : ∀ obj ∈ back, key obj ≤ key self) :
    Descending key ((front.rdropWhile fun obj => key obj < key self) ++ self ::
      (front.rtakeWhile (fun obj => key obj < key self) ++ back)) := by
  refine descending_insert ?_ (le_of_mem_rdropWhile (List.pairwise_append.mp sorted).1) ?_
  · rw [← List.append_assoc, List.rdropWhile_append_rtakeWhile]
    exact sorted
  · intro obj mem
    rcases List.mem_append.mp mem with passed | later
    · exact le_of_lt (by simpa using List.mem_rtakeWhile_imp passed)
    · exact below obj later

/-- An object that moves down finds its place if the objects before it have no smaller keys. -/
theorem descending_lowered (sorted : Descending key (front ++ back))
    (above : ∀ obj ∈ front, key self ≤ key obj) :
    Descending key ((front ++ back.takeWhile fun obj => key self < key obj) ++ self ::
      back.dropWhile fun obj => key self < key obj) := by
  refine descending_insert ?_ ?_ (le_of_mem_dropWhile (List.pairwise_append.mp sorted).2.1)
  · rw [List.append_assoc, List.takeWhile_append_dropWhile]
    exact sorted
  · intro obj mem
    rcases List.mem_append.mp mem with earlier | passed
    · exact above obj earlier
    · exact le_of_lt (by simpa using List.mem_takeWhile_imp passed)

end

end

end

end UEServer.Rank
