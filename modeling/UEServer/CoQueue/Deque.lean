import Mathlib.Data.List.Range

/-!
# A deque

The `Deque` of `table_extend.lua`: a table with the positions at which it begins and ends.  The positions
only grow, so that its contents are moved to the front of the table from time to time; what is behind
the end is not cleared.
-/

namespace UEServer.CoQueue

def maxDequePos : ℤ := 2000 * 1000 * 1000

/-- `table.move(list, first, last, target)`. -/
def tableMove {α : Type*} (list : ℤ → α) (first last target : ℤ) : ℤ → α := fun position =>
  if target ≤ position ∧ position ≤ target + (last - first) then list (first + (position - target))
  else list position

/-- A deque of Lua values, where `none` is `nil`. -/
structure Deque (α : Type*) where
  /-- `__left`: the position of the first value. -/
  left : ℤ
  /-- `__right`: the position after the last value. -/
  right : ℤ
  deque : ℤ → Option α
  ordered : left ≤ right

namespace Deque

variable {α : Type*}

def new : Deque α := ⟨1, 1, fun _ => none, Int.le_refl 1⟩

def len (self : Deque α) : ℕ := (self.right - self.left).toNat

def rerange (self : Deque α) : Deque α where
  left := 1
  right := self.right - self.left + 1
  deque := tableMove self.deque self.left self.right 1
  ordered := by have := self.ordered; omega

def append (self : Deque α) (value : Option α) : Deque α :=
  let self : Deque α :=
    { self with
      deque := Function.update self.deque self.right value
      right := self.right + 1
      ordered := by have := self.ordered; omega }
  if maxDequePos < self.right then self.rerange else self

def popleft (self : Deque α) : Option α × Deque α :=
  if some : self.left < self.right then
    (self.deque self.left,
      { self with
        deque := Function.update self.deque self.left none
        left := self.left + 1
        ordered := by omega })
  else (none, self)

def appendleft (self : Deque α) (value : Option α) : Deque α :=
  let self : Deque α :=
    { self with
      left := self.left - 1
      deque := Function.update self.deque (self.left - 1) value
      ordered := by have := self.ordered; omega }
  if self.left < -maxDequePos then self.rerange else self

def pop (self : Deque α) : Option α × Deque α :=
  if some : self.left < self.right then
    (self.deque (self.right - 1),
      { self with
        right := self.right - 1
        deque := Function.update self.deque (self.right - 1) none
        ordered := by omega })
  else (none, self)

def peek (self : Deque α) : Option α :=
  if self.left < self.right then self.deque (self.right - 1) else none

def peekleft (self : Deque α) : Option α :=
  if self.left < self.right then self.deque self.left else none

def clear (self : Deque α) : Deque α :=
  { self with left := 1, right := 1, deque := fun _ => none, ordered := Int.le_refl 1 }

def index (self : Deque α) (k : ℤ) : Option α :=
  if 1 ≤ k ∧ k ≤ self.right - self.left then self.deque (self.left + k - 1) else none

/-- `__newindex`, which raises if there is no such position. -/
def newindex (self : Deque α) (k : ℤ) (value : Option α) : Option (Deque α) :=
  if 1 ≤ k ∧ k ≤ self.right - self.left then
    some { self with deque := Function.update self.deque (self.left + k - 1) value }
  else none

def next (self : Deque α) (k : Option ℤ) : Option (ℤ × Option α) :=
  let k :=
    match k with
    | none => 1
    | some k => k + 1
  if self.right - self.left < k then none else some (k, self.deque (self.left + k - 1))

variable (self : Deque α)

theorem next_eq (k : Option ℤ) :
    self.next k = if self.right - self.left < k.getD 0 + 1 then none
      else some (k.getD 0 + 1, self.deque (self.left + (k.getD 0 + 1) - 1)) := by
  cases k with
  | none => rfl
  | some k => rfl

/-- What a traversal by `__next` visits after an index. -/
def pairsFrom (self : Deque α) (k : Option ℤ) : List (ℤ × Option α) :=
  match _visited : self.next k with
  | none => []
  | some (k, value) => (k, value) :: self.pairsFrom (some k)
termination_by (self.right - self.left - k.getD 0).toNat
decreasing_by
  rw [next_eq] at _visited
  obtain ⟨inside, same⟩ := Option.ite_none_left_eq_some.mp _visited
  obtain ⟨rfl, -⟩ := Prod.ext_iff.mp (Option.some.inj same)
  dsimp only [Option.getD_some]
  omega

/-- `__pairs`: what a loop over a deque visits. -/
def pairs (self : Deque α) : List (ℤ × Option α) := self.pairsFrom none

def toList (self : Deque α) : List (Option α) :=
  (List.range self.len).map fun index : ℕ => self.deque (self.left + (index : ℤ))

@[simp]
theorem length_toList : self.toList.length = self.len := by
  rw [toList, List.length_map, List.length_range]

theorem toList_rerange : self.rerange.toList = self.toList := by
  have len : self.rerange.len = self.len := by
    change (self.right - self.left + 1 - 1).toNat = (self.right - self.left).toNat
    omega
  rw [toList, toList, len]
  refine List.map_congr_left fun index mem => ?_
  have small := List.mem_range.mp mem
  unfold Deque.len at small
  have inside : (1 : ℤ) ≤ 1 + index ∧ (1 : ℤ) + index ≤ 1 + (self.right - self.left) := by omega
  change tableMove self.deque self.left self.right 1 (1 + index) = _
  rw [tableMove, if_pos inside]
  congr 1
  omega

theorem toList_append (value : Option α) :
    (self.append value).toList = self.toList ++ [value] := by
  have ordered := self.ordered
  have grown : toList
      { self with
        deque := Function.update self.deque self.right value
        right := self.right + 1
        ordered := by omega } = self.toList ++ [value] := by
    have len : (self.right + 1 - self.left).toNat = self.len + 1 := by
      unfold Deque.len
      omega
    have last : self.left + (self.len : ℤ) = self.right := by
      omega
    rw [toList, Deque.len, len, List.range_succ, List.map_append, List.map_singleton]
    dsimp only
    rw [last, Function.update_self]
    congr 1
    refine List.map_congr_left fun index mem => ?_
    have small := List.mem_range.mp mem
    exact Function.update_of_ne (by omega) ..
  unfold append
  dsimp only
  split
  · rw [toList_rerange, grown]
  · exact grown

theorem toList_popleft {self : Deque α} (some : 0 < self.len) :
    self.toList = self.popleft.1 :: self.popleft.2.toList := by
  have before : self.left < self.right := by
    unfold len at some
    omega
  have len : self.len = (self.right - (self.left + 1)).toNat + 1 := by
    unfold Deque.len
    omega
  rw [toList, len, List.range_succ_eq_map, List.map_cons, List.map_map, popleft, dif_pos before,
    Int.natCast_zero, Int.add_zero]
  congr 1
  refine List.map_congr_left fun index _ => ?_
  have other : self.left + 1 + (index : ℤ) ≠ self.left := by omega
  dsimp only [Function.comp_apply]
  rw [Function.update_of_ne other]
  congr 1
  omega

theorem toList_appendleft (value : Option α) :
    (self.appendleft value).toList = value :: self.toList := by
  have ordered := self.ordered
  have grown : toList
      { self with
        left := self.left - 1
        deque := Function.update self.deque (self.left - 1) value
        ordered := by omega } = value :: self.toList := by
    have len : (self.right - (self.left - 1)).toNat = self.len + 1 := by
      unfold Deque.len
      omega
    rw [toList, Deque.len, len, List.range_succ_eq_map, List.map_cons, List.map_map]
    dsimp only
    rw [Int.natCast_zero, Int.add_zero, Function.update_self]
    congr 1
    refine List.map_congr_left fun index _ => ?_
    have other : self.left - 1 + ((index + 1 : ℕ) : ℤ) ≠ self.left - 1 := by omega
    dsimp only [Function.comp_apply, Nat.succ_eq_add_one]
    rw [Function.update_of_ne other]
    congr 1
    omega
  unfold appendleft
  dsimp only
  split
  · rw [toList_rerange, grown]
  · exact grown

theorem toList_pop {self : Deque α} (some : 0 < self.len) :
    self.toList = self.pop.2.toList ++ [self.pop.1] := by
  have before : self.left < self.right := by
    unfold len at some
    omega
  have len : self.len = (self.right - 1 - self.left).toNat + 1 := by
    unfold Deque.len
    omega
  have last : self.left + ((self.right - 1 - self.left).toNat : ℤ) = self.right - 1 := by omega
  rw [toList, len, List.range_succ, List.map_append, List.map_singleton, last, pop, dif_pos before]
  congr 1
  refine List.map_congr_left fun index mem => ?_
  have small : index < (self.right - 1 - self.left).toNat := List.mem_range.mp mem
  have other : self.left + (index : ℤ) ≠ self.right - 1 := by omega
  exact (Function.update_of_ne other ..).symm

theorem getElem?_toList (index : ℕ) :
    self.toList[index]? =
      if index < self.len then some (self.deque (self.left + (index : ℤ))) else none := by
  rw [toList, List.getElem?_map]
  split
  · rename_i small
    rw [List.getElem?_range small]
    rfl
  · rw [List.getElem?_eq_none (by rw [List.length_range]; omega)]
    rfl

theorem toList_newindex {self after : Deque α} {k : ℤ} {value : Option α}
    (replaced : self.newindex k value = some after) :
    after.toList = self.toList.set (k - 1).toNat value := by
  obtain ⟨inside, same⟩ := Option.ite_none_right_eq_some.mp replaced
  cases same
  refine List.ext_getElem? fun index => ?_
  rw [List.getElem?_set, getElem?_toList, getElem?_toList, length_toList]
  change (if index < self.len then
    some (Function.update self.deque (self.left + k - 1) value (self.left + index)) else none) = _
  by_cases here : (k - 1).toNat = index
  · have position : self.left + (index : ℤ) = self.left + k - 1 := by omega
    have small : index < self.len := by
      unfold len
      omega
    rw [if_pos here, if_pos small, here, if_pos small, position, Function.update_self]
  · have position : self.left + (index : ℤ) ≠ self.left + k - 1 := by omega
    rw [if_neg here, Function.update_of_ne position]

theorem pairsFrom_eq (k : Option ℤ) {before : ℕ} (start : k.getD 0 = before) :
    self.pairsFrom k =
      (self.toList.drop before).mapIdx fun index value => ((index : ℤ) + before + 1, value) := by
  fun_induction self.pairsFrom k generalizing before with
  | case1 k finished =>
      rw [next_eq, start] at finished
      have all : self.toList.length ≤ before := by
        rw [length_toList, len]
        by_contra more
        rw [if_neg (by omega)] at finished
        cases finished
      rw [List.drop_eq_nil_of_le all, List.mapIdx_nil]
  | case2 k after value visited ih =>
      rw [next_eq, start] at visited
      obtain ⟨inside, same⟩ := Option.ite_none_left_eq_some.mp visited
      obtain ⟨rfl, rfl⟩ := Prod.ext_iff.mp (Option.some.inj same)
      have small : before < self.toList.length := by
        rw [length_toList, len]
        omega
      have head : self.toList[before] = self.deque (self.left + ((before : ℤ) + 1) - 1) := by
        have found := self.getElem?_toList before
        rw [List.getElem?_eq_getElem small, if_pos (by rwa [length_toList] at small)] at found
        rw [Option.some.inj found]
        congr 1
        omega
      have later : (some ((before : ℤ) + 1)).getD 0 = ((before + 1 : ℕ) : ℤ) := by
        rw [Option.getD_some]
        omega
      rw [ih later, List.drop_eq_getElem_cons small, List.mapIdx_cons, head, Int.natCast_zero,
        Int.zero_add]
      congr 2
      funext index value
      congr 1
      omega

theorem pairs_eq :
    self.pairs = self.toList.mapIdx fun index value => ((index : ℤ) + 1, value) := by
  rw [pairs, self.pairsFrom_eq none (Int.natCast_zero.symm), List.drop_zero]
  congr 1

theorem index_eq (k : ℤ) :
    self.index k = if 1 ≤ k then (self.toList[(k - 1).toNat]?).join else none := by
  rw [index, getElem?_toList]
  by_cases low : 1 ≤ k
  · rw [if_pos low]
    by_cases high : k ≤ self.right - self.left
    · have position : self.left + ((k - 1).toNat : ℤ) = self.left + k - 1 := by omega
      have small : (k - 1).toNat < self.len := by
        unfold len
        omega
      rw [if_pos ⟨low, high⟩, if_pos small, position, Option.join_some]
    · have large : ¬ (k - 1).toNat < self.len := by
        unfold len
        omega
      rw [if_neg (fun inside => high inside.2), if_neg large, Option.join_none]
  · rw [if_neg (fun inside => low inside.1), if_neg low]

end Deque
end UEServer.CoQueue
