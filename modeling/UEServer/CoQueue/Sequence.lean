import Mathlib.Data.List.Perm.Subperm
import UEServer.CoQueue.Deque
import UEServer.Library.Execution

/-!
# A deque is a sequence

Whatever is done with a deque, it shows the sequence that the same operations make of a list.
-/

namespace UEServer.CoQueue

open Execution

variable {α : Type*}

/-- An operation on a deque of values that are not `nil`. -/
inductive DequeOp (α : Type*) where
  | append (value : α)
  | appendleft (value : α)
  | pop
  | popleft
  | peek
  | peekleft
  | assign (k : ℤ) (value : α)
  | clear

/-- One operation with what it returns, if it does not raise. -/
def Deque.step (self : Deque α) : DequeOp α → Option (Option α × Deque α)
  | .append value => some (none, self.append (some value))
  | .appendleft value => some (none, self.appendleft (some value))
  | .pop => some self.pop
  | .popleft => some self.popleft
  | .peek => some (self.peek, self)
  | .peekleft => some (self.peekleft, self)
  | .assign k value => (self.newindex k (some value)).map fun after => (none, after)
  | .clear => some (none, self.clear)

/-- What an operation does to a sequence, and returns. -/
def sequenceStep (values : List α) : DequeOp α → Option (Option α × List α)
  | .append value => some (none, values ++ [value])
  | .appendleft value => some (none, value :: values)
  | .pop => some (values.getLast?, values.dropLast)
  | .popleft => some (values.head?, values.tail)
  | .peek => some (values.getLast?, values)
  | .peekleft => some (values.head?, values)
  | .assign k value =>
      if 1 ≤ k ∧ k ≤ values.length then some (none, values.set (k - 1).toNat value) else none
  | .clear => some (none, [])

def DequeOp.inserted : DequeOp α → Option α
  | .append value | .appendleft value | .assign _ value => some value
  | _ => none

def DequeOp.popped : DequeOp α → Option α → Option α
  | .pop, returned | .popleft, returned => returned
  | _, _ => none

/-- The values that operations take out, with what they return. -/
def popped (ops : List (DequeOp α)) (returned : List (Option α)) : List α :=
  (List.zipWith DequeOp.popped ops returned).filterMap id

/-- All that can be read from a deque is as in a sequence. -/
structure Shows (self : Deque α) (values : List α) : Prop where
  len : self.len = values.length
  index : ∀ k : ℤ, self.index k = if 1 ≤ k then values[(k - 1).toNat]? else none
  pairs : self.pairs = values.mapIdx fun index value => ((index : ℤ) + 1, some value)

def Holds (self : Deque α) (values : List α) : Prop := self.toList = values.map some

variable {self : Deque α} {values : List α}

section
variable (holds : Holds self values)
include holds

theorem Holds.len : self.len = values.length := by
  rw [← self.length_toList, holds, List.length_map]

theorem Holds.shows : Shows self values where
  len := holds.len
  index k := by
    rw [self.index_eq, holds, List.getElem?_map]
    cases values[(k - 1).toNat]? with
    | none => rfl
    | some value => rfl
  pairs := by
    refine List.ext_getElem? fun index => ?_
    rw [self.pairs_eq, holds, List.getElem?_mapIdx, List.getElem?_mapIdx, List.getElem?_map]
    cases values[index]? with
    | none => rfl
    | some value => rfl

theorem Holds.some (nonempty : values ≠ []) : 0 < self.len := by
  rw [holds.len]
  exact List.length_pos_iff.mpr nonempty

omit holds in
theorem Holds.none (holds : Holds self []) : ¬ self.left < self.right := by
  have len : (self.right - self.left).toNat = 0 := holds.len
  omega

theorem Holds.append (value : α) : Holds (self.append (.some value)) (values ++ [value]) := by
  rw [Holds, self.toList_append, holds, List.map_append, List.map_singleton]

theorem Holds.appendleft (value : α) : Holds (self.appendleft (.some value)) (value :: values) := by
  rw [Holds, self.toList_appendleft, holds, List.map_cons]

theorem Holds.pop : Agrees Holds self.pop (values.getLast?, values.dropLast) := by
  induction values using List.reverseRecOn with
  | nil =>
      rw [Deque.pop, dif_neg holds.none]
      exact ⟨rfl, holds⟩
  | append_singleton values value =>
      have split := Deque.toList_pop (holds.some (List.concat_ne_nil value values))
      rw [holds, List.map_append, List.map_singleton] at split
      obtain ⟨front, last⟩ := List.append_inj' split rfl
      rw [List.getLast?_concat, List.dropLast_concat]
      exact ⟨(List.singleton_inj.mp last).symm, front.symm⟩

theorem Holds.popleft : Agrees Holds self.popleft (values.head?, values.tail) := by
  cases values with
  | nil =>
      rw [Deque.popleft, dif_neg holds.none]
      exact ⟨rfl, holds⟩
  | cons value values =>
      have split := Deque.toList_popleft (holds.some (List.cons_ne_nil value values))
      rw [holds, List.map_cons] at split
      obtain ⟨head, tail⟩ := List.cons.inj split
      exact ⟨head.symm, tail.symm⟩

omit holds in
theorem Deque.peek_eq (self : Deque α) : self.peek = self.pop.1 := by
  rw [peek, pop]
  split <;> rfl

omit holds in
theorem Deque.peekleft_eq (self : Deque α) : self.peekleft = self.popleft.1 := by
  rw [peekleft, popleft]
  split <;> rfl

theorem Holds.assign (k : ℤ) (value : α) :
    Option.Rel (Agrees Holds) (self.step (.assign k value)) (sequenceStep values (.assign k value)) := by
  have ordered := self.ordered
  have len : (self.right - self.left).toNat = values.length := holds.len
  have bound : self.right - self.left = (values.length : ℤ) := by omega
  rw [Deque.step, sequenceStep, Deque.newindex, bound]
  by_cases inside : 1 ≤ k ∧ k ≤ (values.length : ℤ)
  · have replaced : self.newindex k (.some value) = .some
        { self with deque := Function.update self.deque (self.left + k - 1) (.some value) } := by
      rw [Deque.newindex, bound, if_pos inside]
    rw [if_pos inside, if_pos inside]
    refine .some ⟨rfl, ?_⟩
    rw [Holds, Deque.toList_newindex replaced, holds, List.map_set]
  · rw [if_neg inside, if_neg inside]
    exact .none

theorem step_agrees (op : DequeOp α) :
    Option.Rel (Agrees Holds) (self.step op) (sequenceStep values op) := by
  cases op with
  | append value => exact .some ⟨rfl, holds.append value⟩
  | appendleft value => exact .some ⟨rfl, holds.appendleft value⟩
  | pop => exact .some holds.pop
  | popleft => exact .some holds.popleft
  | peek => exact .some ⟨self.peek_eq.trans holds.pop.1, holds⟩
  | peekleft => exact .some ⟨self.peekleft_eq.trans holds.popleft.1, holds⟩
  | assign k value => exact holds.assign k value
  | clear => exact .some ⟨rfl, rfl⟩

end

theorem set_subperm (values : List α) (index : ℕ) (value : α) :
    (values.set index value).Subperm (value :: values) := by
  by_cases small : index < values.length
  · exact (List.set_perm_cons_eraseIdx small value).subperm.trans
      (values.eraseIdx_sublist index |>.cons_cons value).subperm
  · rw [List.set_eq_of_length_le (by omega)]
    exact (List.sublist_cons_self value values).subperm

/-- What an operation takes out and leaves was there before, or is put in by it. -/
theorem step_subperm {before after : List α} {op : DequeOp α} {returned : Option α}
    (taken : sequenceStep before op = some (returned, after)) :
    ((op.popped returned).toList ++ after).Subperm (op.inserted.toList ++ before) := by
  cases op with
  | append value =>
      obtain ⟨rfl, rfl⟩ := Prod.ext_iff.mp (Option.some.inj taken)
      exact (List.perm_append_singleton value before).subperm
  | appendleft value =>
      obtain ⟨rfl, rfl⟩ := Prod.ext_iff.mp (Option.some.inj taken)
      exact List.Subperm.refl _
  | pop =>
      obtain ⟨rfl, rfl⟩ := Prod.ext_iff.mp (Option.some.inj taken)
      induction before using List.reverseRecOn with
      | nil => exact List.Subperm.refl _
      | append_singleton before value =>
          rw [List.getLast?_concat, List.dropLast_concat]
          exact (List.perm_append_singleton value before).symm.subperm
  | popleft =>
      obtain ⟨rfl, rfl⟩ := Prod.ext_iff.mp (Option.some.inj taken)
      cases before with
      | nil => exact List.Subperm.refl _
      | cons value before => exact List.Subperm.refl _
  | peek =>
      obtain ⟨rfl, rfl⟩ := Prod.ext_iff.mp (Option.some.inj taken)
      exact List.Subperm.refl _
  | peekleft =>
      obtain ⟨rfl, rfl⟩ := Prod.ext_iff.mp (Option.some.inj taken)
      exact List.Subperm.refl _
  | assign k value =>
      obtain ⟨inside, same⟩ := Option.ite_none_right_eq_some.mp taken
      obtain ⟨rfl, rfl⟩ := Prod.ext_iff.mp (Option.some.inj same)
      exact set_subperm before _ value
  | clear =>
      obtain ⟨rfl, rfl⟩ := Prod.ext_iff.mp (Option.some.inj taken)
      exact List.nil_subperm

/-- What has been taken out and what is left was there before, or was put in. -/
theorem trace_subperm {values final : List α} {ops : List (DequeOp α)} {returned : List (Option α)}
    (execution : trace sequenceStep values ops = some (returned, final)) :
    (popped ops returned ++ final).Subperm (ops.filterMap DequeOp.inserted ++ values) := by
  induction ops generalizing values returned with
  | nil =>
      obtain ⟨rfl, rfl⟩ := Prod.ext_iff.mp (Option.some.inj execution)
      exact List.Subperm.refl _
  | cons op ops ih =>
      obtain ⟨⟨out, next⟩, taken, rest⟩ := Option.bind_eq_some_iff.mp execution
      obtain ⟨⟨later, last⟩, finished, same⟩ := Option.map_eq_some_iff.mp rest
      obtain ⟨rfl, rfl⟩ := Prod.ext_iff.mp same
      have emitted : popped (op :: ops) (out :: later) ++ last =
          (op.popped out).toList ++ (popped ops later ++ last) := by
        rw [popped, List.zipWith_cons_cons, List.filterMap_cons, ← List.append_assoc]
        cases op.popped out <;> rfl
      have put : (op :: ops).filterMap DequeOp.inserted =
          op.inserted.toList ++ ops.filterMap DequeOp.inserted := by
        rw [List.filterMap_cons]
        cases op.inserted <;> rfl
      rw [emitted, put, List.append_assoc]
      have later_subperm := (List.subperm_append_left (op.popped out).toList).mpr (ih finished)
      have step := (List.subperm_append_left (ops.filterMap DequeOp.inserted)).mpr (step_subperm taken)
      exact (later_subperm.trans (List.perm_append_comm_assoc ..).subperm).trans
        (step.trans (List.perm_append_comm_assoc ..).subperm)

/-- A deque behaves as a sequence: the operations return the same, and the deque shows the sequence;
each value that was taken out or is left has been put in for it. -/
theorem deque_refines (ops : List (DequeOp α)) :
    Option.Rel (Agrees Shows) (trace Deque.step Deque.new ops) (trace sequenceStep [] ops) ∧
      ∀ returned final, trace sequenceStep [] ops = some (returned, final) →
        (popped ops returned ++ final).Subperm (ops.filterMap DequeOp.inserted) := by
  have start : Holds (Deque.new : Deque α) [] := rfl
  have runs := trace_agrees step_agrees start ops
  refine ⟨?_, fun returned final execution => ?_⟩
  · exact rel_agrees_mono Holds.shows runs
  · have all := trace_subperm execution
    rwa [List.append_nil] at all

end UEServer.CoQueue
