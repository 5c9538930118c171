import Mathlib.Algebra.BigOperators.Group.List.Basic
import Mathlib.Data.List.AList

/-!
# Finite tables

A table has finitely many keys; assigning nothing to a key removes it.  This file gives what an
assignment does to the number of keys and to a sum over the values.  Tables that have the integers
among their keys can be used as arrays: this file also gives the shifts by which an entry is
inserted or removed and the copy of a range, and what each does to the number of keys.  Before it are facts on
`List.lookup` in association lists.
-/

namespace Assoc

variable {α β : Type*} [DecidableEq α]

variable {entries : List (α × β)}

theorem mem_of_lookup {key : α} {value : β}
    (found : entries.lookup key = some value) : (key, value) ∈ entries := by
  obtain ⟨before, after, rfl, -⟩ := List.lookup_eq_some_iff.mp found
  exact List.mem_append_right _ List.mem_cons_self

theorem lookup_of_mem
    (nodup : (entries.map Prod.fst).Nodup) {entry : α × β} (mem : entry ∈ entries) :
    entries.lookup entry.1 = some entry.2 := by
  induction entries with
  | nil => cases mem
  | cons first entries ih =>
      obtain ⟨fresh, nodup⟩ := List.nodup_cons.mp nodup
      rw [List.lookup_cons]
      rcases List.mem_cons.mp mem with rfl | later
      · rw [beq_self_eq_true]
      · have different : entry.1 ≠ first.1 :=
          fun same => fresh (same ▸ List.mem_map_of_mem later)
        rw [beq_false_of_ne different]
        exact ih nodup later

theorem lookup_eq_none {key : α}
    (absent : key ∉ entries.map Prod.fst) : entries.lookup key = none := by
  cases found : entries.lookup key with
  | none => rfl
  | some value => exact absurd (List.mem_map_of_mem (mem_of_lookup found)) absent

end Assoc

def Table (κ ν : Type*) := AList fun _ : κ => ν

namespace Table

variable {κ ν : Type*} [DecidableEq κ]

def get (table : Table κ ν) (key : κ) : Option ν :=
  AList.lookup key table

/-- Assign a value to a key, or remove the key. -/
def set (table : Table κ ν) (key : κ) : Option ν → Table κ ν
  | some value => AList.insert key value table
  | none => AList.erase key table

def keys (table : Table κ ν) : List κ :=
  AList.keys table

def size (table : Table κ ν) : Nat :=
  table.keys.length

def empty : Table κ ν := (∅ : AList fun _ : κ => ν)

/-- The number of keys that an optional value takes. -/
def weight : Option ν → Nat
  | none => 0
  | some _ => 1

@[simp]
theorem weight_none : weight (none : Option ν) = 0 := rfl

@[simp]
theorem weight_some (value : ν) : weight (some value) = 1 := rfl

@[simp]
theorem get_empty (key : κ) : (empty : Table κ ν).get key = none :=
  AList.lookup_empty key

omit [DecidableEq κ] in
@[simp]
theorem size_empty : (empty : Table κ ν).size = 0 := rfl

variable (table : Table κ ν)

theorem get_set (key other : κ) (value : Option ν) :
    (table.set key value).get other = if other = key then value else table.get other := by
  cases value with
  | none =>
      split
      · rename_i same
        subst same
        exact AList.lookup_erase other table
      · rename_i different
        exact AList.lookup_erase_ne different
  | some value =>
      split
      · rename_i same
        subst same
        exact AList.lookup_insert table
      · rename_i different
        exact AList.lookup_insert_ne different

@[simp]
theorem get_set_self (key : κ) (value : Option ν) :
    (table.set key value).get key = value := by
  rw [get_set, if_pos rfl]

theorem get_set_of_ne {key other : κ} (value : Option ν)
    (different : other ≠ key) : (table.set key value).get other = table.get other := by
  rw [get_set, if_neg different]

omit [DecidableEq κ] in
theorem keys_nodup : table.keys.Nodup :=
  AList.keys_nodup table

theorem mem_keys (key : κ) : key ∈ table.keys ↔ table.get key ≠ none :=
  AList.lookup_isSome.symm.trans Option.isSome_iff_ne_none

theorem length_erase_keys (key : κ) :
    (table.keys.erase key).length + weight (table.get key) = table.size := by
  cases found : table.get key with
  | none =>
      have absent : key ∉ table.keys := by simp [mem_keys, found]
      rw [List.erase_of_not_mem absent]
      rfl
  | some value =>
      have present : key ∈ table.keys := by simp [mem_keys, found]
      have positive := List.length_pos_of_mem present
      rw [List.length_erase_of_mem present, weight_some, size]
      omega

theorem size_set (key : κ) (value : Option ν) :
    (table.set key value).size + weight (table.get key) = table.size + weight value := by
  have erased := length_erase_keys table key
  cases value with
  | none =>
      have keys : (table.set key none).size = (table.keys.erase key).length :=
        congrArg List.length (AList.keys_erase key table)
      rw [keys, erased, weight_none, Nat.add_zero]
  | some value =>
      have keys : (table.set key (some value)).size = (table.keys.erase key).length + 1 :=
        congrArg List.length (AList.keys_insert table)
      rw [keys, weight_some, ← erased]
      omega

theorem eq_of_size_le_one {table : Table κ ν} (small : table.size ≤ 1) {key other : κ}
    (present : (table.get key).isSome) (other_present : (table.get other).isSome) :
    key = other := by
  have mem : key ∈ table.keys := (mem_keys table key).mpr (Option.isSome_iff_ne_none.mp present)
  have other_mem : other ∈ table.keys :=
    (mem_keys table other).mpr (Option.isSome_iff_ne_none.mp other_present)
  unfold size at small
  match keys : table.keys with
  | [] =>
      rw [keys] at mem
      cases mem
  | [only] =>
      rw [keys] at mem other_mem
      rw [List.mem_singleton.mp mem, List.mem_singleton.mp other_mem]
  | first :: second :: rest =>
      rw [keys] at small
      simp at small

theorem entries_perm {table other : Table κ ν} (same : ∀ key, table.get key = other.get key) :
    (AList.entries table).Perm (AList.entries other) := by
  refine List.lookup_ext (AList.nodupKeys table) (AList.nodupKeys other) fun key value => ?_
  change value ∈ table.get key ↔ value ∈ other.get key
  rw [same]

theorem get_eq_some (key : κ) (value : ν) :
    table.get key = some value ↔ ⟨key, value⟩ ∈ AList.entries table :=
  AList.mem_lookup_iff

section
variable {M : Type*} [AddCommMonoid M] (weigh : ν → M)

def total (table : Table κ ν) : M :=
  ((AList.entries table).map fun entry => weigh entry.2).sum

def weighed : Option ν → M
  | none => 0
  | some value => weigh value

@[simp]
theorem weighed_none : weighed weigh (none : Option ν) = 0 := rfl

@[simp]
theorem weighed_some (value : ν) : weighed weigh (some value) = weigh value := rfl

omit [DecidableEq κ] in
@[simp]
theorem total_empty : (empty : Table κ ν).total weigh = 0 := rfl

theorem total_congr {table other : Table κ ν} (same : ∀ key, table.get key = other.get key) :
    table.total weigh = other.total weigh :=
  ((entries_perm same).map fun entry : (_ : κ) × ν => weigh entry.2).sum_eq

theorem total_set_eq (table : Table κ ν) (key : κ) (value : Option ν) :
    (table.set key value).total weigh =
      weighed weigh value + (table.set key none).total weigh := by
  cases value with
  | none => rw [weighed_none, zero_add]
  | some value =>
      have entries : AList.entries (table.set key (some value)) =
          ⟨key, value⟩ :: AList.entries (table.set key none) := AList.entries_insert
      unfold total
      rw [entries, List.map_cons, List.sum_cons, weighed_some]

theorem total_split (table : Table κ ν) (key : κ) :
    table.total weigh = weighed weigh (table.get key) + (table.set key none).total weigh := by
  rw [← total_set_eq]
  refine total_congr weigh fun other => ?_
  rw [get_set]
  split
  · rename_i same
    rw [same]
  · rfl

/-- An assignment exchanges what the old value weighs for what the new one does. -/
theorem total_set (table : Table κ ν) (key : κ) (value : Option ν) :
    (table.set key value).total weigh + weighed weigh (table.get key) =
      table.total weigh + weighed weigh value := by
  rw [total_set_eq, total_split weigh table key]
  ac_rfl

theorem total_eq_zero {table : Table κ ν}
    (nothing : ∀ key value, table.get key = some value → weigh value = 0) :
    table.total weigh = 0 := by
  refine List.sum_eq_zero fun weight mem => ?_
  obtain ⟨⟨key, value⟩, entry, rfl⟩ := List.mem_map.mp mem
  exact nothing key value ((get_eq_some table key value).mpr entry)

end

/-- The number of values that satisfy a condition. -/
def count (condition : ν → Prop) [DecidablePred condition] (table : Table κ ν) : Nat :=
  table.total fun value => if condition value then 1 else 0

section
variable {condition : ν → Prop} [DecidablePred condition]

theorem count_pos {table : Table κ ν} {key : κ} {value : ν} (found : table.get key = some value)
    (holds : condition value) : 0 < table.count condition := by
  unfold count
  rw [total_split _ table key, found, weighed_some, if_pos holds]
  omega

theorem exists_of_count_pos {table : Table κ ν} (positive : 0 < table.count condition) :
    ∃ key value, table.get key = some value ∧ condition value := by
  by_contra nothing
  have zero : table.count condition = 0 :=
    total_eq_zero _ fun key value found => if_neg fun holds => nothing ⟨key, value, found, holds⟩
  omega

theorem unique_of_count_one {table : Table κ ν} (one : table.count condition = 1) {key other : κ}
    {value second : ν} (found : table.get key = some value) (holds : condition value)
    (other_found : table.get other = some second) (other_holds : condition second) :
    other = key := by
  by_contra different
  have rest : 0 < (table.set key none).count condition :=
    count_pos ((get_set_of_ne table none different).trans other_found) other_holds
  have split := total_split (fun value => if condition value then 1 else 0) table key
  rw [found, weighed_some, if_pos holds] at split
  unfold count at one rest
  omega

end

section
variable (int : Int → κ)

/-- For the `steps` positions above `position`, from the last one on, take the value below. -/
def shiftUp (table : Table κ ν) (position : Int) : Nat → Table κ ν
  | 0 => table
  | steps + 1 =>
      shiftUp (table.set (int (position + steps + 1)) (table.get (int (position + steps))))
        position steps

/-- For `steps` positions from `position` on, take the value above. -/
def shiftDown (table : Table κ ν) (position : Int) : Nat → Table κ ν
  | 0 => table
  | steps + 1 =>
      shiftDown (table.set (int position) (table.get (int (position + 1)))) (position + 1) steps

/-- Copy the values of `source` from `first` on to as many positions from `target` on. -/
def copyRange (source table : Table κ ν) (first target : Int) : Nat → Table κ ν
  | 0 => table
  | steps + 1 =>
      (copyRange source table first target steps).set (int (target + steps))
        (source.get (int (first + steps)))

/-- The number of keys among the positions from `first` on. -/
def filled (table : Table κ ν) (first : Int) : Nat → Nat
  | 0 => 0
  | steps + 1 => filled table first steps + weight (table.get (int (first + steps)))

/-- The size of an array is a border of it: nothing comes after it, and it is empty or its last
value is there. -/
def IsBorder (table : Table κ ν) (border : Nat) : Prop :=
  (border = 0 ∨ table.get (int border) ≠ none) ∧ table.get (int (border + 1)) = none

instance (table : Table κ ν) (border : Nat) : Decidable (table.IsBorder int border) :=
  inferInstanceAs (Decidable (_ ∧ _))

variable {int} (injective : Function.Injective int)
include injective

theorem shiftUp_spec (table : Table κ ν) (position : Int) (steps : Nat) :
    (shiftUp int table position steps).size + weight (table.get (int (position + steps))) =
        table.size + weight (table.get (int position)) ∧
      (shiftUp int table position steps).get (int position) = table.get (int position) := by
  induction steps generalizing table with
  | zero => simp [shiftUp]
  | succ steps ih =>
      have low_ne : int position ≠ int (position + steps + 1) :=
        injective.ne (by omega)
      have near_ne : int (position + steps) ≠ int (position + steps + 1) :=
        injective.ne (by omega)
      obtain ⟨size, low⟩ := ih (table.set (int (position + steps + 1))
        (table.get (int (position + steps))))
      have moved := size_set table (int (position + steps + 1)) (table.get (int (position + steps)))
      rw [get_set_of_ne _ _ low_ne] at size low
      rw [get_set_of_ne _ _ near_ne] at size
      have last : position + ((steps + 1 : Nat) : Int) = position + steps + 1 := by omega
      rw [shiftUp, last]
      exact ⟨by omega, low⟩

theorem shiftDown_spec (table : Table κ ν) (position : Int) (steps : Nat) :
    (shiftDown int table position steps).size + weight (table.get (int position)) =
        table.size + weight (table.get (int (position + steps))) ∧
      (shiftDown int table position steps).get (int (position + steps)) =
        table.get (int (position + steps)) := by
  induction steps generalizing table position with
  | zero => simp [shiftDown]
  | succ steps ih =>
      have next_ne : int (position + 1) ≠ int position :=
        injective.ne (by omega)
      have last_ne : int (position + 1 + steps) ≠ int position :=
        injective.ne (by omega)
      obtain ⟨size, high⟩ := ih (table.set (int position) (table.get (int (position + 1))))
        (position + 1)
      have moved := size_set table (int position) (table.get (int (position + 1)))
      rw [get_set_of_ne _ _ last_ne] at size high
      rw [get_set_of_ne _ _ next_ne] at size
      have last : position + ((steps + 1 : Nat) : Int) = position + 1 + steps := by omega
      rw [shiftDown, last]
      exact ⟨by omega, high⟩

theorem copyRange_spec (source table : Table κ ν) (first target : Int) (steps : Nat) :
    (copyRange int source table first target steps).size + filled int table target steps =
        table.size + filled int source first steps ∧
      ∀ key, (∀ offset : Nat, offset < steps → key ≠ int (target + offset)) →
        (copyRange int source table first target steps).get key = table.get key := by
  induction steps with
  | zero => simp [copyRange, filled]
  | succ steps ih =>
      obtain ⟨size, frame⟩ := ih
      have untouched : ∀ offset : Nat, offset < steps →
          int (target + steps) ≠ int (target + offset) := by
        intro offset less same
        have := injective same
        omega
      have old := frame (int (target + steps)) untouched
      have moved := size_set (copyRange int source table first target steps)
        (int (target + steps)) (source.get (int (first + steps)))
      rw [old] at moved
      rw [copyRange]
      refine ⟨?_, fun key outside => ?_⟩
      · simp only [filled]
        omega
      · rw [get_set_of_ne _ _ (outside steps (Nat.lt_succ_self steps))]
        exact frame key fun offset less => outside offset (by omega)

end

end Table
