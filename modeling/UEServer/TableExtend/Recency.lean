import UEServer.Library.Execution
import UEServer.TableExtend.Represents

/-!
# An `LRU` is a recency list

The same operations are done on an `LRU` and on a table that remembers the order of its assignments.
In reverse mode `pop`, `peek` and the removal of surplus keys take the key that was used most
recently.
-/

namespace UEServer.TableExtend

open Execution

variable {κ ν : Type*} [DecidableEq κ]

inductive Label (κ ν : Type*) where
  | set (key : κ) (value : ν) (time : ℕ)
  | delete (key : κ)
  | touch (key : κ) (time : ℕ)
  | pop
  | peek
  | clear

inductive Output (κ ν : Type*) where
  | touched (value : Option ν)
  | popped (entry : Option (κ × ν))
  | peeked (entry : Option (κ × ν × ℕ))
  deriving DecidableEq

/-- One operation on an `LRU`. -/
def LRU.step (lru : LRU κ ν) : Label κ ν → Option (Output κ ν) × LRU κ ν
  | .set key value time => (none, lru.set key value time)
  | .delete key => (none, lru.delete key)
  | .touch key time => (some (.touched (lru.touch key time).1), (lru.touch key time).2)
  | .pop => (some (.popped lru.pop.1), lru.pop.2)
  | .peek => (some (.peeked lru.peek), lru)
  | .clear => (none, lru.clear)

/-- What an operation does to the keys in the order of their use, where no more than some are kept. -/
def recencyStep (maxCount : ℤ) (table : Lru κ ν) : Label κ ν → Option (Output κ ν) × Lru κ ν
  | .set key value time =>
      let put := table.put key value time
      (none, if maxCount < put.size then put.pop else put)
  | .delete key => (none, table.erase key)
  | .touch key time =>
      (some (.touched (table.get key)),
        match table.get key with
        | none => table
        | some value => table.put key value time)
  | .pop => (some (.popped (table.peek.map fun entry => (entry.1, entry.2.1))), table.pop)
  | .peek => (some (.peeked table.peek), table)
  | .clear => (none, Lru.empty)

/-- An `LRU` and the keys in the order of their use. -/
structure Both (κ ν : Type*) where
  lru : LRU κ ν
  /-- The keys, from the least to the most recently used one. -/
  recency : Lru κ ν
  /-- What the `LRU` has returned. -/
  returned : List (Output κ ν)
  expected : List (Output κ ν)
  /-- The key that has just been assigned a value. -/
  inserted : Option κ

namespace Both

/-- A new `LRU`. -/
def new (reverse : Bool) (maxCount : Option ℤ) : Both κ ν where
  lru := LRU.new reverse maxCount
  recency := Lru.empty
  returned := []
  expected := []
  inserted := none

/-- One operation on both. -/
def step (state : Both κ ν) (label : Label κ ν) : Option (Both κ ν) :=
  let returned := state.lru.step label
  let expected := recencyStep state.lru.maxCount state.recency label
  some
    { lru := returned.2
      recency := expected.2
      returned := state.returned ++ returned.1.toList
      expected := state.expected ++ expected.1.toList
      inserted :=
        match label with
        | .set key _ _ => some key
        | _ => none }

/-- The `LRU` is the recency list. -/
structure Refines (state : Both κ ν) : Prop where
  /-- The ring, the dictionary and the count have the keys of the list. -/
  keys : ∃ nodes, state.lru.Rep state.recency nodes
  index : ∀ key, state.lru.index key = state.recency.get key
  len : state.lru.len = state.recency.size
  /-- `pairs` visits the keys in the order of their use, or in the other order. -/
  pairs : ∀ fuel, state.recency.size < fuel → state.lru.pairs fuel =
    some ((shown state.lru.reverse state.recency).entries.map fun entry => (entry.1, entry.2.1))
  /-- So does `map`. -/
  map : ∀ fuel, state.recency.size < fuel → state.lru.map fuel =
    some ((shown state.lru.reverse state.recency).entries.map fun entry => some (entry.1, entry.2.1))
  returned : state.returned = state.expected
  /-- A key that has just been assigned a value is there, unless no key is. -/
  kept : ∀ key, state.inserted = some key → (state.lru.index key).isSome ∨ state.lru.len = 0

/-- In reverse mode, `pop` and `peek` meet at most one key, and no key is added to others that there
are already enough of. -/
def Apt (state : Both κ ν) : Label κ ν → Prop
  | .set key _ _ =>
      state.lru.reverse = true → state.lru.index key = none →
        state.lru.maxCount < state.lru.count + 1 → state.lru.count = 0
  | .pop | .peek => state.lru.reverse = true → state.lru.count ≤ 1
  | _ => True

end Both

namespace LRU

variable {lru : LRU κ ν} {table : Lru κ ν} {nodes : List ℕ}

section
variable (rep : lru.Rep table nodes)
include rep

theorem Rep.traverse_keep {front back : List (κ × ν × ℕ)}
    (entries : (shown lru.reverse table).entries = front ++ back) {key : Option κ}
    (reached : lru.next key = back.head?.map fun entry => (entry.1, entry.2.1)) {fuel : ℕ}
    (enough : back.length < fuel) (visited : List (κ × ν)) :
    traverse (fun _ _ _ => .keep) fuel lru visited key =
      some (visited ++ back.map fun entry => (entry.1, entry.2.1)) := by
  induction back generalizing front key fuel visited with
  | nil =>
      obtain ⟨fuel, rfl⟩ := Nat.exists_eq_succ_of_ne_zero (Nat.ne_of_gt enough)
      rw [traverse, reached]
      simp
  | cons entry back ih =>
      obtain ⟨fuel, rfl⟩ := Nat.exists_eq_succ_of_ne_zero (Nat.ne_of_gt (Nat.zero_lt_of_lt enough))
      have onward : lru.next (some entry.1) = back.head?.map fun entry => (entry.1, entry.2.1) := by
        rw [rep.next, Lru.next_of_entries entries]
      rw [traverse, reached]
      change traverse _ fuel lru (visited ++ [(entry.1, entry.2.1)]) (some entry.1) = _
      rw [ih (entries.trans (List.append_cons ..)) onward (Nat.lt_of_succ_lt_succ enough),
        List.append_assoc]
      rfl

omit rep in
omit [DecidableEq κ] in
theorem length_shown (reverse : Bool) (table : Lru κ ν) :
    (shown reverse table).entries.length = table.size := by
  unfold shown
  cases reverse with
  | false => rfl
  | true => exact List.length_reverse

theorem Rep.pairs {fuel : ℕ} (enough : table.size < fuel) :
    lru.pairs fuel =
      some ((shown lru.reverse table).entries.map fun entry => (entry.1, entry.2.1)) := by
  have all := rep.traverse_keep (List.nil_append _).symm (rep.next none)
    ((length_shown ..).trans_lt enough) []
  exact all

omit rep in
omit [DecidableEq κ] in
theorem mapFrom_spec {order front back : List ℕ} (ring : lru.directed.Ring lru.root order)
    (split : order = front ++ back) {fuel : ℕ} (enough : back.length < fuel) :
    lru.mapFrom fuel (back.head?.getD lru.root) =
      some (back.map fun node => (lru.elems node).map fun fields => (fields.1, fields.2.1)) := by
  induction back generalizing front fuel with
  | nil =>
      obtain ⟨fuel, rfl⟩ := Nat.exists_eq_succ_of_ne_zero (Nat.ne_of_gt enough)
      exact if_pos rfl
  | cons node back ih =>
      obtain ⟨fuel, rfl⟩ := Nat.exists_eq_succ_of_ne_zero (Nat.ne_of_gt (Nat.zero_lt_of_lt enough))
      subst split
      have other : node ≠ lru.root := by
        rintro rfl
        exact (List.nodup_cons.mp ring.nodup).1 List.mem_append_cons_self
      rw [List.head?_cons, Option.getD_some, mapFrom, if_neg other, ← directed_next, ring.next_node,
        ih (List.append_cons ..) (Nat.lt_of_succ_lt_succ enough)]
      rfl

omit [DecidableEq κ] in
theorem Rep.map {fuel : ℕ} (enough : table.size < fuel) :
    lru.map fuel =
      some ((shown lru.reverse table).entries.map fun entry => some (entry.1, entry.2.1)) := by
  obtain ⟨order, -, ring, entries⟩ := rep.directed
  have length : order.length = table.size := by
    rw [← length_shown lru.reverse table, ← List.length_map (f := lru.elems), entries,
      List.length_map]
  have all := mapFrom_spec ring (List.nil_append _).symm (length.trans_lt enough)
  unfold LRU.map
  rw [firstElem_eq, ring.next_root, all]
  congr 1
  have mapped := congrArg (List.map (Option.map fun fields : κ × ν × ℕ => (fields.1, fields.2.1)))
    entries
  rw [List.map_map, List.map_map] at mapped
  exact mapped

omit rep in
omit [DecidableEq κ] in
theorem shown_of_small {reverse : Bool} {table : Lru κ ν} (small : reverse = true → table.size ≤ 1) :
    shown reverse table = table := by
  unfold shown
  cases reverse with
  | false => rfl
  | true =>
      refine Lru.eq_of_entries ?_
      have short : table.entries.length ≤ 1 := small rfl
      change table.entries.reverse = table.entries
      match table.entries, short with
      | [], _ => rfl
      | [_], _ => rfl

omit [DecidableEq κ] in
theorem Rep.count_eq : lru.count = table.size :=
  rep.count.trans (congrArg Nat.cast rep.length)

theorem Rep.pop_spec (small : lru.reverse = true → table.size ≤ 1) :
    lru.pop.1 = table.peek.map (fun entry => (entry.1, entry.2.1)) ∧
      ∃ rest, lru.pop.2.Rep table.pop rest := by
  rcases rep.pop with ⟨popped, empty⟩ | ⟨key, value, time, rest, first, popped, removed⟩
  · rw [popped, Lru.pop_of_empty empty, Lru.peek, empty]
    exact ⟨rfl, nodes, rep⟩
  · rw [shown_of_small small] at first
    rw [Lru.pop_of_peek first, popped, first]
    exact ⟨rfl, rest, removed⟩

theorem Rep.set_spec (within : table.size = 0 ∨ (table.size : ℤ) ≤ lru.maxCount) {key : κ}
    (value : ν) (time : ℕ)
    (apt : lru.reverse = true → table.get key = none → lru.maxCount < (table.size : ℤ) + 1 → table.size = 0)
    :
    (∃ rest, (lru.set key value time).Rep
        (recencyStep lru.maxCount table (.set key value time)).2 rest) ∧
      (lru.set key value time).maxCount = lru.maxCount := by
  obtain ⟨added, rest, assigned, added_rep, reverse, maxCount⟩ := rep.set key value time
  have count : added.count = (table.put key value time).size := by
    rw [added_rep.count, added_rep.length, Lru.size]
  have put : ∀ surplus : lru.maxCount < (table.put key value time).size,
      table.get key = none ∧ (table.put key value time).size = table.size + 1 := by
    intro surplus
    cases found : table.get key with
    | none => exact ⟨rfl, Lru.size_put_of_absent value time found⟩
    | some old =>
        obtain ⟨assigned, mem⟩ := Lru.get_eq_some.mp found
        have some : 0 < table.size := List.length_pos_of_mem mem
        rw [Lru.size_put_of_get value time found] at surplus
        omega
  rw [assigned, count, maxCount, recencyStep]
  by_cases surplus : lru.maxCount < (table.put key value time).size
  · rw [if_pos surplus, if_pos surplus]
    obtain ⟨absent, size⟩ := put surplus
    have small : added.reverse = true → (table.put key value time).size ≤ 1 := by
      intro reversed
      have none := apt (reverse.symm.trans reversed) absent (by omega)
      omega
    exact ⟨(added_rep.pop_spec small).2, added.pop_fields.2.trans maxCount⟩
  · rw [if_neg surplus, if_neg surplus]
    exact ⟨⟨rest, added_rep⟩, maxCount⟩

omit rep in
theorem recencyStep_within {maxCount : ℤ} (within : table.size = 0 ∨ (table.size : ℤ) ≤ maxCount)
    (key : κ) (value : ν) (time : ℕ) :
    (recencyStep maxCount table (.set key value time)).2.size = 0 ∨
      ((recencyStep maxCount table (.set key value time)).2.size : ℤ) ≤ maxCount := by
  rw [recencyStep]
  dsimp only
  by_cases surplus : maxCount < (table.put key value time).size
  · rw [if_pos surplus, Lru.size_pop]
    cases found : table.get key with
    | none =>
        rw [Lru.size_put_of_absent value time found]
        omega
    | some old =>
        rw [Lru.size_put_of_get value time found]
        omega
  · rw [if_neg surplus]
    exact .inr (Int.not_lt.mp surplus)

omit rep in
theorem recencyStep_kept (maxCount : ℤ) (table : Lru κ ν) (key : κ) (value : ν) (time : ℕ) :
    (recencyStep maxCount table (.set key value time)).2.get key = some value ∨
      (recencyStep maxCount table (.set key value time)).2.size = 0 := by
  rw [recencyStep]
  dsimp only
  by_cases surplus : maxCount < (table.put key value time).size
  · rw [if_pos surplus, Lru.size_pop]
    by_cases several : 1 < (table.put key value time).size
    · exact .inl (Lru.get_pop_put several)
    · exact .inr (by omega)
  · rw [if_neg surplus, Lru.get_put, if_pos rfl]
    exact .inl rfl

theorem Rep.set_room {key : κ} {value : ν} {time : ℕ}
    (room : ((table.put key value time).size : ℤ) ≤ lru.maxCount) :
    (∃ rest, (lru.set key value time).Rep (table.put key value time) rest) ∧
      (lru.set key value time).reverse = lru.reverse ∧
        (lru.set key value time).maxCount = lru.maxCount := by
  obtain ⟨added, rest, assigned, added_rep, reverse, maxCount⟩ := rep.set key value time
  have enough : ¬ added.maxCount < added.count := by
    rw [added_rep.count_eq, maxCount]
    omega
  rw [assigned, if_neg enough]
  exact ⟨⟨rest, added_rep⟩, reverse, maxCount⟩

omit rep in
theorem put_within (within : table.size = 0 ∨ (table.size : ℤ) ≤ lru.maxCount) {key : κ} {old : ν}
    (found : table.get key = some old) (value : ν) (time : ℕ) :
    ((table.put key value time).size : ℤ) ≤ lru.maxCount := by
  obtain ⟨assigned, mem⟩ := Lru.get_eq_some.mp found
  have some : 0 < table.size := List.length_pos_of_mem mem
  rw [Lru.size_put_of_get value time found]
  omega

theorem Rep.touch_spec (within : table.size = 0 ∨ (table.size : ℤ) ≤ lru.maxCount) {key : κ}
    {value : ν} (found : table.get key = some value) (time : ℕ) :
    (∃ rest, ((lru.delete key).set key value time).Rep (table.put key value time) rest) ∧
      ((lru.delete key).set key value time).reverse = lru.reverse ∧
        ((lru.delete key).set key value time).maxCount = lru.maxCount := by
  obtain ⟨between, deleted, -, -⟩ := rep.delete key
  obtain ⟨-, -, delete_reverse, delete_maxCount⟩ := lru.delete_fields key
  have room : (((table.erase key).put key value time).size : ℤ) ≤ (lru.delete key).maxCount := by
    rw [Lru.put_erase, delete_maxCount]
    exact put_within within found value time
  obtain ⟨keys, reverse, maxCount⟩ := deleted.set_room room
  rw [Lru.put_erase] at keys
  exact ⟨keys, reverse.trans delete_reverse, maxCount.trans delete_maxCount⟩

end

end LRU

namespace Both

variable {before after state : Both κ ν} {label : Label κ ν}

/-- The ring holds the list, which is not too long. -/
structure Inv (state : Both κ ν) : Prop where
  /-- The ring, the dictionary and the count have the keys of the list. -/
  keys : ∃ nodes, state.lru.Rep state.recency nodes
  within : state.recency.size = 0 ∨ (state.recency.size : ℤ) ≤ state.lru.maxCount

theorem step_inv (inv : before.Inv) (apt : before.Apt label) (taken : before.step label = some after) :
    after.Inv := by
  cases taken
  obtain ⟨⟨nodes, rep⟩, within⟩ := inv
  cases label with
  | set key value time =>
      have fitting : before.lru.reverse = true → before.recency.get key = none →
          before.lru.maxCount < (before.recency.size : ℤ) + 1 → before.recency.size = 0 := by
        intro reversed absent surplus
        have none := apt reversed ((rep.index key).trans absent) (rep.count_eq ▸ surplus)
        have count := rep.count_eq
        omega
      obtain ⟨keys, maxCount⟩ := rep.set_spec within value time fitting
      refine ⟨keys, ?_⟩
      change _ ∨ _ ≤ (before.lru.set key value time).maxCount
      rw [maxCount]
      exact LRU.recencyStep_within within key value time
  | delete key =>
      obtain ⟨rest, deleted, -, -⟩ := rep.delete key
      refine ⟨⟨rest, deleted⟩, ?_⟩
      have fewer := before.recency.size_erase_le key
      change (before.recency.erase key).size = 0 ∨
        ((before.recency.erase key).size : ℤ) ≤ (before.lru.delete key).maxCount
      rw [(before.lru.delete_fields key).2.2.2]
      omega
  | touch key time =>
      cases found : before.recency.get key with
      | none =>
          have same := LRU.touch_of_absent ((rep.index key).trans found) time
          refine ⟨⟨nodes, ?_⟩, ?_⟩
          · simp only [LRU.step, recencyStep, same, found]
            exact rep
          · simp only [LRU.step, recencyStep, same, found]
            exact within
      | some value =>
          have touched := LRU.touch_of_index ((rep.index key).trans found) time
          obtain ⟨keys, -, maxCount⟩ := rep.touch_spec within found time
          refine ⟨?_, ?_⟩
          · simp only [LRU.step, recencyStep, touched, found]
            exact keys
          · simp only [LRU.step, recencyStep, touched, found, maxCount]
            rw [Lru.size_put_of_get value time found]
            exact within
  | pop =>
      have small : before.lru.reverse = true → before.recency.size ≤ 1 := by
        intro reversed
        have few := apt reversed
        rw [rep.count_eq] at few
        omega
      refine ⟨(rep.pop_spec small).2, ?_⟩
      change before.recency.pop.size = 0 ∨ (before.recency.pop.size : ℤ) ≤ before.lru.pop.2.maxCount
      rw [before.lru.pop_fields.2, Lru.size_pop]
      omega
  | peek => exact ⟨⟨nodes, rep⟩, within⟩
  | clear => exact ⟨⟨[], LRU.Rep.clear before.lru⟩, .inl rfl⟩

theorem step_returned (inv : before.Inv) (apt : before.Apt label) :
    (before.lru.step label).1 = (recencyStep before.lru.maxCount before.recency label).1 := by
  obtain ⟨⟨nodes, rep⟩, within⟩ := inv
  have small : (before.lru.reverse = true → before.lru.count ≤ 1) →
      before.lru.reverse = true → before.recency.size ≤ 1 := by
    intro apt reversed
    have few := apt reversed
    rw [rep.count_eq] at few
    omega
  cases label with
  | set key value time => rfl
  | delete key => rfl
  | touch key time =>
      rw [LRU.step, recencyStep]
      cases found : before.recency.get key with
      | none => rw [LRU.touch_of_absent ((rep.index key).trans found) time]
      | some value => rw [LRU.touch_of_index ((rep.index key).trans found) time]
  | pop => rw [LRU.step, recencyStep, (rep.pop_spec (small apt)).1]
  | peek => rw [LRU.step, recencyStep, rep.peek, LRU.shown_of_small (small apt)]
  | clear => rfl

theorem Inv.refines (inv : state.Inv) (returned : state.returned = state.expected)
    (kept : ∀ key, state.inserted = some key →
      (state.recency.get key).isSome ∨ state.recency.size = 0) : state.Refines := by
  obtain ⟨nodes, rep⟩ := inv.keys
  exact
    { keys := ⟨nodes, rep⟩
      index := rep.index
      len := rep.len
      pairs := fun fuel enough => rep.pairs enough
      map := fun fuel enough => rep.map enough
      returned := returned
      kept := fun key inserted => by
        rw [rep.index, rep.len]
        exact (kept key inserted).imp id fun none => congrArg Nat.cast none }

theorem step_refines (inv : before.Inv) (good : before.Refines) (apt : before.Apt label)
    (taken : before.step label = some after) : after.Refines := by
  have returned := step_returned inv apt
  refine (step_inv inv apt taken).refines ?_ ?_
  · cases taken
    rw [good.returned, returned]
  · cases taken
    intro key inserted
    cases label with
    | set other value time =>
        obtain rfl := Option.some.inj inserted
        refine (LRU.recencyStep_kept before.lru.maxCount before.recency other value time).imp ?_ id
        intro found
        exact Option.isSome_of_eq_some found
    | delete => cases inserted
    | touch => cases inserted
    | pop => cases inserted
    | peek => cases inserted
    | clear => cases inserted

/-- What was expected before was returned, so the same goes for the last operation. -/
theorem Refines.step_returned (good : before.Refines) (taken : before.step label = some after)
    (refined : after.Refines) :
    (before.lru.step label).1 = (recencyStep before.lru.maxCount before.recency label).1 := by
  cases taken
  have returned : before.returned ++ (before.lru.step label).1.toList =
      before.expected ++ (recencyStep before.lru.maxCount before.recency label).1.toList :=
    refined.returned
  rw [good.returned] at returned
  have heads := congrArg List.head? (List.append_cancel_left returned)
  rwa [Option.head?_toList, Option.head?_toList] at heads

omit [DecidableEq κ] in
theorem ends_differ {table : Lru κ ν} (several : 1 < table.size) :
    ∃ first last, table.peek = some first ∧ (shown true table).peek = some last ∧
      last.1 ≠ first.1 := by
  have front : table.entries ≠ [] := by
    rintro empty
    rw [Lru.size, empty] at several
    cases several
  have back : table.entries.reverse ≠ [] := fun empty => front (List.reverse_eq_nil_iff.mp empty)
  have first : table.peek = some _ := List.head?_eq_some_head front
  have last : (shown true table).peek = some _ := List.head?_eq_some_head back
  exact ⟨_, _, first, last, Lru.last_ne_first several first last⟩

theorem set_not_refines (inv : before.Inv) {key : κ} {value : ν} {time : ℕ}
    (unapt : ¬ before.Apt (.set key value time))
    (taken : before.step (.set key value time) = some after) : ¬ after.Refines := by
  cases taken
  obtain ⟨⟨nodes, rep⟩, within⟩ := inv
  obtain ⟨reversed, rest⟩ := Classical.not_imp.mp unapt
  obtain ⟨absent, rest⟩ := Classical.not_imp.mp rest
  obtain ⟨surplus, some⟩ := Classical.not_imp.mp rest
  rw [rep.index] at absent
  rw [rep.count_eq] at surplus some
  obtain ⟨added, rest, assigned, added_rep, reverse, maxCount⟩ := rep.set key value time
  have size := Lru.size_put_of_absent value time absent
  have several : 1 < (before.recency.put key value time).size := by omega
  have full : added.maxCount < added.count := by
    rw [maxCount, added_rep.count_eq, size]
    omega
  have full_list : before.lru.maxCount < ((before.recency.put key value time).size : ℤ) := by omega
  intro refined
  have index := refined.index key
  change (before.lru.set key value time).index key = Lru.get (if _ then _ else _) key at index
  rw [if_pos full_list, Lru.get_pop_put several, assigned, if_pos full] at index
  rcases added_rep.pop with ⟨-, empty⟩ | ⟨other, _, _, _, first, -, removed⟩
  · rw [Lru.size, empty] at several
    cases several
  · rw [reverse, reversed] at first
    have last := (Lru.flip_peek_put before.recency key value time).symm.trans first
    obtain ⟨rfl, -⟩ := Prod.ext_iff.mp (Option.some.inj last)
    rw [removed.index, Lru.get_erase, if_pos rfl] at index
    cases index

theorem not_refines (inv : before.Inv) (good : before.Refines) (unapt : ¬ before.Apt label)
    (taken : before.step label = some after) : ¬ after.Refines := by
  have several : ¬ (before.lru.reverse = true → before.lru.count ≤ 1) →
      before.lru.reverse = true ∧ 1 < before.recency.size := by
    intro unapt
    obtain ⟨nodes, rep⟩ := inv.keys
    obtain ⟨reversed, many⟩ := Classical.not_imp.mp unapt
    have count := rep.count_eq
    exact ⟨reversed, by omega⟩
  cases label with
  | set key value time => exact set_not_refines inv unapt taken
  | delete key => exact absurd trivial unapt
  | touch key time => exact absurd trivial unapt
  | pop =>
      intro refined
      have returned := good.step_returned taken refined
      obtain ⟨reversed, several⟩ := several unapt
      obtain ⟨nodes, rep⟩ := inv.keys
      obtain ⟨first, last, first_peek, last_peek, differ⟩ := ends_differ several
      rcases rep.pop with ⟨-, empty⟩ | ⟨key, value, time, rest, peek, popped, -⟩
      · rw [Lru.size, empty] at several
        cases several
      · rw [reversed, last_peek] at peek
        rw [LRU.step, recencyStep, first_peek, popped] at returned
        cases peek
        have same := Option.some.inj (Output.popped.inj (Option.some.inj returned))
        exact differ (Prod.ext_iff.mp same).1
  | peek =>
      intro refined
      have returned := good.step_returned taken refined
      obtain ⟨reversed, several⟩ := several unapt
      obtain ⟨nodes, rep⟩ := inv.keys
      obtain ⟨first, last, first_peek, last_peek, differ⟩ := ends_differ several
      rw [LRU.step, recencyStep, rep.peek, reversed, last_peek, first_peek] at returned
      have same := Option.some.inj (Output.peeked.inj (Option.some.inj returned))
      exact differ (Prod.ext_iff.mp same).1
  | clear => exact absurd trivial unapt

omit [DecidableEq κ] in
theorem new_inv (reverse : Bool) (maxCount : Option ℤ) : (new reverse maxCount : Both κ ν).Inv :=
  ⟨⟨[], LRU.rep_new reverse maxCount⟩, .inl rfl⟩

/-- An `LRU` is the list of its keys in the order of their use, exactly if `pop`, `peek` and surplus
keys in reverse mode do not meet several keys. -/
theorem refines_iff (reverse : Bool) (maxCount : Option ℤ) (labels : List (Label κ ν)) :
    Always step Refines (new reverse maxCount) labels ↔
      Guarded step Apt (new reverse maxCount) labels := by
  obtain ⟨final, execution⟩ := exists_run (fun state label => ⟨_, rfl⟩) (new reverse maxCount) labels
  have start : (new reverse maxCount : Both κ ν).Refines := (new_inv reverse maxCount).refines rfl nofun
  refine always_iff_guarded step_inv (fun inv good taken => ⟨fun refined => ?_, fun apt => ?_⟩)
    execution (new_inv reverse maxCount) start
  · by_contra unapt
    exact not_refines inv good unapt taken refined
  · exact step_refines inv good apt taken

/-- In reverse mode, `pop` removes the key that was assigned last. -/
theorem reversePop_not_refines :
    ¬ Always step Refines (new true none)
      [.set 1 10 0, .set 2 20 1, (.pop : Label ℕ ℕ)] := by
  intro always
  obtain ⟨final, execution⟩ : ∃ final,
      run step (new true none) [.set 1 10 0, .set 2 20 1, (.pop : Label ℕ ℕ)] = some final := ⟨_, rfl⟩
  have returned : (run step (new true none) [.set 1 10 0, .set 2 20 1, (.pop : Label ℕ ℕ)]).map
      (fun state => (state.returned, state.expected)) =
        some ([.popped (some (2, 20))], [.popped (some (1, 10))]) := rfl
  rw [execution] at returned
  obtain ⟨popped, expected⟩ := Prod.ext_iff.mp (Option.some.inj returned)
  have same := popped.symm.trans ((always.last execution).returned.trans expected)
  revert same
  decide

end Both

end UEServer.TableExtend
