import Mathlib.Data.List.TakeWhile
import UEServer.Library.Table

/-!
# Least recently used

A table that remembers the order in which its keys were assigned, and when.  An assignment puts the
key at the end; the key at the front was assigned longest ago.
-/

/-- Keys with their values and times, in the order of the assignments. -/
structure Lru (κ ν : Type*) where
  entries : List (κ × ν × Nat)
  nodup : (entries.map Prod.fst).Nodup

namespace Lru

variable {κ ν : Type*} [DecidableEq κ]

def empty : Lru κ ν := ⟨[], List.nodup_nil⟩

def get (lru : Lru κ ν) (key : κ) : Option ν :=
  (lru.entries.lookup key).map Prod.fst

def size (lru : Lru κ ν) : Nat := lru.entries.length

def peek (lru : Lru κ ν) : Option (κ × ν × Nat) := lru.entries.head?

def erase (lru : Lru κ ν) (key : κ) : Lru κ ν :=
  ⟨lru.entries.filter fun entry => entry.1 ≠ key,
    lru.nodup.sublist (List.filter_sublist.map Prod.fst)⟩

/-- Assign a value to a key. -/
def put (lru : Lru κ ν) (key : κ) (value : ν) (time : Nat) : Lru κ ν :=
  ⟨(lru.erase key).entries ++ [(key, value, time)], by
    rw [List.map_append]
    refine List.nodup_append.mpr ⟨(lru.erase key).nodup, List.nodup_singleton key, ?_⟩
    rintro other before _ now rfl
    obtain rfl := List.mem_singleton.mp now
    obtain ⟨entry, mem, same⟩ := List.mem_map.mp before
    have different := (List.mem_filter.mp mem).2
    exact of_decide_eq_true different same⟩

/-- Remove the key that was assigned longest ago. -/
def pop (lru : Lru κ ν) : Lru κ ν :=
  match lru.entries with
  | [] => lru
  | entry :: _ => lru.erase entry.1

/-- The entry that follows a key, with which a traversal goes on; the first entry if there is no such
key. -/
def next (lru : Lru κ ν) : Option κ → Option (κ × ν)
  | none => lru.entries.head?.map fun entry => (entry.1, entry.2.1)
  | some key =>
      match lru.entries.dropWhile fun entry => entry.1 ≠ key with
      | [] => lru.entries.head?.map fun entry => (entry.1, entry.2.1)
      | _ :: rest => rest.head?.map fun entry => (entry.1, entry.2.1)

def flip (lru : Lru κ ν) : Lru κ ν :=
  ⟨lru.entries.reverse, by
    rw [List.map_reverse]
    exact List.nodup_reverse.mpr lru.nodup⟩

omit [DecidableEq κ] in
theorem eq_of_entries {lru other : Lru κ ν} (same : lru.entries = other.entries) : lru = other := by
  cases lru
  cases other
  cases same
  rfl

@[simp]
theorem get_empty (key : κ) : (empty : Lru κ ν).get key = none := rfl

theorem get_eq_some {lru : Lru κ ν} {key : κ} {value : ν} :
    lru.get key = some value ↔ ∃ time, (key, value, time) ∈ lru.entries := by
  unfold get
  rw [Option.map_eq_some_iff]
  constructor
  · rintro ⟨⟨_, time⟩, found, rfl⟩
    exact ⟨time, Assoc.mem_of_lookup found⟩
  · rintro ⟨time, mem⟩
    exact ⟨(value, time), Assoc.lookup_of_mem lru.nodup mem, rfl⟩

theorem get_erase (lru : Lru κ ν) (key other : κ) :
    (lru.erase key).get other = if other = key then none else lru.get other := by
  ext value
  rw [get_eq_some]
  split
  · rename_i same
    subst same
    simp [erase]
  · rename_i different
    rw [get_eq_some]
    simp [erase, different]

theorem get_put (lru : Lru κ ν) (key other : κ) (value : ν) (time : Nat) :
    (lru.put key value time).get other = if other = key then some value else lru.get other := by
  have entries : (lru.put key value time).entries =
      (lru.erase key).entries ++ [(key, value, time)] := rfl
  have erased := get_erase lru key other
  ext found
  rw [get_eq_some, entries]
  split
  · rename_i same
    subst same
    simp [erase, eq_comm]
  · rename_i different
    rw [if_neg different] at erased
    rw [← erased, get_eq_some]
    simp [different]

theorem get_of_peek {lru : Lru κ ν} {key : κ} {value : ν} {time : Nat}
    (first : lru.peek = some (key, value, time)) : lru.get key = some value :=
  get_eq_some.mpr ⟨time, List.mem_of_mem_head? first⟩

theorem get_of_peek_none {lru : Lru κ ν} (none_first : lru.peek = none) (key : κ) :
    lru.get key = none := by
  unfold get
  rw [List.head?_eq_none_iff.mp none_first]
  rfl

theorem pop_of_peek {lru : Lru κ ν} {entry : κ × ν × Nat} (first : lru.peek = some entry) :
    lru.pop = lru.erase entry.1 := by
  obtain ⟨rest, entries⟩ := List.head?_eq_some_iff.mp first
  unfold pop
  rw [entries]

theorem pop_of_empty {lru : Lru κ ν} (empty : lru.entries = []) : lru.pop = lru := by
  unfold pop
  rw [empty]

theorem get_pop {lru : Lru κ ν} {key : κ} {value : ν} {time : Nat}
    (first : lru.peek = some (key, value, time)) (other : κ) :
    lru.pop.get other = if other = key then none else lru.get other := by
  rw [pop_of_peek first, get_erase]

theorem next_of_entries {lru : Lru κ ν} {front rest : List (κ × ν × Nat)} {entry : κ × ν × Nat}
    (entries : lru.entries = front ++ entry :: rest) :
    lru.next (some entry.1) = rest.head?.map fun entry => (entry.1, entry.2.1) := by
  have nodup := lru.nodup
  rw [entries, List.map_append, List.map_cons, List.nodup_append] at nodup
  have others : ∀ other ∈ front, decide (other.1 ≠ entry.1) = true := by
    intro other mem
    exact decide_eq_true (nodup.2.2 other.1 (List.mem_map_of_mem mem) entry.1 List.mem_cons_self)
  have reached : (front ++ entry :: rest).dropWhile (fun other => other.1 ≠ entry.1) =
      entry :: rest := by
    rw [List.dropWhile_append_of_pos others]
    simp
  simp only [next, entries, reached]

theorem next_put (lru : Lru κ ν) (key : κ) (value : ν) (time : Nat) :
    (lru.put key value time).next (some key) = none :=
  @next_of_entries _ _ _ (lru.put key value time) _ [] (key, value, time) rfl

theorem not_mem_of_absent {lru : Lru κ ν} {key : κ} (absent : lru.get key = none) :
    ∀ entry ∈ lru.entries, decide (entry.1 ≠ key) = true := by
  rintro ⟨other, old, assigned⟩ mem
  refine decide_eq_true ?_
  rintro rfl
  cases absent.symm.trans (get_eq_some.mpr ⟨assigned, mem⟩)

theorem erase_of_absent {lru : Lru κ ν} {key : κ} (absent : lru.get key = none) :
    lru.erase key = lru :=
  eq_of_entries (List.filter_eq_self.mpr (not_mem_of_absent absent))

theorem put_erase (lru : Lru κ ν) (key : κ) (value : ν) (time : Nat) :
    (lru.erase key).put key value time = lru.put key value time := by
  have absent : (lru.erase key).get key = none := by
    rw [get_erase, if_pos rfl]
  refine eq_of_entries ?_
  change ((lru.erase key).erase key).entries ++ _ = _
  rw [erase_of_absent absent]
  rfl

theorem entries_put {lru : Lru κ ν} {key : κ} (value : ν) (time : Nat) (absent : lru.get key = none) :
    (lru.put key value time).entries = lru.entries ++ [(key, value, time)] := by
  change (lru.erase key).entries ++ _ = _
  rw [erase_of_absent absent]

theorem next_of_absent {lru : Lru κ ν} {key : κ} (absent : lru.get key = none) :
    lru.next (some key) = lru.next none := by
  have all : lru.entries.dropWhile (fun entry => entry.1 ≠ key) = [] :=
    List.dropWhile_eq_nil_iff.mpr (not_mem_of_absent absent)
  simp only [next, all]

theorem entries_erase {lru : Lru κ ν} {front back : List (κ × ν × Nat)} {entry : κ × ν × Nat}
    (entries : lru.entries = front ++ entry :: back) :
    (lru.erase entry.1).entries = front ++ back := by
  have nodup := lru.nodup
  rw [entries, List.map_append, List.map_cons, List.nodup_append] at nodup
  have front_kept : ∀ other ∈ front, decide (other.1 ≠ entry.1) = true := fun other mem =>
    decide_eq_true (nodup.2.2 other.1 (List.mem_map_of_mem mem) entry.1 List.mem_cons_self)
  have back_kept : ∀ other ∈ back, decide (other.1 ≠ entry.1) = true := by
    intro other mem
    refine decide_eq_true fun same => ?_
    exact (List.nodup_cons.mp nodup.2.1).1 (same ▸ List.mem_map_of_mem mem)
  change lru.entries.filter _ = _
  rw [entries, List.filter_append, List.filter_cons_of_neg (by simp),
    List.filter_eq_self.mpr front_kept, List.filter_eq_self.mpr back_kept]

theorem get_flip (lru : Lru κ ν) (key : κ) : lru.flip.get key = lru.get key := by
  ext value
  rw [get_eq_some, get_eq_some]
  simp only [flip, List.mem_reverse]

theorem size_put_of_absent {lru : Lru κ ν} {key : κ} (value : ν) (time : Nat)
    (absent : lru.get key = none) : (lru.put key value time).size = lru.size + 1 := by
  rw [size, entries_put value time absent, List.length_append, List.length_singleton, size]

theorem size_put_of_get {lru : Lru κ ν} {key : κ} {old : ν} (value : ν) (time : Nat)
    (found : lru.get key = some old) : (lru.put key value time).size = lru.size := by
  obtain ⟨assigned, mem⟩ := get_eq_some.mp found
  obtain ⟨front, back, entries⟩ := List.append_of_mem mem
  change ((lru.erase key).entries ++ [(key, value, time)]).length = lru.entries.length
  rw [@entries_erase _ _ _ _ _ _ (key, old, assigned) entries, entries]
  simp only [List.length_append, List.length_cons, List.length_nil]
  omega

omit [DecidableEq κ] in
theorem last_ne_first {lru : Lru κ ν} {first last : κ × ν × Nat} (several : 1 < lru.size)
    (peek : lru.peek = some first) (flip_peek : lru.flip.peek = some last) : last.1 ≠ first.1 := by
  obtain ⟨rest, entries⟩ := List.head?_eq_some_iff.mp peek
  have nodup := lru.nodup
  rw [entries, List.map_cons, List.nodup_cons] at nodup
  have last_mem : last ∈ rest := by
    have flipped : lru.entries.reverse.head? = some last := flip_peek
    rw [List.head?_reverse, entries, List.getLast?_cons] at flipped
    cases rest with
    | nil =>
        rw [size, entries] at several
        exact absurd several (Nat.lt_irrefl 1)
    | cons entry rest =>
        have ended := Option.some.inj flipped
        rw [List.getLast?_eq_some_getLast (List.cons_ne_nil entry rest), Option.getD_some] at ended
        exact ended ▸ List.getLast_mem _
  intro same
  exact nodup.1 (same ▸ List.mem_map_of_mem last_mem)

theorem size_pop (lru : Lru κ ν) : lru.pop.size = lru.size - 1 := by
  cases entries : lru.entries with
  | nil =>
      rw [pop_of_empty entries, size, entries]
      rfl
  | cons entry rest =>
      have first : lru.peek = some entry := List.head?_eq_some_iff.mpr ⟨rest, entries⟩
      have erased := @entries_erase _ _ _ lru [] rest entry entries
      rw [pop_of_peek first, size, size, erased, entries]
      rfl

theorem size_erase_le (lru : Lru κ ν) (key : κ) : (lru.erase key).size ≤ lru.size :=
  List.length_filter_le ..

theorem flip_peek_put (lru : Lru κ ν) (key : κ) (value : ν) (time : Nat) :
    (lru.put key value time).flip.peek = some (key, value, time) := by
  change ((lru.erase key).entries ++ [(key, value, time)]).reverse.head? = _
  rw [List.reverse_append]
  rfl

theorem get_pop_put {lru : Lru κ ν} {key : κ} {value : ν} {time : Nat}
    (several : 1 < (lru.put key value time).size) :
    (lru.put key value time).pop.get key = some value := by
  cases first : (lru.put key value time).peek with
  | none =>
      rw [size, List.head?_eq_none_iff.mp first] at several
      cases several
  | some entry =>
      have other : key ≠ entry.1 := last_ne_first several first (flip_peek_put lru key value time)
      rw [@get_pop _ _ _ _ entry.1 entry.2.1 entry.2.2 first, if_neg other, get_put, if_pos rfl]

theorem size_erase_of_get {lru : Lru κ ν} {key : κ} {old : ν} (found : lru.get key = some old) :
    (lru.erase key).size + 1 = lru.size := by
  have put := size_put_of_get old 0 found
  rwa [size, show (lru.put key old 0).entries = (lru.erase key).entries ++ [(key, old, 0)] from rfl,
    List.length_append, List.length_singleton] at put

end Lru
