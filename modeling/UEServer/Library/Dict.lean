import UEServer.Library.Table

/-!
# Tables of numbers

A table of numbers reads as zero where it has no entry.  This file gives the sum and the difference
of two tables, each by a walk over the keys of one of them, and what they read as.
-/

namespace Table

variable {κ ν M : Type*} [DecidableEq κ]

/-- The values, in the order in which a table is walked. -/
def values (table : Table κ ν) : List ν :=
  (AList.entries table).map Sigma.snd

theorem mem_values {table : Table κ ν} {value : ν} :
    value ∈ table.values ↔ ∃ key, table.get key = some value := by
  rw [values, List.mem_map]
  constructor
  · rintro ⟨entry, mem, rfl⟩
    exact ⟨entry.1, (get_eq_some table entry.1 entry.2).mpr mem⟩
  · rintro ⟨key, found⟩
    exact ⟨⟨key, value⟩, (get_eq_some table key value).mp found, rfl⟩

/-- The table that gives each key of a list its number. -/
def tabulate (f : κ → ν) (keys : List κ) : Table κ ν :=
  keys.foldl (fun table key => table.set key (some (f key))) empty

theorem get_foldl_set (f : κ → ν) (keys : List κ) (table : Table κ ν) (key : κ) :
    (keys.foldl (fun table key => table.set key (some (f key))) table).get key =
      if key ∈ keys then some (f key) else table.get key := by
  induction keys generalizing table with
  | nil => simp
  | cons first keys ih =>
      rw [List.foldl_cons, ih, get_set]
      by_cases later : key ∈ keys
      · simp [later]
      · by_cases same : key = first
        · simp [same]
        · simp [later, same]

@[simp]
theorem get_tabulate (f : κ → ν) (keys : List κ) (key : κ) :
    (tabulate f keys).get key = if key ∈ keys then some (f key) else none := by
  rw [tabulate, get_foldl_set, get_empty]

/-- The table that gives each key of a list what there is for it. -/
def collect (value : κ → Option ν) (keys : List κ) : Table κ ν :=
  keys.foldl (fun table key => table.set key (value key)) empty

theorem get_collect (value : κ → Option ν) (keys : List κ) (key : κ) :
    (collect value keys).get key = if key ∈ keys then value key else none := by
  have from_start : ∀ start : Table κ ν,
      (keys.foldl (fun table key => table.set key (value key)) start).get key =
        if key ∈ keys then value key else start.get key := by
    induction keys with
    | nil => exact fun _ => rfl
    | cons first keys ih =>
        intro start
        rw [List.foldl_cons, ih]
        by_cases later : key ∈ keys
        · rw [if_pos later, if_pos (List.mem_cons_of_mem _ later)]
        · rw [if_neg later, get_set]
          by_cases here : key = first
          · rw [if_pos here, if_pos (here ▸ List.mem_cons_self), here]
          · rw [if_neg here, if_neg fun mem => (List.mem_cons.mp mem).elim here later]
  rw [collect, from_start, get_empty]

theorem get_foldl_open {ι : Type*} (opens : ι → Prop) [DecidablePred opens] (keyOf : ι → κ)
    (value : ν) (items : List ι) (table : Table κ ν) (key : κ) :
    (items.foldl (fun table item =>
        if opens item ∧ table.get (keyOf item) = none then
          table.set (keyOf item) (some value)
        else table) table).get key = table.get key ∨
      table.get key = none ∧ (∃ item ∈ items, opens item ∧ keyOf item = key) ∧
        (items.foldl (fun table item =>
          if opens item ∧ table.get (keyOf item) = none then
            table.set (keyOf item) (some value)
          else table) table).get key = some value := by
  induction items generalizing table with
  | nil => exact .inl rfl
  | cons item items ih =>
      rw [List.foldl_cons]
      by_cases opened : opens item ∧ table.get (keyOf item) = none
      · rw [if_pos opened]
        by_cases same : key = keyOf item
        · subst same
          rcases ih (table.set (keyOf item) (some value)) with kept | ⟨absent, -⟩
          · rw [get_set_self] at kept
            exact .inr ⟨opened.2, ⟨item, List.mem_cons_self, opened.1, rfl⟩, kept⟩
          · rw [get_set_self] at absent
            cases absent
        · have rest := ih (table.set (keyOf item) (some value))
          rw [get_set_of_ne table _ same] at rest
          refine rest.imp id fun ⟨absent, ⟨other, mem, found⟩, made⟩ => ?_
          exact ⟨absent, ⟨other, List.mem_cons_of_mem _ mem, found⟩, made⟩
      · rw [if_neg opened]
        refine (ih table).imp id fun ⟨absent, ⟨other, mem, found⟩, made⟩ => ?_
        exact ⟨absent, ⟨other, List.mem_cons_of_mem _ mem, found⟩, made⟩

def update (table other : Table κ ν) : Table κ ν :=
  other.keys.foldl (fun table key => table.set key (other.get key)) table

theorem get_foldl_set_get (other : Table κ ν) (keys : List κ) (table : Table κ ν) (key : κ) :
    (keys.foldl (fun table key => table.set key (other.get key)) table).get key =
      if key ∈ keys then other.get key else table.get key := by
  induction keys generalizing table with
  | nil => simp
  | cons first keys ih =>
      rw [List.foldl_cons, ih, get_set]
      by_cases later : key ∈ keys
      · simp [later]
      · by_cases same : key = first
        · simp [same]
        · simp [later, same]

theorem get_update (table other : Table κ ν) (key : κ) :
    (table.update other).get key =
      if (other.get key).isSome then other.get key else table.get key := by
  simp only [update, get_foldl_set_get, mem_keys, Option.isSome_iff_ne_none]

section
variable [AddCommGroup M]

def read (table : Table κ M) (key : κ) : M :=
  (table.get key).getD 0

def increase (table : Table κ M) (key : κ) (amount : M) : Table κ M :=
  table.set key (some (table.read key + amount))

def addAll (table other : Table κ M) : Table κ M :=
  other.keys.foldl (fun table key => table.increase key (other.read key)) table

def addList (table : Table κ M) (entries : List (κ × M)) : Table κ M :=
  entries.foldl (fun table entry => table.increase entry.1 entry.2) table

@[simp]
theorem read_empty (key : κ) : (empty : Table κ M).read key = 0 := by
  rw [read, get_empty, Option.getD_none]

theorem read_set (table : Table κ M) (key other : κ) (value : Option M) :
    (table.set key value).read other = if other = key then value.getD 0 else table.read other := by
  rw [read, get_set]
  split
  · rfl
  · rfl

theorem read_of_not_mem {table : Table κ M} {key : κ} (absent : key ∉ table.keys) :
    table.read key = 0 := by
  rw [mem_keys, not_not] at absent
  rw [read, absent, Option.getD_none]

@[simp]
theorem read_increase (table : Table κ M) (key other : κ) (amount : M) :
    (table.increase key amount).read other =
      table.read other + if other = key then amount else 0 := by
  rw [increase, read_set]
  by_cases same : other = key
  · simp [same]
  · simp [same]

theorem read_foldl_increase (f : κ → M) {keys : List κ} (nodup : keys.Nodup) (table : Table κ M)
    (key : κ) :
    (keys.foldl (fun table key => table.increase key (f key)) table).read key =
      table.read key + if key ∈ keys then f key else 0 := by
  induction keys generalizing table with
  | nil => simp
  | cons first keys ih =>
      obtain ⟨fresh, nodup⟩ := List.nodup_cons.mp nodup
      rw [List.foldl_cons, ih nodup, read_increase]
      by_cases same : key = first
      · subst same
        simp [fresh]
      · simp [same]

@[simp]
theorem read_addAll (table other : Table κ M) (key : κ) :
    (table.addAll other).read key = table.read key + other.read key := by
  rw [addAll, read_foldl_increase other.read other.keys_nodup]
  by_cases present : key ∈ other.keys
  · rw [if_pos present]
  · rw [if_neg present, read_of_not_mem present]

theorem read_addList (table : Table κ M) (entries : List (κ × M)) (key : κ) :
    (table.addList entries).read key =
      table.read key + ((entries.filter fun entry => entry.1 = key).map Prod.snd).sum := by
  rw [addList]
  induction entries generalizing table with
  | nil => simp
  | cons entry entries ih =>
      rw [List.foldl_cons, ih, read_increase]
      by_cases same : entry.1 = key
      · simp [same, add_assoc]
      · simp [same, Ne.symm same]

section
variable [DecidableEq M]

def nonzero (table : Table κ M) : Table κ M :=
  tabulate table.read (table.keys.filter fun key => table.read key ≠ 0)

@[simp]
theorem read_nonzero (table : Table κ M) (key : κ) : table.nonzero.read key = table.read key := by
  rw [read, nonzero, get_tabulate]
  by_cases zero : table.read key = 0
  · simp [zero]
  · have present : key ∈ table.keys := by
      by_contra absent
      exact zero (read_of_not_mem absent)
    simp [zero, present]

/-- The numbers of one table less those of another, where they differ. -/
def difference (old new : Table κ M) : Table κ M :=
  (old.keys.foldl (fun table key => table.increase key (-old.read key)) new).nonzero

@[simp]
theorem read_difference (old new : Table κ M) (key : κ) :
    (difference old new).read key = new.read key - old.read key := by
  rw [difference, read_nonzero, read_foldl_increase (fun key => -old.read key) old.keys_nodup]
  by_cases present : key ∈ old.keys
  · rw [if_pos present, sub_eq_add_neg]
  · rw [if_neg present, read_of_not_mem present, add_zero, sub_zero]

end

end

end Table
