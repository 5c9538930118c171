import UEServer.ExcelData.Basic

/-!
# How the tables are cut

A table that is split becomes a dictionary with the same keys, in which every value is what its own
entry is cut into; a value that is not split is one piece.
-/

namespace UEServer.ExcelData

variable {realText : BitVec 64 → Bytes}

namespace Data

theorem lookup_map (f : Key × Data → Data) (key : Key) (entries : List (Key × Data)) :
    lookup key (entries.map fun entry => (entry.1, f entry)) =
      if key ∈ entries.map Prod.fst then f (key, lookup key entries) else .nil := by
  induction entries with
  | nil => rfl
  | cons entry entries ih =>
      obtain ⟨other, value⟩ := entry
      rw [List.map_cons, lookup, ih, List.map_cons, lookup]
      by_cases same : other = key
      · subst same
        rw [if_pos rfl, if_pos rfl, if_pos List.mem_cons_self]
      · have mem : key ∈ other :: entries.map Prod.fst ↔ key ∈ entries.map Prod.fst := by
          simp [Ne.symm same]
        rw [if_neg same, if_neg same]
        simp only [mem]

theorem lookup_of_mem {key : Key} {value : Data} {entries : List (Key × Data)}
    (nodup : (entries.map Prod.fst).Nodup) (mem : (key, value) ∈ entries) :
    lookup key entries = value := by
  induction entries with
  | nil => cases mem
  | cons entry entries ih =>
      obtain ⟨fresh, nodup⟩ := List.nodup_cons.mp nodup
      rw [lookup]
      rcases List.mem_cons.mp mem with equal | mem
      · cases equal
        exact if_pos rfl
      · rw [if_neg, ih nodup mem]
        rintro rfl
        exact fresh (List.mem_map.mpr ⟨_, mem, rfl⟩)

theorem lookup_eq_nil {key : Key} {entries : List (Key × Data)}
    (fresh : key ∉ entries.map Prod.fst) : lookup key entries = .nil := by
  induction entries with
  | nil => rfl
  | cons entry entries ih =>
      rw [List.map_cons, List.mem_cons, not_or] at fresh
      rw [lookup, if_neg (Ne.symm fresh.1), ih fresh.2]

theorem mem_of_lookup {key : Key} {entries : List (Key × Data)}
    (mem : key ∈ entries.map Prod.fst) : (key, lookup key entries) ∈ entries := by
  induction entries with
  | nil => cases mem
  | cons entry entries ih =>
      rw [lookup]
      split
      · next same => exact same ▸ List.mem_cons_self
      · next different =>
          rcases List.mem_cons.mp mem with same | mem
          · exact absurd same.symm different
          · exact List.mem_cons_of_mem _ (ih mem)

theorem not_nil_of_mem_itemPairs {entry : Key × Data} {values : List Data} {position : ℕ}
    (mem : entry ∈ itemPairs position values) : entry.2.isNil = false ∧ entry.2 ∈ values := by
  induction values generalizing position with
  | nil => cases mem
  | cons value values ih =>
      rw [itemPairs] at mem
      split at mem
      · exact ⟨(ih mem).1, List.mem_cons_of_mem _ (ih mem).2⟩
      · next there =>
          rcases List.mem_cons.mp mem with rfl | mem
          · exact ⟨Bool.eq_false_iff.mpr there, List.mem_cons_self⟩
          · exact ⟨(ih mem).1, List.mem_cons_of_mem _ (ih mem).2⟩

end Data

theorem validEntries_iff (entries : List (Key × Data)) :
    ValidEntries entries ↔ ∀ entry ∈ entries,
      entry.1.isKey ∧ entry.2.isNil = false ∧ entry.2.Valid := by
  induction entries with
  | nil => simp [ValidEntries]
  | cons entry entries ih => simp [ValidEntries, ih, and_assoc]

theorem validItems_iff (values : List Data) :
    ValidItems values ↔ ∀ value ∈ values, value.Valid := by
  induction values with
  | nil => simp [ValidItems]
  | cons value values ih => simp [ValidItems, ih]

namespace Data

variable {t : Data} {key : Key}

theorem Valid.entry (valid : t.Valid) {entry : Key × Data} (mem : entry ∈ t.pairs) :
    entry.2.isNil = false ∧ entry.2.Valid := by
  cases t with
  | table array hash =>
      obtain ⟨-, items, entries⟩ := valid
      rcases List.mem_append.mp mem with mem | mem
      · obtain ⟨there, mem⟩ := not_nil_of_mem_itemPairs mem
        exact ⟨there, (validItems_iff array).mp items _ mem⟩
      · exact ((validEntries_iff hash).mp entries entry mem).2
  | _ => cases mem

theorem Valid.nodup (valid : t.Valid) : t.keys.Nodup := by
  cases t with
  | table array hash => exact valid.1
  | _ => exact List.nodup_nil

theorem index_of_mem (valid : t.Valid) {value : Data} (mem : (key, value) ∈ t.pairs) :
    t.index key = value :=
  lookup_of_mem valid.nodup mem

theorem index_isNil (valid : t.Valid) : (t.index key).isNil = false ↔ key ∈ t.keys := by
  constructor
  · intro there
    by_contra fresh
    rw [index, lookup_eq_nil fresh] at there
    cases there
  · intro mem
    exact (valid.entry (mem_of_lookup mem)).1

theorem index_eq_nil (fresh : key ∉ t.keys) : t.index key = .nil :=
  lookup_eq_nil fresh

theorem Valid.index (valid : t.Valid) (key : Key) : (t.index key).Valid := by
  by_cases mem : key ∈ t.keys
  · exact (valid.entry (mem_of_lookup mem)).2
  · rw [index_eq_nil mem]
    trivial

end Data

theorem pushData_not_nil (address : Bytes) (t : Data) (isTop : Bool) :
    (pushData realText address t isTop).1.isNil = false := by
  cases t with
  | table array hash =>
      rw [pushData]
      split <;> rfl
  | _ => rfl

/-- What an entry of a split table is cut into. -/
def cutEntry (realText : BitVec 64 → Bytes) (address : Bytes) (entry : Key × Data) :
    Data × List (Bytes × Data) :=
  pushData realText (under realText address entry.1) entry.2 false

theorem pushItems_spec (address : Bytes) (position : ℕ) (values : List Data) :
    (pushItems realText address position values).1.length = values.length ∧
      Data.itemPairs position (pushItems realText address position values).1 =
        (Data.itemPairs position values).map (fun entry =>
          (entry.1, (cutEntry realText address entry).1)) ∧
      (pushItems realText address position values).2 =
        (Data.itemPairs position values).flatMap fun entry =>
          (cutEntry realText address entry).2 := by
  induction values generalizing position with
  | nil => exact ⟨rfl, rfl, rfl⟩
  | cons value values ih =>
      obtain ⟨length, dict, parts⟩ := ih (position + 1)
      rw [pushItems]
      split
      · next missing =>
          rw [Data.itemPairs, Data.itemPairs, if_pos missing, if_pos missing]
          exact ⟨congrArg (· + 1) length, dict, parts⟩
      · next there =>
          have pushed := @pushData_not_nil realText
            (under realText address (.integer (BitVec.ofNat 64 position))) value false
          rw [Data.itemPairs, Data.itemPairs, if_neg there, if_neg (Bool.eq_false_iff.mp pushed),
            List.map_cons, List.flatMap_cons, dict, parts]
          exact ⟨congrArg (· + 1) length, rfl, rfl⟩

theorem pushEntries_spec (address : Bytes) (entries : List (Key × Data)) :
    (pushEntries realText address entries).1 =
        entries.map (fun entry => (entry.1, (cutEntry realText address entry).1)) ∧
      (pushEntries realText address entries).2 =
        entries.flatMap fun entry => (cutEntry realText address entry).2 := by
  induction entries with
  | nil => exact ⟨rfl, rfl⟩
  | cons entry entries ih =>
      obtain ⟨dict, parts⟩ := ih
      rw [pushEntries]
      rw [dict, parts]
      exact ⟨rfl, rfl⟩

section
variable {t : Data} {isTop : Bool} (split : needSplit t isTop)
include split

theorem isTable_of_needSplit : t.isTable = true := by
  cases t with
  | table array hash => rfl
  | _ => cases split

theorem pushData_split {address : Bytes} :
    (pushData realText address t isTop).1.isTable = true ∧
      (pushData realText address t isTop).1.length = t.length ∧
      (pushData realText address t isTop).1.pairs =
        t.pairs.map (fun entry => (entry.1, (cutEntry realText address entry).1)) ∧
      (pushData realText address t isTop).2 =
        t.pairs.flatMap fun entry => (cutEntry realText address entry).2 := by
  cases t with
  | table array hash =>
      obtain ⟨length, items, parts⟩ := @pushItems_spec realText address 1 array
      obtain ⟨entries, others⟩ := @pushEntries_spec realText address hash
      rw [pushData, if_pos split]
      dsimp only
      refine ⟨rfl, length, ?_, ?_⟩
      · rw [Data.pairs, Data.pairs, items, entries, List.map_append]
      · rw [Data.pairs, List.flatMap_append, parts, others]
  | _ => cases split

omit split in
theorem pushData_pack {address : Bytes} {t : Data} {isTop : Bool}
    (whole : needSplit t isTop = false) :
    pushData realText address t isTop = (tyPack, [(address, t)]) := by
  cases t with
  | table array hash => rw [pushData, if_neg (Bool.eq_false_iff.mp whole)]
  | _ => rfl

theorem keys_pushData {address : Bytes} : (pushData realText address t isTop).1.keys = t.keys := by
  rw [Data.keys, (pushData_split split).2.2.1, List.map_map]
  rfl

theorem index_pushData {address : Bytes} (key : Key) :
    (pushData realText address t isTop).1.index key =
      if key ∈ t.keys then
        (pushData realText (under realText address key) (t.index key) false).1
      else .nil := by
  rw [Data.index, (pushData_split split).2.2.1, Data.lookup_map]
  rfl

end

end UEServer.ExcelData
