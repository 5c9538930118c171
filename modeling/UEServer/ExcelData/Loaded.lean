import UEServer.ExcelData.Cut

/-!
# What is loaded

After the load every piece is found under its address, or another piece that has the same address; and
the dictionary of the keys is found under its own.
-/

namespace UEServer.ExcelData

variable {realText : BitVec 64 → Bytes}

variable {entry : Key × Data}

theorem sizeOf_itemPairs {values : List Data} {position : ℕ}
    (mem : entry ∈ Data.itemPairs position values) : sizeOf entry.2 < sizeOf values :=
  List.sizeOf_lt_of_mem (Data.not_nil_of_mem_itemPairs mem).2

variable {t : Data}

theorem sizeOf_pairs (mem : entry ∈ t.pairs) :
    sizeOf entry.2 < sizeOf t := by
  cases t with
  | table array hash =>
      rcases List.mem_append.mp mem with mem | mem
      · have smaller := sizeOf_itemPairs mem
        simp only [Data.table.sizeOf_spec]
        omega
      · have smaller := List.sizeOf_lt_of_mem mem
        obtain ⟨key, value⟩ := entry
        simp only [Data.table.sizeOf_spec, Prod.mk.sizeOf_spec] at smaller ⊢
        omega
  | _ => cases mem

theorem pairs_induction {motive : Data → Prop}
    (step : ∀ t, (∀ entry ∈ t.pairs, motive entry.2) → motive t) (t : Data) : motive t := by
  induction size : sizeOf t using Nat.strong_induction_on generalizing t with
  | _ size ih =>
      subst size
      exact step t fun entry mem => ih _ (sizeOf_pairs mem) _ rfl

theorem valid_of_pairs (nodup : t.keys.Nodup)
    (entries : ∀ entry ∈ t.pairs, entry.1.isKey ∧ entry.2.isNil = false ∧ entry.2.Valid) :
    t.Valid := by
  cases t with
  | table array hash =>
      refine ⟨nodup, (validItems_iff array).mpr fun value mem => ?_,
        (validEntries_iff hash).mpr fun entry mem => entries entry (List.mem_append_right _ mem)⟩
      by_cases missing : value.isNil
      · cases value with
        | nil => trivial
        | _ => cases missing
      · obtain ⟨key, mem⟩ : ∃ key, (key, value) ∈ Data.itemPairs 1 array := by
          clear entries nodup
          generalize 1 = position
          induction array generalizing position with
          | nil => cases mem
          | cons first array ih =>
              rw [Data.itemPairs]
              rcases List.mem_cons.mp mem with rfl | mem
              · rw [if_neg missing]
                exact ⟨_, List.mem_cons_self⟩
              · obtain ⟨key, mem⟩ := ih mem (position + 1)
                refine ⟨key, ?_⟩
                split
                · exact mem
                · exact List.mem_cons_of_mem _ mem
        exact (entries _ (List.mem_append_left _ mem)).2.2
  | _ => trivial

theorem isKey_of_mem_itemPairs {values : List Data} {position : ℕ}
    (mem : entry ∈ Data.itemPairs position values) : entry.1.isKey = true := by
  induction values generalizing position with
  | nil => cases mem
  | cons value values ih =>
      rw [Data.itemPairs] at mem
      split at mem
      · exact ih mem
      · rcases List.mem_cons.mp mem with rfl | mem
        · rfl
        · exact ih mem

theorem isKey_of_mem (valid : t.Valid) (mem : entry ∈ t.pairs) :
    entry.1.isKey = true := by
  cases t with
  | table array hash =>
      rcases List.mem_append.mp mem with mem | mem
      · exact isKey_of_mem_itemPairs mem
      · exact ((validEntries_iff hash).mp valid.2.2 entry mem).1
  | _ => cases mem

theorem valid_pushData {address : Bytes} {isTop : Bool} (valid : t.Valid) :
    (pushData realText address t isTop).1.Valid := by
  induction t using pairs_induction generalizing address isTop with
  | step t ih =>
      cases split : needSplit t isTop with
      | false =>
          rw [pushData_pack split]
          trivial
      | true =>
          refine valid_of_pairs ((keys_pushData split).symm ▸ valid.nodup) fun entry mem => ?_
          rw [(pushData_split split).2.2.1] at mem
          obtain ⟨source, source_mem, rfl⟩ := List.mem_map.mp mem
          have isKey := isKey_of_mem valid source_mem
          exact ⟨isKey, pushData_not_nil _ _ _,
            ih source source_mem (valid.entry source_mem).2⟩

theorem mem_pushData_split {address : Bytes} {isTop : Bool}
    (split : needSplit t isTop) (piece : Bytes × Data) :
    piece ∈ (pushData realText address t isTop).2 ↔ ∃ entry ∈ t.pairs,
      piece ∈ (pushData realText (under realText address entry.1) entry.2 false).2 := by
  rw [(pushData_split split).2.2.2, List.mem_flatMap]
  rfl

theorem colon_mem {address : Bytes} {isTop : Bool} {piece : Bytes × Data}
    (mem : piece ∈ (pushData realText address t isTop).2)
    (split : needSplit t isTop = true ∨ 58 ∈ address) : 58 ∈ piece.1 := by
  induction t using pairs_induction generalizing address isTop with
  | step t ih =>
      cases cut : needSplit t isTop with
      | false =>
          rw [pushData_pack cut] at mem
          cases List.mem_singleton.mp mem
          exact split.resolve_left (by rw [cut]; exact Bool.false_ne_true)
      | true =>
          obtain ⟨entry, entry_mem, mem⟩ := (mem_pushData_split cut piece).mp mem
          exact ih entry entry_mem mem
            (.inr (List.mem_append_right _ List.mem_cons_self))

theorem foldl_put (order : List (Bytes × Bytes)) (dict : ShareDict) (address : Bytes) :
    (∃ bin, (address, bin) ∈ order ∧ order.foldl put dict address = some bin) ∨
      address ∉ order.map Prod.fst ∧ order.foldl put dict address = dict address := by
  induction order generalizing dict with
  | nil => exact .inr ⟨List.not_mem_nil, rfl⟩
  | cons piece order ih =>
      obtain ⟨first, bin⟩ := piece
      rcases ih (put dict (first, bin)) with ⟨bin, mem, found⟩ | ⟨fresh, found⟩
      · exact .inl ⟨bin, List.mem_cons_of_mem _ mem, found⟩
      · rw [List.foldl_cons, found, put]
        by_cases same : address = first
        · subst same
          exact .inl ⟨bin, List.mem_cons_self, Function.update_self _ _ _⟩
        · refine .inr ⟨?_, Function.update_of_ne same _ _⟩
          rw [List.map_cons, List.mem_cons, not_or]
          exact ⟨same, fresh⟩

theorem map_of_mapM {α β : Type*} {f : α → Option β} {values : List α} {results : List β}
    (mapped : values.mapM f = some results) : values.map f = results.map some := by
  induction values generalizing results with
  | nil =>
      cases mapped
      rfl
  | cons value values ih =>
      rw [List.mapM_cons] at mapped
      obtain ⟨first, taken, mapped⟩ := Option.bind_eq_some_iff.mp mapped
      obtain ⟨rest, others, mapped⟩ := Option.bind_eq_some_iff.mp mapped
      cases mapped
      rw [List.map_cons, List.map_cons, taken, ih others]

structure Loaded (realText : BitVec 64 → Bytes) (tables : List (Bytes × Data))
    (dict : ShareDict) : Prop where
  isTable : ∀ table ∈ tables, table.2.isTable = true
  all : ∃ bin, dict allExcel = some bin ∧ packstring (keyDicts realText tables) = some bin
  /-- Under the address of a piece is that piece, or another one with the same address. -/
  piece : ∀ piece ∈ pieces realText tables, ∃ other ∈ pieces realText tables,
    other.1 = piece.1 ∧ ∃ bin, dict piece.1 = some bin ∧ packstring other.2 = some bin

theorem isTop_split (table : t.isTable = true) : needSplit t true = true := by
  cases t with
  | table array hash => rfl
  | _ => cases table

theorem loaded_of_load {tables : List (Bytes × Data)} {order : List (Bytes × Bytes)}
    {dict : ShareDict} (load : load realText tables order = some dict) :
    Loaded realText tables dict := by
  obtain ⟨packed, packs, load⟩ := Option.bind_eq_some_iff.mp load
  obtain ⟨all, packs_all, load⟩ := Option.bind_eq_some_iff.mp load
  obtain ⟨⟨tables_all, perm⟩, load⟩ := Option.ite_none_right_eq_some.mp load
  cases load
  have are_tables : ∀ table ∈ tables, table.2.isTable = true := List.all_eq_true.mp tables_all
  refine ⟨are_tables, ⟨all, Function.update_self _ _ _, packs_all⟩, fun piece mem => ?_⟩
  have elsewhere : piece.1 ≠ allExcel := by
    intro same
    obtain ⟨table, table_mem, mem⟩ := List.mem_flatMap.mp mem
    have colon := colon_mem mem (.inl (isTop_split (are_tables table table_mem)))
    rw [same] at colon
    exact absurd colon (by decide)
  rw [Function.update_of_ne elsewhere]
  have put : piece.1 ∈ order.map Prod.fst := by
    obtain ⟨bin, put, packs_piece⟩ := List.mem_map.mp (map_of_mapM packs ▸ List.mem_map_of_mem mem)
    obtain ⟨text, -, same⟩ := Option.map_eq_some_iff.mp packs_piece.symm
    rw [(perm.map Prod.fst).mem_iff]
    exact List.mem_map.mpr ⟨bin, put, by rw [← same]⟩
  rcases foldl_put order (fun _ => none) piece.1 with ⟨bin, put_mem, found⟩ | ⟨fresh, -⟩
  · obtain ⟨other, other_mem, packs_other⟩ :=
      List.mem_map.mp (map_of_mapM packs ▸ List.mem_map_of_mem (perm.mem_iff.mp put_mem))
    obtain ⟨text, packs_text, same⟩ := Option.map_eq_some_iff.mp packs_other
    obtain ⟨address, rfl⟩ := Prod.mk.inj same
    exact ⟨other, other_mem, address, text, found, packs_text⟩
  · exact absurd put fresh

end UEServer.ExcelData
