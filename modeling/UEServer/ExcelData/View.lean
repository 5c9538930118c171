import Mathlib.Data.List.Nodup
import UEServer.ExcelData.Loaded

/-!
# What is read

What has been read before makes no difference.  A proxy leads to the proxies of the tables that were
split, and to the pieces that are stored for the others.
-/

namespace UEServer.ExcelData

variable {realText : BitVec 64 → Bytes} {dict : ShareDict}

namespace View

def step (realText : BitVec 64 → Bytes) (dict : ShareDict) (view : View) (key : Key) :
    Option View :=
  if view.owns key then some .field else view.fetch realText dict key

def follow (realText : BitVec 64 → Bytes) (dict : ShareDict) : View → List Key → Option View
  | view, [] => some view
  | view, key :: path => (view.step realText dict key).bind fun value =>
      value.follow realText dict path

/-- The fields `__tmp` hold what is read there for the first time. -/
def Sound (realText : BitVec 64 → Bytes) (dict : ShareDict) (root : View) (tmp : Tmp) : Prop :=
  ∀ way value, tmp way = some value → root.follow realText dict way = some value

theorem follow_append (view : View) (way path : List Key) :
    view.follow realText dict (way ++ path) =
      (view.follow realText dict way).bind fun value => value.follow realText dict path := by
  induction way generalizing view with
  | nil => rfl
  | cons key way ih =>
      rw [List.cons_append, follow, follow]
      cases view.step realText dict key with
      | none => rfl
      | some value => exact ih value

theorem follow_single (view : View) (key : Key) :
    view.follow realText dict [key] = view.step realText dict key := by
  rw [follow]
  cases view.step realText dict key <;> rfl

theorem index_spec {root view : View} {tmp : Tmp} {way : List Key}
    (sound : Sound realText dict root tmp) (found : root.follow realText dict way = some view)
    (key : Key) :
    (view.index realText dict tmp way key).map Prod.fst = view.step realText dict key ∧
      ∀ result, view.index realText dict tmp way key = some result →
        Sound realText dict root result.2 := by
  have next : root.follow realText dict (way ++ [key]) = view.step realText dict key := by
    rw [follow_append, found, Option.bind_some, follow_single]
  unfold index
  by_cases own : view.owns key
  · rw [if_pos own, step, if_pos own]
    refine ⟨rfl, fun result taken => ?_⟩
    cases taken
    exact sound
  · rw [if_neg own]
    split
    · next value cached =>
        refine ⟨(sound _ value cached).symm.trans next, fun result taken => ?_⟩
        cases taken
        exact sound
    · rw [step, if_neg own] at next ⊢
      refine ⟨?_, fun result taken => ?_⟩
      · rw [Option.map_map]
        exact Option.map_id'
      · obtain ⟨value, fetched, rfl⟩ := Option.map_eq_some_iff.mp taken
        dsimp only
        split
        · exact sound
        · intro other_way other known
          rw [Function.update_apply] at known
          split at known
          · next same =>
              cases known
              rw [same, next, fetched]
          · exact sound other_way other known

theorem read_spec {root view : View} {tmp : Tmp} {way : List Key}
    (sound : Sound realText dict root tmp) (found : root.follow realText dict way = some view)
    (path : List Key) :
    (view.read realText dict tmp way path).1 = view.follow realText dict path ∧
      Sound realText dict root (view.read realText dict tmp way path).2 := by
  induction path generalizing view tmp way with
  | nil => exact ⟨rfl, sound⟩
  | cons key path ih =>
      obtain ⟨value, kept⟩ := index_spec sound found key
      rw [read, follow]
      split
      · next raised =>
          rw [raised] at value
          rw [← value]
          exact ⟨rfl, sound⟩
      · next next_view next_tmp taken =>
          rw [taken] at value
          rw [← value]
          refine ih (kept _ taken) ?_
          rw [follow_append, found, Option.bind_some, follow_single, ← value]
          rfl

theorem reads_spec {root : View} {tmp : Tmp} (sound : Sound realText dict root tmp)
    (paths : List (List Key)) :
    Sound realText dict root (root.reads realText dict tmp paths) := by
  induction paths generalizing tmp with
  | nil => exact sound
  | cons path paths ih => exact ih (@read_spec _ _ _ _ _ [] sound rfl path).2

theorem read_reads (root : View) (earlier : List (List Key)) (path : List Key) :
    (root.read realText dict (root.reads realText dict (fun _ => none) earlier) [] path).1 =
      root.follow realText dict path := by
  have unread : Sound realText dict root fun _ => none := by
    intro way value known
    cases known
  exact (read_spec (reads_spec unread earlier) rfl path).1

end View

def Stored (dict : ShareDict) (address : Bytes) (value : Data) : Prop :=
  ∃ bin, dict address = some bin ∧ unpack bin = some value

theorem valid_piece {address : Bytes} {t : Data} {isTop : Bool} (valid : t.Valid)
    {piece : Bytes × Data} (mem : piece ∈ (pushData realText address t isTop).2) :
    piece.2.Valid := by
  induction t using pairs_induction generalizing address isTop with
  | step t ih =>
      cases split : needSplit t isTop with
      | false =>
          rw [pushData_pack split] at mem
          cases List.mem_singleton.mp mem
          exact valid
      | true =>
          obtain ⟨entry, entry_mem, mem⟩ := (mem_pushData_split split piece).mp mem
          exact ih entry entry_mem (valid.entry entry_mem).2 mem

section
variable {tables : List (Bytes × Data)} (valid : ∀ table ∈ tables, table.2.Valid)

include valid

theorem Loaded.stored (loaded : Loaded realText tables dict) {piece : Bytes × Data}
    (mem : piece ∈ pieces realText tables) : ∃ other ∈ pieces realText tables,
      other.1 = piece.1 ∧ Stored dict piece.1 other.2 := by
  obtain ⟨other, other_mem, same, bin, found, packs⟩ := loaded.piece piece mem
  obtain ⟨table, table_mem, cut⟩ := List.mem_flatMap.mp other_mem
  have other_valid : other.2.Valid := valid_piece (valid table table_mem) cut
  exact ⟨other, other_mem, same, bin, found, unpack_packstring other_valid packs⟩

theorem Loaded.fetched (loaded : Loaded realText tables dict)
    (names : (tables.map Prod.fst).Nodup) {table : Bytes × Data} (mem : table ∈ tables) :
    fetched dict table.1 =
      some (.proxy table.1 (pushData realText table.1 table.2 true).1) := by
  obtain ⟨bin, found, packs⟩ := loaded.all
  have keys : (keyDicts realText tables).keys =
      (tables.map Prod.fst).map Key.string := by
    simp [keyDicts, Data.keys, Data.pairs, Data.itemPairs]
  have all_valid : (keyDicts realText tables).Valid := by
    refine valid_of_pairs ?_ fun entry entry_mem => ?_
    · rw [keys]
      exact names.map fun _ _ same => Key.string.inj same
    · obtain ⟨table, table_mem, rfl⟩ := List.mem_map.mp entry_mem
      exact ⟨rfl, pushData_not_nil _ _ _, valid_pushData (valid table table_mem)⟩
  have entry : (.string table.1, (pushData realText table.1 table.2 true).1) ∈
      (keyDicts realText tables).pairs := by
    exact List.mem_map.mpr ⟨table, mem, rfl⟩
  rw [ExcelData.fetched, found, Option.bind_eq_bind, Option.bind_some,
    unpack_packstring all_valid packs, Option.bind_eq_bind, Option.bind_some,
    Data.index_of_mem all_valid entry, if_neg (Bool.eq_false_iff.mp (pushData_not_nil _ _ _))]

end

section
variable {address : Bytes} {t : Data} {isTop : Bool} {key : Key}

theorem fetch_missing (split : needSplit t isTop) (missing : key ∉ t.keys) :
    (View.proxy address (pushData realText address t isTop).1).fetch realText dict key =
      some (.plain .nil) := by
  rw [View.fetch, index_pushData split, if_neg missing]
  rfl

theorem fetch_split (split : needSplit t isTop) (mem : key ∈ t.keys)
    (deeper : needSplit (t.index key) false) :
    (View.proxy address (pushData realText address t isTop).1).fetch realText dict key =
      some (.proxy (under realText address key)
        (pushData realText (under realText address key) (t.index key) false).1) := by
  have table := (@pushData_split realText _ _ deeper (under realText address key)).1
  rw [View.fetch, index_pushData split, if_pos mem]
  generalize (pushData realText (under realText address key) (t.index key) false).1 = value at table
  cases value with
  | table array hash => rfl
  | _ => cases table

theorem fetch_piece (split : needSplit t isTop) (mem : key ∈ t.keys)
    (whole : needSplit (t.index key) false = false) {value : Data}
    (stored : Stored dict (under realText address key) value) :
    (View.proxy address (pushData realText address t isTop).1).fetch realText dict key =
      some (asReadonly value) := by
  obtain ⟨bin, found, unpacks⟩ := stored
  rw [View.fetch, index_pushData split, if_pos mem, pushData_pack whole]
  simp [tyPack, Data.truthy, Data.isTable, Data.isPack, found, unpacks]

end

end UEServer.ExcelData
