import UEServer.Schema.ReadField
import UEServer.Schema.RoundTrip

/-!
# Reading a role's fields

`read_db` of a role copies the fields of the live object of a role that is online, and takes
`read_field` for one that is offline.  Both agree exactly on the fields that read alike.
-/

namespace UEServer.Schema

open Lua FieldContainer Assoc

section
variable (texts : Texts) (collection : Collection)

/-- `DB_COPY`, on the values that are tables, with the class of the field. -/
def dbCopy (field : Cls) : Val → Option Val
  | .plain value => some (.plain value)
  | value => field.copy value

/-- The fields of the live object, copied. -/
def Collection.readLive : List String → Obj → (String → Option Val) →
    Option (String → Option Val)
  | [], _, found => some found
  | key :: keys, obj, found =>
      match collection.read texts obj key with
      | (none, obj) => Collection.readLive keys obj (Function.update found key none)
      | (some value, obj) =>
          ((collection.fieldDict texts).lookup key).bind fun field =>
            (dbCopy field value).bind fun value =>
              Collection.readLive keys obj (Function.update found key (some value))

/-- `read_db`: the object is the one of an online role. -/
def Collection.readDb (role : Option Obj) (row : Row) (keys : List String) :
    Option (String → Option Val) :=
  match role with
  | some obj => collection.readLive texts keys obj fun _ => none
  | none => collection.readField texts row keys

end

theorem copy_fromSql (texts : Texts) (field : Field) : ∀ {data v},
    (compile texts field).fromSql data = some v → (compile texts field).copy v = some v := by
  induction field using Field.induct with
  | leaf field notObj notContainer =>
      intro data v _
      cases field with
      | obj id fields hasDefault => exact absurd rfl (notObj _ _ _)
      | container id keyField value hasDefault => exact absurd rfl (notContainer _ _ _ _)
      | _ => rfl
  | object id fields hasDefault members =>
      intro data v converted
      obtain ⟨entries, -, converted⟩ := Option.bind_eq_some_iff.mp converted
      obtain ⟨con, done, rfl⟩ := Option.map_eq_some_iff.mp converted
      have kept : mapFields (compileFields texts fields) Cls.copy con = some con := by
        refine mapFields_self fun entry mem => ?_
        obtain ⟨data, cls, -, found, read⟩ := mem_of_mapFields done mem
        refine ⟨cls, found, ?_⟩
        rw [lookup_compileFields] at found
        obtain ⟨field, declared, rfl⟩ := Option.map_eq_some_iff.mp found
        exact members _ (mem_of_lookup declared) read
      simp [compile, fieldObj, kept]
  | dict id keyField value hasDefault member =>
      intro data v converted
      obtain ⟨entries, -, converted⟩ := Option.bind_eq_some_iff.mp converted
      obtain ⟨con, done, rfl⟩ := Option.map_eq_some_iff.mp converted
      have kept : mapEntries some (compile texts value).copy (assignAll con) =
          some (assignAll con) := by
        refine mapEntries_self fun entry mem => ?_
        obtain ⟨other, data, -, -, read⟩ := mem_of_mapEntries done (mem_of_mem_assignAll mem)
        exact member read
      simp [compile, fieldContainer, kept]

theorem dbCopy_loadedValue {texts : Texts} {field : Field} {cell : Cell} {v : Val}
    (loaded : loadedValue texts (compile texts field) cell = some v) :
    dbCopy (compile texts field) v = some v := by
  have copied : (compile texts field).copy v = some v := by
    rcases loadedValue_table loaded with ⟨data, converted⟩ | made
    · exact copy_fromSql texts field converted
    · cases field with
      | obj id fields hasDefault =>
          simp only [compile, fieldObj] at made
          split at made <;> cases made
          simp [compile, fieldObj, mapFields]
      | container id keyField value hasDefault =>
          simp only [compile, fieldContainer] at made
          split at made <;> cases made
          simp [compile, fieldContainer, mapEntries]
      | _ => rfl
  cases v with
  | plain value => rfl
  | obj cls con => exact copied
  | container cls con => exact copied

section
variable {texts : Texts} {collection : Collection}

theorem Collection.read_of_undeclared {key : String}
    (undeclared : (collection.fieldDict texts).lookup key = none) (obj : Obj) :
    collection.read texts obj key = (none, obj) := by
  rw [Collection.read, undeclared]

theorem Collection.read_con {key : String} {field : Cls}
    (found : (collection.fieldDict texts).lookup key = some field) (obj : Obj) :
    (collection.read texts obj key).2.con = obj.con ∨
      ∃ value, field.makeDefault = some value ∧ obj.con.lookup key = none ∧
        (collection.read texts obj key).2.con = assign obj.con key value := by
  rw [Collection.read, found]
  rcases indexed_con obj.con key field.makeDefault with same | ⟨value, made, absent, same⟩
  · left
    simp only [same]
    split <;> rfl
  · refine .inr ⟨value, made, absent, ?_⟩
    have stored : (Schema.stored obj.con key (some value)).lookup key = some value :=
      lookup_assign obj.con key value
    simp only [same, absent, stored]
    rfl

theorem Collection.read_read (obj : Obj) (key other : String) :
    (collection.read texts (collection.read texts obj key).2 other).1 =
      (collection.read texts obj other).1 := by
  cases declared : (collection.fieldDict texts).lookup key with
  | none => rw [Collection.read_of_undeclared declared]
  | some field =>
      cases found : (collection.fieldDict texts).lookup other with
      | none => rw [Collection.read_of_undeclared found, Collection.read_of_undeclared found]
      | some field' =>
          rw [Collection.read_fst found, Collection.read_fst found, indexed_fst, indexed_fst]
          rcases Collection.read_con declared obj with same | ⟨value, made, absent, same⟩
          · rw [same]
          · rw [same]
            by_cases equal : other = key
            · subst equal
              cases declared.symm.trans found
              rw [lookup_assign, absent, made]
              rfl
            · rw [lookup_assign_of_ne _ _ equal]

theorem Collection.readLive_eq {keys : List String} {obj : Obj} {found : String → Option Val}
    (copies : ∀ key ∈ keys, ∀ field v, (collection.fieldDict texts).lookup key = some field →
      (collection.read texts obj key).1 = some v → dbCopy field v = some v) :
    collection.readLive texts keys obj found =
      some fun key => if key ∈ keys then (collection.read texts obj key).1 else found key := by
  induction keys generalizing obj found with
  | nil => simp [Collection.readLive]
  | cons first keys ih =>
      have rest : ∀ found', collection.readLive texts keys (collection.read texts obj first).2 found' =
          some fun key => if key ∈ keys then (collection.read texts obj key).1 else found' key := by
        intro found'
        rw [ih]
        · simp only [Collection.read_read]
        · intro key mem field v declared read
          rw [Collection.read_read] at read
          exact copies key (List.mem_cons_of_mem _ mem) field v declared read
      have step : collection.readLive texts (first :: keys) obj found =
          collection.readLive texts keys (collection.read texts obj first).2
            (Function.update found first (collection.read texts obj first).1) := by
        rw [Collection.readLive]
        split
        · rename_i obj' read
          rw [read]
        · rename_i value obj' read
          cases declared : (collection.fieldDict texts).lookup first with
          | none =>
              rw [Collection.read_of_undeclared declared] at read
              cases read
          | some field =>
              have copied := copies first List.mem_cons_self field value declared (by rw [read])
              rw [Option.bind_some, copied, Option.bind_some, read]
      rw [step, rest]
      refine congrArg some (funext fun key => ?_)
      by_cases same : key = first
      · subst same
        simp
      · simp [same]

/-- `read_field` gives the values of the object of the row, and `read_db` does not depend on whether
the role is online. -/
def Collection.Agrees (texts : Texts) (collection : Collection) (row : Row) (obj : Obj)
    (selector : List String) : Prop :=
  ∃ data, collection.readField texts row selector = some data ∧
    (∀ key ∈ selector, data key = (collection.read texts obj key).1) ∧
    collection.readDb texts none row selector = collection.readDb texts (some obj) row selector

theorem Collection.lookup_fieldDict {key : String} {field : Field}
    (declared : collection.fields.lookup key = some field) :
    (collection.fieldDict texts).lookup key = some (compile texts field) := by
  rw [Collection.fieldDict, lookup_compileFields, declared, Option.map_some]

theorem Collection.read_loaded {row : Row} {obj : Obj}
    (loaded : collection.fromSql texts row = some obj) {key : String} {field : Field}
    (declared : collection.fields.lookup key = some field) :
    (collection.read texts obj key).1 = loadedValue texts (compile texts field) (row key) := by
  obtain ⟨con, cells, rfl⟩ := Option.map_eq_some_iff.mp loaded
  have found : (collection.fieldDict texts).lookup key = some (compile texts field) :=
    Collection.lookup_fieldDict declared
  rw [Collection.read_fst found, indexed_fst, lookup_readCells cells, found]
  rfl

theorem Collection.readLive_loaded {row : Row} {obj : Obj}
    (loaded : collection.fromSql texts row = some obj) {selector : List String} :
    collection.readDb texts (some obj) row selector =
      some fun key => if key ∈ selector then (collection.read texts obj key).1 else none := by
  refine Collection.readLive_eq fun key _ field v found read => ?_
  rw [Collection.fieldDict, lookup_compileFields] at found
  obtain ⟨field, declared, rfl⟩ := Option.map_eq_some_iff.mp found
  rw [Collection.read_loaded loaded declared] at read
  exact dbCopy_loadedValue read

/-- Reading selected fields of a row agrees with loading it exactly if at least one field is selected
and each of them reads alike. -/
theorem readField_agrees_iff {row : Row} {obj : Obj}
    (loaded : collection.fromSql texts row = some obj) {selector : List String}
    (declared : ∀ key ∈ selector, ∃ field, collection.fields.lookup key = some field) :
    collection.Agrees texts row obj selector ↔
      selector ≠ [] ∧ ∀ key ∈ selector, ∀ field, collection.fields.lookup key = some field →
        ReadsAlike texts (row key) (1 < selector.count key) field := by
  have alike : ∀ key ∈ selector, ∀ field, collection.fields.lookup key = some field →
      (AlikeAfter texts (compile texts field) (row key) (selector.count key) ↔
        ReadsAlike texts (row key) (1 < selector.count key) field) := by
    intro key mem field found
    obtain ⟨n, count⟩ := Nat.exists_eq_succ_of_ne_zero (List.count_pos_iff.mpr mem).ne'
    obtain ⟨con, cells, -⟩ := Option.map_eq_some_iff.mp loaded
    have cls : (key, compile texts field) ∈ collection.fieldDict texts :=
      mem_of_lookup (Collection.lookup_fieldDict found)
    have loads := fun present => @readCell_of_readCells texts row _ _ cells _ cls present
    rw [count, Nat.succ_eq_add_one, alikeAfter_iff field loads n]
    simp
  constructor
  · rintro ⟨data, read, same, -⟩
    rw [Collection.readField] at read
    split at read
    · cases read
    · rename_i nonempty
      refine ⟨nonempty, fun key mem field found => (alike key mem field found).mp ?_⟩
      obtain ⟨out, visited, rfl⟩ := Option.map_eq_some_iff.mp read
      have visits := (visitAll_eq_some visited key).1 _ (Collection.lookup_fieldDict found)
      rw [if_pos mem] at visits
      exact ⟨out key, visits, (same key mem).trans (Collection.read_loaded loaded found)⟩
  · rintro ⟨nonempty, each⟩
    obtain ⟨out, visited⟩ : ∃ out, visitAll texts (collection.fieldDict texts) selector
        (fun key => if key ∈ selector then (row key).present?.map .raw else none) = some out := by
      refine exists_visitAll fun key mem => ?_
      obtain ⟨field, found⟩ := declared key mem
      obtain ⟨slot, visits, -⟩ := (alike key mem field found).mpr (each key mem field found)
      exact ⟨_, Collection.lookup_fieldDict found, slot, by rw [if_pos mem]; exact visits⟩
    have read : collection.readField texts row selector =
        some fun key => (out key).bind Slot.value? := by
      rw [Collection.readField, if_neg nonempty, visited, Option.map_some]
    have same : ∀ key ∈ selector,
        (out key).bind Slot.value? = (collection.read texts obj key).1 := by
      intro key mem
      obtain ⟨field, found⟩ := declared key mem
      obtain ⟨slot, visits, equal⟩ := (alike key mem field found).mpr (each key mem field found)
      have visits' := (visitAll_eq_some visited key).1 _ (Collection.lookup_fieldDict found)
      rw [if_pos mem] at visits'
      cases visits.symm.trans visits'
      rw [equal, Collection.read_loaded loaded found]
    refine ⟨_, read, same, ?_⟩
    rw [Collection.readLive_loaded loaded]
    refine read.trans (congrArg some (funext fun key => ?_))
    by_cases mem : key ∈ selector
    · rw [if_pos mem, same key mem]
    · rw [if_neg mem, (visitAll_eq_some visited key).2 mem, if_neg mem, Option.bind_none]

end

/-- A row with a number in the untyped column, and `NULL` in the others. -/
def memoRow : Row := rowOf [("uuid", .str "u"), ("memo", .text (.int 5))]

theorem readField_agrees_iff_memoRow :
    heroCollection.Agrees decimal memoRow
      { con := [("uuid", .plain (.str "u")), ("memo", .plain (.int 5))], del := [] }
      ["uuid", "memo", "online", "memo"] := by
  refine (readField_agrees_iff rfl ?_).mpr ⟨by simp, ?_⟩
  · intro key mem
    simp only [List.mem_cons, List.not_mem_nil, or_false] at mem
    rcases mem with rfl | rfl | rfl | rfl <;> exact ⟨_, rfl⟩
  · intro key mem field declared
    simp only [List.mem_cons, List.not_mem_nil, or_false] at mem
    have memo : ReadsAlike decimal (memoRow "memo") (1 < 2) (.any none) := by
      refine fun _ => ⟨fun null => (by cases null), fun data decoded => ?_⟩
      obtain rfl : Value.int 5 = data := Option.some.inj decoded
      trivial
    rcases mem with rfl | rfl | rfl | rfl <;> cases declared
    · trivial
    · exact memo
    · exact (rfl : memoRow "online" = .null)
    · exact memo

def onlineRow : Row := rowOf [("uuid", .str "u"), ("online", .int 0)]

/-- `read_field` gives the number 0 for a boolean that is false. -/
theorem onlineRow_not_agrees :
    ¬ ∀ {texts : Texts} {collection : Collection} {row : Row} {obj : Obj},
      collection.fromSql texts row = some obj → ∀ {selector : List String},
        (∀ key ∈ selector, ∃ field, collection.fields.lookup key = some field) →
          collection.Agrees texts row obj selector := by
  intro agrees
  have loaded : heroCollection.fromSql decimal onlineRow =
      some { con := [("uuid", .plain (.str "u")), ("online", .plain (.bool false))], del := [] } :=
    rfl
  have declared : ∀ key ∈ ["online"], ∃ field, heroCollection.fields.lookup key = some field := by
    intro key mem
    cases List.mem_singleton.mp mem
    exact ⟨_, rfl⟩
  obtain ⟨data, read, same, -⟩ := agrees loaded declared
  cases read
  have number : some (Val.plain (.int 0)) = some (.plain (.bool false)) :=
    same "online" (List.mem_singleton.mpr rfl)
  cases number

end UEServer.Schema
