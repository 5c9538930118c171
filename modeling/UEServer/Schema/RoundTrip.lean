import UEServer.Schema.Reachable

/-!
# The round trip through SQL

What `to_sql` writes, `from_sql` reads back as an object with equal reads, if the value of each field
is one that its column can hold.
-/

namespace UEServer.Schema

open Lua FieldContainer Assoc

def keySurvives (texts : Texts) (keyField : KeyField) (key : Key) : Prop :=
  useNumKey keyField = true → texts.tonumber (texts.tostring key) = some key

mutual

/-- JSON can hold the value: what is not typed has the shape of JSON, numbers are finite, an `INT` is
no boolean, and numbers that are keys are written with all their digits. -/
def Storable (texts : Texts) : Field → Val → Prop
  | .any _, v => ∃ data, v = .plain data ∧ JsonShaped data
  | .int _, v => v ≠ .plain (.bool false)
  | .num _, v => v ≠ .plain .nan ∧ ∀ negative, v ≠ .plain (.inf negative)
  | .bool _, _ => True
  | .str _, _ => True
  | .obj id fields _, v => ∀ con, v = .obj id con →
      ∀ member ∈ con, StorableMember texts fields member.1 member.2
  | .container id keyField value _, v => ∀ con, v = .container id con →
      ∀ member ∈ con, keySurvives texts keyField member.1 ∧ Storable texts value member.2

/-- JSON can hold the value of the field of this name. -/
def StorableMember (texts : Texts) : List (String × Field) → String → Val → Prop
  | [], _, _ => True
  | (name, field) :: fields, key, v =>
      if key = name then Storable texts field v else StorableMember texts fields key v

end

/-- A plain column can hold the value: a string is not the one that stands for `NULL`, and a float is
written with all its digits. -/
def ColumnStorable (texts : Texts) (field : Field) (v : Val) : Prop :=
  (compile texts field).isPlain = true →
    v ≠ .plain (.str sqlNull) ∧ ∀ value, v = .plain (.flt value) →
      texts.tonumber (texts.tostring (.flt value)) = some (.flt value)

/-- The columns of a collection can hold the values of the object. -/
def Collection.Storable (texts : Texts) (collection : Collection) (obj : Obj) : Prop :=
  ∀ name field v, collection.fields.lookup name = some field → obj.con.lookup name = some v →
    Schema.Storable texts field v ∧ ColumnStorable texts field v

mutual

/-- Two values of a field are equal to their readers: the fields of objects read equal, and
containers have the same keys with equal values. -/
def Same (texts : Texts) : Field → Val → Val → Prop
  | .any _, v, w | .int _, v, w | .num _, v, w | .bool _, v, w | .str _, v, w => v = w
  | .obj id fields _, v, w => ∃ con con', v = .obj id con ∧ w = .obj id con' ∧
      SameFields texts fields con con'
  | .container id _ value _, v, w => ∃ con con', v = .container id con ∧ w = .container id con' ∧
      ∀ key, Option.Rel (Same texts value) (con.lookup key) (con'.lookup key)

/-- The fields of two objects read equal. -/
def SameFields (texts : Texts) :
    List (String × Field) → List (String × Val) → List (String × Val) → Prop
  | [], _, _ => True
  | (name, field) :: fields, con, con' =>
      Option.Rel (Same texts field) (indexed con name (compile texts field).makeDefault).1
          (indexed con' name (compile texts field).makeDefault).1 ∧
        SameFields texts fields con con'

end

theorem storableMember_iff {texts : Texts} {fields : List (String × Field)} {name : String}
    {v : Val} : StorableMember texts fields name v ↔
      ∀ field, fields.lookup name = some field → Storable texts field v := by
  induction fields with
  | nil => simp [StorableMember]
  | cons member fields ih =>
      obtain ⟨other, field⟩ := member
      rw [StorableMember, List.lookup_cons]
      by_cases same : name = other
      · simp [same]
      · rw [if_neg same, beq_false_of_ne same]
        exact ih

theorem indexed_fst {κ : Type*} [DecidableEq κ] (con : List (κ × Val)) (key : κ)
    (defaultValue : Option Val) :
    (indexed con key defaultValue).1 = (con.lookup key).or defaultValue := by
  cases found : con.lookup key <;> cases defaultValue <;> simp [indexed, found]

theorem rel_indexed {κ : Type*} [DecidableEq κ] {R : Val → Val → Prop} {con con' : List (κ × Val)}
    {key : κ} {defaultValue : Option Val}
    (related : Option.Rel R (con.lookup key) (con'.lookup key))
    (refl : ∀ value, defaultValue = some value → R value value) :
    Option.Rel R (indexed con key defaultValue).1 (indexed con' key defaultValue).1 := by
  rw [indexed_fst, indexed_fst]
  generalize con.lookup key = v, con'.lookup key = w at related ⊢
  cases related with
  | some related => exact .some related
  | none =>
      cases defaultValue with
      | none => exact .none
      | some value => exact .some (refl value rfl)

theorem lookup_rel_of_forall₂ {κ : Type*} [DecidableEq κ] {R : Val → Val → Prop}
    {con con' : List (κ × Val)}
    (related : List.Forall₂ (fun entry entry' => entry.1 = entry'.1 ∧ R entry.2 entry'.2) con con')
    (key : κ) : Option.Rel R (con.lookup key) (con'.lookup key) := by
  induction related with
  | nil => exact .none
  | @cons entry entry' con con' first _ ih =>
      obtain ⟨same_key, same⟩ := first
      rw [List.lookup_cons, List.lookup_cons, ← same_key]
      cases key == entry.1 with
      | true => exact .some same
      | false => exact ih

/-- Objects whose declared fields have equal values, or none both, read equal: their defaults are
the same. -/
theorem sameFields_of_lookup {texts : Texts} {fields : List (String × Field)}
    (wellFormed : WellFormedFields fields)
    (refl : ∀ member ∈ fields, ∀ {v}, Typed member.2 v → Same texts member.2 v v)
    {con con' : List (String × Val)}
    (same : ∀ member ∈ fields,
      Option.Rel (Same texts member.2) (con.lookup member.1) (con'.lookup member.1)) :
    SameFields texts fields con con' := by
  induction fields with
  | nil => trivial
  | cons member fields ih =>
      refine ⟨rel_indexed (same member List.mem_cons_self) fun value made => ?_, ?_⟩
      · exact refl member List.mem_cons_self (makeDefault_typed texts wellFormed.1 made)
      · exact ih wellFormed.2 (fun other mem => refl other (List.mem_cons_of_mem _ mem))
          fun other mem => same other (List.mem_cons_of_mem _ mem)

section
variable (texts : Texts)

theorem Same.refl (field : Field) :
    field.WellFormed → ∀ {v}, Typed field v → Same texts field v v := by
  induction field using Field.induct with
  | leaf field notObj notContainer =>
      intro _ v _
      cases field with
      | obj id fields hasDefault => exact absurd rfl (notObj _ _ _)
      | container id keyField value hasDefault => exact absurd rfl (notContainer _ _ _ _)
      | _ => exact rfl
  | object id fields hasDefault members =>
      rintro ⟨nodup, wellFormed⟩ v ⟨con, rfl, -, typed⟩
      have refl : ∀ member ∈ fields, ∀ {v}, Typed member.2 v → Same texts member.2 v v :=
        fun member mem => members member mem (wellFormed_of_mem wellFormed mem)
      refine ⟨con, con, rfl, rfl, sameFields_of_lookup wellFormed refl fun member mem => ?_⟩
      cases found : con.lookup member.1 with
      | none => exact .none
      | some w =>
          obtain ⟨field, declared, typed_w⟩ := typedMember_iff.mp (typed _ (mem_of_lookup found))
          cases (lookup_of_mem nodup mem).symm.trans declared
          exact .some (refl member mem typed_w)
  | dict id keyField value hasDefault member =>
      rintro wellFormed v ⟨con, rfl, -, -, typed⟩
      refine ⟨con, con, rfl, rfl, fun key => ?_⟩
      cases found : con.lookup key with
      | none => exact .none
      | some w => exact .some (member wellFormed (typed _ (mem_of_lookup found)))

/-- The value is written as a value that JSON can hold, and is read back equal. -/
def RoundTrips (texts : Texts) (field : Field) (v : Val) : Prop :=
  ∃ data w, (compile texts field).toSql v = some data ∧ JsonShaped data ∧
    (compile texts field).fromSql data = some w ∧ Same texts field v w

theorem roundTrips_leaf {field : Field}
    (notObj : ∀ id fields hasDefault, field ≠ .obj id fields hasDefault)
    (notContainer : ∀ id keyField value hasDefault, field ≠ .container id keyField value hasDefault)
    {v : Val} (typed : Typed field v) (storable : Storable texts field v) :
    RoundTrips texts field v := by
  cases field with
  | any defaultValue =>
      obtain ⟨data, rfl, shaped⟩ := storable
      exact ⟨data, .plain data, rfl, shaped, rfl, rfl⟩
  | int defaultValue =>
      obtain ⟨data, rfl, accepted⟩ := typed
      cases data with
      | int value => exact ⟨.int value, .plain (.int value), rfl, .int value, rfl, rfl⟩
      | bool value =>
          cases value with
          | true => cases accepted
          | false => exact absurd rfl storable
      | _ => cases accepted
  | num defaultValue =>
      obtain ⟨data, rfl, accepted⟩ := typed
      cases data with
      | int value => exact ⟨.int value, .plain (.int value), rfl, .int value, rfl, rfl⟩
      | flt value => exact ⟨.flt value, .plain (.flt value), rfl, .flt value, rfl, rfl⟩
      | nan => exact absurd rfl storable.1
      | inf negative => exact absurd rfl (storable.2 negative)
      | _ => cases accepted
  | bool defaultValue =>
      obtain ⟨data, rfl, accepted⟩ := typed
      cases data with
      | bool value =>
          cases value with
          | true => exact ⟨.int 1, .plain (.bool true), rfl, .int 1, rfl, rfl⟩
          | false => exact ⟨.int 0, .plain (.bool false), rfl, .int 0, rfl, rfl⟩
      | _ => cases accepted
  | str defaultValue =>
      obtain ⟨data, rfl, accepted⟩ := typed
      cases data with
      | str value => exact ⟨.str value, .plain (.str value), rfl, .str value, rfl, rfl⟩
      | _ => cases accepted
  | obj id fields hasDefault => exact absurd rfl (notObj _ _ _)
  | container id keyField value hasDefault => exact absurd rfl (notContainer _ _ _ _)

theorem sqlEntries_ofEntries (entries : List (Key × Value)) :
    sqlEntries texts (.ofEntries entries) = some entries := by
  cases entries <;> rfl

theorem named_strings {α : Type*} (entries : List (String × α)) :
    named (entries.map fun entry => (Key.str entry.1, entry.2)) = entries := by
  induction entries with
  | nil => rfl
  | cons entry entries ih =>
      simp only [named, List.map_cons, List.filterMap_cons] at ih ⊢
      rw [ih]

theorem roundTrips_obj {id : Nat} {fields : List (String × Field)} {hasDefault : Bool}
    (wellFormed : (Field.obj id fields hasDefault).WellFormed) {con : List (String × Val)}
    (members : ∀ name field v, fields.lookup name = some field → (name, v) ∈ con → RoundTrips texts field v)
    :
    RoundTrips texts (.obj id fields hasDefault) (.obj id con) := by
  have member : ∀ {name cls v}, (compileFields texts fields).lookup name = some cls →
      (name, v) ∈ con → ∃ field, fields.lookup name = some field ∧ cls = compile texts field ∧
        RoundTrips texts field v := by
    intro name cls v found mem
    rw [lookup_compileFields] at found
    obtain ⟨field, declared, rfl⟩ := Option.map_eq_some_iff.mp found
    exact ⟨field, declared, rfl, members name field v declared mem⟩
  obtain ⟨entries, written⟩ : ∃ entries,
      mapFields (compileFields texts fields) Cls.toSql con = some entries := by
    refine exists_mapFields fun entry mem cls found => ?_
    obtain ⟨field, -, rfl, data, w, to_sql, -⟩ := member found mem
    exact ⟨data, to_sql⟩
  have shaped : ∀ entry ∈ entries, JsonShaped entry.2 := by
    rintro ⟨name, data⟩ mem
    obtain ⟨v, cls, v_mem, found, converted⟩ := mem_of_mapFields written mem
    obtain ⟨field, -, rfl, data', w, to_sql, shaped, -⟩ := member found v_mem
    cases converted.symm.trans to_sql
    exact shaped
  obtain ⟨con', loaded⟩ : ∃ con',
      mapFields (compileFields texts fields) Cls.fromSql entries = some con' := by
    refine exists_mapFields fun entry mem cls' found' => ?_
    obtain ⟨v, cls, v_mem, found, converted⟩ := mem_of_mapFields written mem
    cases found.symm.trans found'
    obtain ⟨field, -, rfl, data', w, to_sql, -, from_sql, -⟩ := member found v_mem
    cases converted.symm.trans to_sql
    exact ⟨w, from_sql⟩
  refine ⟨.ofEntries (entries.map fun entry => (.str entry.1, entry.2)), .obj id con', ?_, ?_, ?_,
    con, con', rfl, rfl, ?_⟩
  · simp [compile, fieldObj, written]
  · refine .ofEntries (fun entry mem => ?_) fun entry mem => ?_
    · obtain ⟨entry, -, rfl⟩ := List.mem_map.mp mem
      exact ⟨entry.1, rfl⟩
    · obtain ⟨entry, entry_mem, rfl⟩ := List.mem_map.mp mem
      exact shaped entry entry_mem
  · simp only [compile, fieldObj, sqlEntries_ofEntries, Option.bind_some, named_strings, loaded,
      Option.map_some]
  · have refl : ∀ member ∈ fields, ∀ {v}, Typed member.2 v → Same texts member.2 v v :=
      fun member mem => Same.refl texts member.2 (wellFormed_of_mem wellFormed.2 mem)
    refine sameFields_of_lookup wellFormed.2 refl fun declared mem => ?_
    have found := lookup_of_mem wellFormed.1 mem
    rw [lookup_mapFields loaded, lookup_mapFields written, lookup_compileFields, found]
    cases present : con.lookup declared.1 with
    | none => exact .none
    | some v =>
        obtain ⟨data, w, to_sql, -, from_sql, same⟩ := members _ _ v found (mem_of_lookup present)
        simp only [Option.map_some, Option.bind_some, to_sql, from_sql]
        exact .some same

theorem keyFromSql_keyToSql {texts : Texts} {keyField : KeyField} {key : Key}
    (survives : keySurvives texts keyField key) :
    keyFromSql texts keyField (keyToSql texts keyField key) = some key := by
  cases numeric : useNumKey keyField with
  | false => simp [keyFromSql, keyToSql, numeric]
  | true => simpa [keyFromSql, keyToSql, numeric, keyToNumber] using survives numeric

theorem keyToSql_str {texts : Texts} {keyField : KeyField} {key : Key}
    (typed : storedKey keyField key) : ∃ name, keyToSql texts keyField key = .str name := by
  cases keyField with
  | int => exact ⟨texts.tostring key, rfl⟩
  | num => exact ⟨texts.tostring key, rfl⟩
  | str =>
      cases key with
      | str name => exact ⟨name, rfl⟩
      | bool value => cases value <;> cases typed
      | _ => cases typed

theorem forall₂_keys {R : Val → Val → Prop} {con con' : List (Key × Val)}
    (related : List.Forall₂ (fun entry entry' => entry.1 = entry'.1 ∧ R entry.2 entry'.2)
      con con') : con'.map Prod.fst = con.map Prod.fst := by
  induction related with
  | nil => rfl
  | cons first _ ih => rw [List.map_cons, List.map_cons, ih, first.1]

/-- A container whose values all make the round trip, under keys that survive it, makes it. -/
theorem roundTrips_container {id : Nat} {keyField : KeyField} {field : Field} {hasDefault : Bool}
    {con : List (Key × Val)} (typed : TypedEntries keyField field con)
    (keys : ∀ member ∈ con, keySurvives texts keyField member.1)
    (members : ∀ member ∈ con, RoundTrips texts field member.2) :
    RoundTrips texts (.container id keyField field hasDefault) (.container id con) := by
  obtain ⟨entries, con', written, shaped, loaded, related⟩ :=
    @mapEntries_inverse Val Value Val (fun key => some (keyToSql texts keyField key))
      (keyFromSql texts keyField) (compile texts field).toSql (compile texts field).fromSql
      (fun entry => (∃ name, entry.1 = .str name) ∧ JsonShaped entry.2) (Same texts field) con
      (by
        intro member mem
        obtain ⟨data, w, to_sql, shaped, from_sql, same⟩ := members member mem
        exact ⟨_, data, w, rfl, to_sql, ⟨keyToSql_str (typed.2.1 member mem), shaped⟩,
          keyFromSql_keyToSql (keys member mem), from_sql, same⟩)
  have nodup' : (con'.map Prod.fst).Nodup := forall₂_keys related ▸ typed.1
  have nodup := nodup_of_mapEntries loaded nodup'
  refine ⟨.ofEntries entries, .container id con', ?_, ?_, ?_, con, con', rfl, rfl, ?_⟩
  · simp [compile, fieldContainer, written, assignAll_of_nodup nodup]
  · exact .ofEntries (fun entry mem => (shaped entry mem).1) fun entry mem => (shaped entry mem).2
  · simp only [compile, fieldContainer, sqlEntries_ofEntries, Option.bind_some, loaded,
      Option.map_some, assignAll_of_nodup nodup']
  · exact lookup_rel_of_forall₂ related

theorem roundTrips (field : Field) :
    field.WellFormed → ∀ {v}, Typed field v → Storable texts field v → RoundTrips texts field v := by
  induction field using Field.induct with
  | leaf field notObj notContainer =>
      intro _ v typed storable
      exact roundTrips_leaf texts notObj notContainer typed storable
  | object id fields hasDefault members =>
      rintro wellFormed v ⟨con, rfl, typed⟩ storable
      refine roundTrips_obj texts wellFormed fun name field v declared mem => ?_
      obtain ⟨field', declared', typed_v⟩ := typedMember_iff.mp (typed.2 (name, v) mem)
      cases declared.symm.trans declared'
      exact members (name, field) (mem_of_lookup declared)
        (wellFormed_of_mem wellFormed.2 (mem_of_lookup declared)) typed_v
        (storableMember_iff.mp (storable con rfl (name, v) mem) field declared)
  | dict id keyField value hasDefault member =>
      rintro wellFormed v ⟨con, rfl, typed⟩ storable
      refine roundTrips_container texts typed (fun entry mem => ?_) fun entry mem => ?_
      · exact (storable con rfl entry mem).1
      · exact member wellFormed (typed.2.2 entry mem) (storable con rfl entry mem).2

/-- What a plain column gives back as it was. -/
def ColumnValue (texts : Texts) (data : Value) : Prop :=
  (∃ value, data = .int value) ∨
    (∃ value, data = .flt value ∧ texts.tonumber (texts.tostring (.flt value)) =
      some (.flt value)) ∨
    ∃ text, data = .str text ∧ text ≠ sqlNull

theorem ColumnValue.survives {texts : Texts} {data : Value} (held : ColumnValue texts data) :
    ∃ cell, convertValue texts data = some cell ∧ cell.present? = some cell ∧
      cell.value? = some data := by
  rcases held with ⟨value, rfl⟩ | ⟨value, rfl, survives⟩ | ⟨text, rfl, different⟩
  · exact ⟨.int value,
      by simp [convertValue, throughText, texts.tonumber_tostring, Cell.ofNumber?], rfl, rfl⟩
  · exact ⟨.flt value, by simp [convertValue, throughText, survives, Cell.ofNumber?], rfl, rfl⟩
  · exact ⟨.str text, by simp [convertValue, different], rfl, rfl⟩

/-- The values of plain fields are written as values that a column gives back. -/
theorem columnValue_of_plain {field : Field} (plain : (compile texts field).isPlain = true)
    {v : Val} (typed : Typed field v) (storable : Storable texts field v)
    (column : ColumnStorable texts field v) {data : Value}
    (written : (compile texts field).toSql v = some data) : ColumnValue texts data := by
  obtain ⟨notNull, survives⟩ := column plain
  cases field with
  | any defaultValue => cases plain
  | int defaultValue =>
      obtain ⟨data, rfl, accepted⟩ := typed
      cases written
      cases data with
      | int value => exact .inl ⟨value, rfl⟩
      | bool value =>
          cases value with
          | true => cases accepted
          | false => exact absurd rfl storable
      | _ => cases accepted
  | num defaultValue =>
      obtain ⟨data, rfl, accepted⟩ := typed
      cases written
      cases data with
      | int value => exact .inl ⟨value, rfl⟩
      | flt value => exact .inr (.inl ⟨value, rfl, survives value rfl⟩)
      | nan => exact absurd rfl storable.1
      | inf negative => exact absurd rfl (storable.2 negative)
      | _ => cases accepted
  | bool defaultValue =>
      obtain ⟨data, rfl, -⟩ := typed
      cases written
      left
      unfold boolToSql
      split
      · exact ⟨0, rfl⟩
      · exact ⟨1, rfl⟩
  | str defaultValue =>
      obtain ⟨data, rfl, accepted⟩ := typed
      cases written
      cases data with
      | str value =>
          exact .inr (.inr ⟨value, rfl, fun same => notNull (congrArg (Val.plain ∘ .str) same)⟩)
      | _ => cases accepted
  | obj id fields hasDefault => cases plain
  | container id keyField value hasDefault => cases plain

theorem column_roundTrips {field : Field} (wellFormed : field.WellFormed) {v : Val}
    (typed : Typed field v) (storable : Storable texts field v)
    (column : ColumnStorable texts field v) :
    ∃ cell w, ((compile texts field).toSql v).bind (writeCell texts (compile texts field)) =
        some cell ∧ cell.present? = some cell ∧ readCell texts (compile texts field) cell = some w ∧
      Same texts field v w := by
  obtain ⟨data, w, to_sql, shaped, from_sql, same⟩ := roundTrips texts field wellFormed typed storable
  cases plain : (compile texts field).isPlain with
  | false =>
      obtain ⟨json, encoded, decoded⟩ := shaped.survives texts
      refine ⟨.text json, w, ?_, rfl, ?_, same⟩
      · simp [to_sql, writeCell, plain, encoded]
      · simp [readCell, plain, Cell.decode?, decoded, from_sql]
  | true =>
      obtain ⟨cell, converted, present, read⟩ :=
        (columnValue_of_plain texts plain typed storable column to_sql).survives
      refine ⟨cell, w, ?_, present, ?_, same⟩
      · simp [to_sql, writeCell, plain, converted]
      · simp [readCell, plain, read, from_sql]

end

/-- The row that `to_sql` writes has a column for each value, and `NULL` in the others. -/
theorem rowOf_toSql {texts : Texts} {collection : Collection} {obj : Obj}
    (typed : collection.TypedObj obj) {columns : List (String × Cell)}
    (written : collection.toSql texts obj = some columns) {name : String} {field : Field}
    (declared : collection.fields.lookup name = some field) :
    rowOf columns name = ((obj.con.lookup name).bind fun v =>
      ((compile texts field).toSql v).bind (writeCell texts (compile texts field))).getD .null := by
  obtain ⟨columns, converted, rfl⟩ := Option.map_eq_some_iff.mp written
  have kept : columns.filter (fun column => column.1 ∉ obj.del) = columns := by
    refine List.filter_eq_self.mpr fun column mem => ?_
    obtain ⟨v, -, v_mem, -⟩ := mem_of_mapFields converted mem
    exact decide_eq_true fun deleted => typed.del _ deleted _ v_mem rfl
  have deleted : ∀ cell, (obj.del.map fun name => (name, Cell.null)).lookup name = some cell →
      cell = .null := by
    intro cell found
    obtain ⟨other, -, same⟩ := List.mem_map.mp (mem_of_lookup found)
    exact (Prod.mk.inj same).2.symm
  rw [rowOf, kept, List.lookup_append, lookup_mapFields converted, Collection.fieldDict,
    lookup_compileFields, declared]
  simp only [Option.map_some, Option.bind_some]
  cases ((obj.con.lookup name).bind fun v =>
    ((compile texts field).toSql v).bind (writeCell texts (compile texts field))) with
  | some cell => rfl
  | none =>
      cases found : (obj.del.map fun name => (name, Cell.null)).lookup name with
      | none => rfl
      | some cell => rw [deleted cell found]; rfl

theorem Collection.read_fst {texts : Texts} {collection : Collection} {obj : Obj} {name : String}
    {field : Cls} (found : (collection.fieldDict texts).lookup name = some field) :
    (collection.read texts obj name).1 = (indexed obj.con name field.makeDefault).1 := by
  rw [Collection.read, found]
  simp only
  split <;> rfl

/-- The columns of a collection that can hold the values of a reachable object. -/
theorem Collection.Storable.column {texts : Texts} {collection : Collection} {obj : Obj}
    (storable : collection.Storable texts obj) (typed : collection.TypedObj obj) {name : String}
    {field : Field} {v : Val} (declared : collection.fields.lookup name = some field)
    (found : obj.con.lookup name = some v) :
    ∃ cell w, ((compile texts field).toSql v).bind (writeCell texts (compile texts field)) =
        some cell ∧ cell.present? = some cell ∧ readCell texts (compile texts field) cell = some w ∧
      Same texts field v w := by
  obtain ⟨other, same, typed_v⟩ := typedMember_iff.mp (typed.con.2 _ (mem_of_lookup found))
  cases declared.symm.trans same
  have wellFormed := wellFormed_of_mem collection.wellFormed (mem_of_lookup declared)
  obtain ⟨storable_v, column⟩ := storable name field v declared found
  exact column_roundTrips texts wellFormed typed_v storable_v column

theorem Collection.Storable.exists_toSql {texts : Texts} {collection : Collection} {obj : Obj}
    (storable : collection.Storable texts obj) (typed : collection.TypedObj obj) :
    ∃ columns, collection.toSql texts obj = some columns := by
  have converted : ∃ columns, mapFields (collection.fieldDict texts)
      (fun field value => (field.toSql value).bind (writeCell texts field)) obj.con =
        some columns := by
    refine exists_mapFields fun entry mem cls found => ?_
    rw [Collection.fieldDict, lookup_compileFields] at found
    obtain ⟨field, declared, rfl⟩ := Option.map_eq_some_iff.mp found
    obtain ⟨cell, w, written, -⟩ :=
      storable.column typed declared (lookup_of_mem typed.con.1 mem)
    exact ⟨cell, written⟩
  obtain ⟨columns, converted⟩ := converted
  exact ⟨_, congrArg _ converted⟩

/-- What is written for a reachable object is read back as an object that reads equal: every value is
as it was, and a field that was deleted reads as its default. -/
theorem collection_roundTrips {texts : Texts} {collection : Collection} {obj : Obj}
    (reachable : Reachable texts collection obj) (storable : collection.Storable texts obj) :
    ∃ columns loaded, collection.toSql texts obj = some columns ∧
      collection.fromSql texts (rowOf columns) = some loaded ∧
      ∀ name field, collection.fields.lookup name = some field →
        Option.Rel (Same texts field) (collection.read texts obj name).1
          (collection.read texts loaded name).1 := by
  have typed := reachable.typed
  obtain ⟨columns, written⟩ := storable.exists_toSql typed
  have absent : ∀ name field, collection.fields.lookup name = some field →
      obj.con.lookup name = none → (rowOf columns name).present? = none := by
    intro name field declared none_found
    rw [rowOf_toSql typed written declared, none_found]
    rfl
  have held : ∀ name field v, collection.fields.lookup name = some field →
      obj.con.lookup name = some v → ∃ cell w, (rowOf columns name).present? = some cell ∧
        readCell texts (compile texts field) cell = some w ∧ Same texts field v w := by
    intro name field v declared found
    obtain ⟨cell, w, cell_written, present, read, same⟩ := storable.column typed declared found
    refine ⟨cell, w, ?_, read, same⟩
    rw [rowOf_toSql typed written declared, found, Option.bind_some, cell_written]
    exact present
  obtain ⟨con, loaded⟩ : ∃ con,
      readCells texts (rowOf columns) (collection.fieldDict texts) = some con := by
    refine exists_readCells fun member mem cell present => ?_
    obtain ⟨field, field_mem, same_cls⟩ := mem_compileFields mem
    have declared := lookup_of_mem collection.nodup field_mem
    rw [same_cls]
    cases found : obj.con.lookup member.1 with
    | none => cases (absent _ _ declared found).symm.trans present
    | some v =>
        obtain ⟨cell', w, present', read, -⟩ := held _ _ v declared found
        cases present'.symm.trans present
        exact ⟨w, read⟩
  refine ⟨columns, { con, del := [] }, written, by simp [Collection.fromSql, loaded], ?_⟩
  intro name field declared
  have found : (collection.fieldDict texts).lookup name = some (compile texts field) := by
    rw [Collection.fieldDict, lookup_compileFields, declared, Option.map_some]
  rw [Collection.read_fst found, Collection.read_fst found]
  refine rel_indexed ?_ fun value made => ?_
  · rw [lookup_readCells loaded, found]
    cases present : obj.con.lookup name with
    | none => simp [absent name field declared present]
    | some v =>
        obtain ⟨cell, w, cell_present, read, same⟩ := held name field v declared present
        simp only [Option.bind_some, cell_present, read]
        exact .some same
  · have wellFormed := wellFormed_of_mem collection.wellFormed (mem_of_lookup declared)
    exact Same.refl texts field wellFormed (makeDefault_typed texts wellFormed made)

/-- A collection with a dictionary and an untyped field. -/
def heroCollection : Collection where
  primary := "uuid"
  fields := [("uuid", .str none), ("memo", .any none), ("online", .bool none),
    ("bag", .container 1 .int (.int none) true)]
  nodup := by decide
  wellFormed := by simp [WellFormedFields, Field.WellFormed]

def newHero : Obj where
  con := [("uuid", .plain (.str "u"))]
  del := []

theorem newHero_reachable : Reachable decimal heroCollection newHero := by
  have made : heroCollection.newObj decimal (.str "u") = some newHero := rfl
  exact .newObj made

/-- A boolean is set, and the dictionary, which the read makes, gets an entry. -/
def bagHero : Obj where
  con := [("uuid", .plain (.str "u")), ("online", .plain (.bool true)),
    ("bag", .container 1 [(.int 5, .plain (.int 7))])]
  del := []

theorem bagHero_reachable : Reachable decimal heroCollection bagHero := by
  have online : heroCollection.write decimal newHero "online" (some (.plain (.bool true))) =
      some { con := newHero.con ++ [("online", .plain (.bool true))], del := [] } := rfl
  have written := Reachable.write newHero_reachable
    (fun v _ given _ => .inl ⟨_, (Option.some.inj given).symm⟩) online
  have added : dictNewIndex .int (compile decimal (.int none)) [] (.int 5)
      (some (.plain (.int 7))) = some [(.int 5, .plain (.int 7))] := rfl
  have opened : Reachable decimal heroCollection (heroCollection.read decimal _ "bag").2 :=
    written.read
  have declared : heroCollection.fields.lookup "bag" =
      some (.container 1 .int (.int none) true) := rfl
  exact opened.inside declared rfl
    (.dictNewIndex (fun v given => .inl ⟨_, (Option.some.inj given).symm⟩) added)

theorem bagHero_storable : heroCollection.Storable decimal bagHero := by
  intro name field v declared found
  have mem := mem_of_lookup found
  simp only [bagHero, List.mem_cons, Prod.mk.injEq, List.not_mem_nil, or_false] at mem
  rcases mem with ⟨rfl, rfl⟩ | ⟨rfl, rfl⟩ | ⟨rfl, rfl⟩
  · obtain rfl : Field.str none = field := Option.some.inj declared
    exact ⟨trivial, fun _ => ⟨by simp [sqlNull], fun _ float => by cases float⟩⟩
  · obtain rfl : Field.bool none = field := Option.some.inj declared
    exact ⟨trivial, fun _ => ⟨by simp, fun _ float => by cases float⟩⟩
  · obtain rfl : Field.container 1 .int (.int none) true = field := Option.some.inj declared
    refine ⟨?_, fun plain => by cases plain⟩
    rintro con ⟨⟩ member mem
    cases List.mem_singleton.mp mem
    exact ⟨fun _ => decimal.tonumber_tostring 5, fun same => by cases same⟩

theorem collection_roundTrips_bagHero :
    ∃ columns loaded, heroCollection.toSql decimal bagHero = some columns ∧
      heroCollection.fromSql decimal (rowOf columns) = some loaded ∧
      ∀ name field, heroCollection.fields.lookup name = some field →
        Option.Rel (Same decimal field) (heroCollection.read decimal bagHero name).1
          (heroCollection.read decimal loaded name).1 :=
  collection_roundTrips bagHero_reachable bagHero_storable

/-- The untyped field is set to a table with the key 5. -/
def memoHero : Obj where
  con := [("uuid", .plain (.str "u")), ("memo", .plain (.dict [(.int 5, .int 1)]))]
  del := []

/-- An untyped table with a numeric key is read back with a string for its key. -/
theorem memoHero_not_roundTrips :
    ¬ ∀ {texts : Texts} {collection : Collection} {obj : Obj}, Reachable texts collection obj →
      ∃ columns loaded, collection.toSql texts obj = some columns ∧
        collection.fromSql texts (rowOf columns) = some loaded ∧
        ∀ name field, collection.fields.lookup name = some field →
          Option.Rel (Same texts field) (collection.read texts obj name).1
            (collection.read texts loaded name).1 := by
  intro roundTrips
  have memo : heroCollection.write decimal newHero "memo"
      (some (.plain (.dict [(.int 5, .int 1)]))) = some memoHero := rfl
  have reachable : Reachable decimal heroCollection memoHero := .write newHero_reachable
    (fun v _ given _ => .inl ⟨_, (Option.some.inj given).symm⟩) memo
  obtain ⟨columns, loaded, written, read, same⟩ := roundTrips reachable
  have expected : heroCollection.toSql decimal memoHero =
      some [("uuid", .str "u"), ("memo", .text (.obj [("5", .int 1)]))] := rfl
  cases expected.symm.trans written
  have back : heroCollection.fromSql decimal
      (rowOf [("uuid", .str "u"), ("memo", .text (.obj [("5", .int 1)]))]) =
      some { con := [("uuid", .plain (.str "u")), ("memo", .plain (.dict [(.str "5", .int 1)]))],
             del := [] } := rfl
  cases back.symm.trans read
  have memo_same : Option.Rel (Same decimal (.any none))
      (some (.plain (.dict [(.int 5, .int 1)]))) (some (.plain (.dict [(.str "5", .int 1)]))) :=
    same "memo" (.any none) rfl
  cases memo_same with
  | some equal => cases equal

end UEServer.Schema
