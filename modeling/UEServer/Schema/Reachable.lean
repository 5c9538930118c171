import UEServer.Schema.Typed

/-!
# Reachable objects

The objects that assignments and reads make from a new object, at the root or inside.  Their values
are typed, and no field that is deleted has a value.
-/

namespace UEServer.Schema

open Lua FieldContainer Assoc

/-- An assignment or a read inside a value of a field. -/
inductive Step (texts : Texts) : Field → Val → Val → Prop where
  | objNewIndex {id : Nat} {fields : List (String × Field)} {hasDefault : Bool}
      {con con' : List (String × Val)} {name : String} {value : Option Val} :
      (∀ v field, value = some v → fields.lookup name = some field → Assignable field v) →
      objNewIndex (compileFields texts fields) con name value = some con' →
      Step texts (.obj id fields hasDefault) (.obj id con) (.obj id con')
  | objIndex {id : Nat} {fields : List (String × Field)} {hasDefault : Bool}
      {con : List (String × Val)} {name : String} :
      Step texts (.obj id fields hasDefault) (.obj id con)
        (.obj id (objIndex (compileFields texts fields) con name).2)
  | objInside {id : Nat} {fields : List (String × Field)} {hasDefault : Bool}
      {con : List (String × Val)} {name : String} {field : Field} {v w : Val} :
      fields.lookup name = some field → con.lookup name = some v → Step texts field v w →
      Step texts (.obj id fields hasDefault) (.obj id con) (.obj id (assign con name w))
  | dictNewIndex {id : Nat} {keyField : KeyField} {field : Field} {hasDefault : Bool}
      {con con' : List (Key × Val)} {k : Lua.Index} {value : Option Val} :
      (∀ v, value = some v → Assignable field v) →
      dictNewIndex keyField (compile texts field) con k value = some con' →
      Step texts (.container id keyField field hasDefault) (.container id con) (.container id con')
  | dictIndex {id : Nat} {keyField : KeyField} {field : Field} {hasDefault : Bool}
      {con : List (Key × Val)} {k : Lua.Index} {key : Key} :
      (keyField.converter k).bind Lua.Index.key? = some key →
      Step texts (.container id keyField field hasDefault) (.container id con)
        (.container id (dictIndex (compile texts field) con key).2)
  | dictInside {id : Nat} {keyField : KeyField} {field : Field} {hasDefault : Bool}
      {con : List (Key × Val)} {key : Key} {v w : Val} :
      con.lookup key = some v → Step texts field v w →
      Step texts (.container id keyField field hasDefault) (.container id con)
        (.container id (assign con key w))

section
variable {κ : Type*} [DecidableEq κ]

theorem mem_stored {con : List (κ × Val)} {key : κ} {value : Option Val} {entry : κ × Val}
    (mem : entry ∈ stored con key value) :
    entry ∈ con ∨ entry.1 = key ∧ value = some entry.2 := by
  cases value with
  | none => exact .inl (List.mem_filter.mp mem).1
  | some v =>
      rcases mem_assign.mp mem with ⟨old, -⟩ | rfl
      · exact .inl old
      · exact .inr ⟨rfl, rfl⟩

theorem stored_nodup {con : List (κ × Val)} (nodup : (con.map Prod.fst).Nodup) (key : κ)
    (value : Option Val) : ((stored con key value).map Prod.fst).Nodup := by
  cases value with
  | none => exact nodup.sublist (List.filter_sublist.map _)
  | some v => exact assign_nodup nodup key v

theorem indexed_con (con : List (κ × Val)) (key : κ) (defaultValue : Option Val) :
    (indexed con key defaultValue).2 = con ∨
      ∃ v, defaultValue = some v ∧ con.lookup key = none ∧
        (indexed con key defaultValue).2 = stored con key (some v) := by
  cases found : con.lookup key with
  | some value => exact .inl (by simp [indexed, found])
  | none =>
      cases defaultValue with
      | none => exact .inl (by simp [indexed, found])
      | some v =>
          cases table : v.isTable with
          | false => exact .inl (by simp [indexed, found, table])
          | true => exact .inr ⟨v, rfl, rfl, by simp [indexed, found, table, stored]⟩

end

theorem storedKey_of_converter {keyField : KeyField} {k : Lua.Index} {key : Key}
    (converted : (keyField.converter k).bind Lua.Index.key? = some key) :
    storedKey keyField key = true := by
  obtain ⟨k', accepted, same⟩ := Option.bind_eq_some_iff.mp converted
  unfold KeyField.converter at accepted
  split at accepted <;> cases accepted <;> cases same <;> try rfl
  split <;> rfl

variable {fields : List (String × Field)}

theorem wellFormed_of_mem
    (wellFormed : WellFormedFields fields) {member : String × Field} (mem : member ∈ fields) :
    member.2.WellFormed := by
  induction fields with
  | nil => cases mem
  | cons first fields ih =>
      rcases List.mem_cons.mp mem with rfl | later
      · exact wellFormed.1
      · exact ih wellFormed.2 later

variable {field : Field}

theorem makeDefault_typed (texts : Texts) (wellFormed : field.WellFormed)
    {v : Val} (made : (compile texts field).makeDefault = some v) : Typed field v := by
  cases field with
  | any defaultValue => trivial
  | int defaultValue | num defaultValue | bool defaultValue | str defaultValue =>
      obtain ⟨data, given, rfl⟩ := Option.map_eq_some_iff.mp made
      exact ⟨data, rfl, wellFormed data given⟩
  | obj id fields hasDefault =>
      simp only [compile, fieldObj] at made
      split at made
      · cases made
        exact ⟨[], rfl, List.nodup_nil, fun _ none => by cases none⟩
      · cases made
  | container id keyField value hasDefault =>
      simp only [compile, fieldContainer] at made
      split at made
      · cases made
        exact ⟨[], rfl, List.nodup_nil, fun _ none => (by cases none), fun _ none => by cases none⟩
      · cases made

variable {texts : Texts}

theorem convert_typed {value converted : Option Val}
    (assignable : ∀ v, value = some v → Assignable field v)
    (done : (compile texts field).convert value = some converted) {w : Val}
    (result : converted = some w) : Typed field w := by
  cases value with
  | none =>
      cases done
      cases result
  | some v =>
      obtain ⟨w', made, rfl⟩ := Option.map_eq_some_iff.mp done
      cases result
      exact converter_typed texts field (assignable v rfl) made

/-- The entries of an object's `__CON` are typed, each under one name. -/
def TypedFields (fields : List (String × Field)) (con : List (String × Val)) : Prop :=
  (con.map Prod.fst).Nodup ∧ ∀ member ∈ con, TypedMember fields member.1 member.2

variable {con : List (String × Val)}

theorem TypedFields.stored
    (typed : TypedFields fields con) {name : String} {value : Option Val}
    (typed_value : ∀ w, value = some w → TypedMember fields name w) :
    TypedFields fields (stored con name value) := by
  refine ⟨stored_nodup typed.1 name value, fun member mem => ?_⟩
  rcases mem_stored mem with old | ⟨rfl, new⟩
  · exact typed.2 member old
  · exact typed_value member.2 new

theorem TypedFields.objNewIndex
    {con con' : List (String × Val)} (typed : TypedFields fields con) {name : String}
    {value : Option Val}
    (assignable : ∀ v field, value = some v → fields.lookup name = some field →
      Assignable field v)
    (done : objNewIndex (compileFields texts fields) con name value = some con') :
    TypedFields fields con' := by
  obtain ⟨cls, found, done⟩ := Option.bind_eq_some_iff.mp done
  obtain ⟨converted, made, rfl⟩ := Option.map_eq_some_iff.mp done
  rw [lookup_compileFields] at found
  obtain ⟨field, declared, rfl⟩ := Option.map_eq_some_iff.mp found
  refine typed.stored fun w result => typedMember_iff.mpr ⟨field, declared, ?_⟩
  exact convert_typed (fun v given => assignable v field given declared) made result

theorem TypedFields.inside
    (typed : TypedFields fields con) {name : String} {v w : Val}
    (declared : fields.lookup name = some field) (found : con.lookup name = some v)
    (changed : Typed field v → Typed field w) : TypedFields fields (assign con name w) := by
  obtain ⟨other, same, typed_v⟩ := typedMember_iff.mp (typed.2 _ (mem_of_lookup found))
  cases declared.symm.trans same
  have typed_w : ∀ w', some w = some w' → TypedMember fields name w' := by
    rintro w' ⟨⟩
    exact typedMember_iff.mpr ⟨field, declared, changed typed_v⟩
  exact typed.stored typed_w

theorem TypedFields.indexed
    (wellFormed : WellFormedFields fields)
    (typed : TypedFields fields con) {name : String}
    (declared : fields.lookup name = some field) :
    TypedFields fields (indexed con name (compile texts field).makeDefault).2 := by
  rcases indexed_con con name (compile texts field).makeDefault with
    same | ⟨v, made, -, same⟩
  · rw [same]
    exact typed
  · rw [same]
    refine typed.stored fun w result => typedMember_iff.mpr ⟨field, declared, ?_⟩
    cases result
    exact makeDefault_typed texts (wellFormed_of_mem wellFormed (mem_of_lookup declared)) made

theorem TypedFields.objIndex
    (wellFormed : WellFormedFields fields)
    (typed : TypedFields fields con) (name : String) :
    TypedFields fields (objIndex (compileFields texts fields) con name).2 := by
  rw [Schema.objIndex, lookup_compileFields]
  cases declared : fields.lookup name with
  | none => exact typed
  | some field => exact typed.indexed wellFormed declared

/-- The entries of a container's `__CON` are typed, each under one key. -/
def TypedEntries (keyField : KeyField) (field : Field) (con : List (Key × Val)) : Prop :=
  (con.map Prod.fst).Nodup ∧ (∀ member ∈ con, storedKey keyField member.1) ∧
    ∀ member ∈ con, Typed field member.2

theorem TypedEntries.stored {keyField : KeyField} {con : List (Key × Val)}
    (typed : TypedEntries keyField field con) {key : Key} (typed_key : storedKey keyField key)
    {value : Option Val} (typed_value : ∀ w, value = some w → Typed field w) :
    TypedEntries keyField field (stored con key value) := by
  refine ⟨stored_nodup typed.1 key value, fun member mem => ?_, fun member mem => ?_⟩
  · rcases mem_stored mem with old | ⟨rfl, -⟩
    · exact typed.2.1 member old
    · exact typed_key
  · rcases mem_stored mem with old | ⟨-, new⟩
    · exact typed.2.2 member old
    · exact typed_value member.2 new

theorem Step.typed {v w : Val} (step : Step texts field v w)
    (wellFormed : field.WellFormed) (typed : Typed field v) : Typed field w := by
  induction step with
  | objNewIndex assignable done =>
      obtain ⟨con, same, typed⟩ := typed
      cases same
      exact ⟨_, rfl, TypedFields.objNewIndex typed assignable done⟩
  | objIndex =>
      obtain ⟨con, same, typed⟩ := typed
      cases same
      exact ⟨_, rfl, TypedFields.objIndex wellFormed.2 typed _⟩
  | objInside declared found _ ih =>
      obtain ⟨con, same, typed⟩ := typed
      cases same
      exact ⟨_, rfl, TypedFields.inside typed declared found
        (ih (wellFormed_of_mem wellFormed.2 (mem_of_lookup declared)))⟩
  | dictNewIndex assignable done =>
      obtain ⟨con, same, typed⟩ := typed
      cases same
      obtain ⟨key, converted, done⟩ := Option.bind_eq_some_iff.mp done
      obtain ⟨result, made, rfl⟩ := Option.map_eq_some_iff.mp done
      exact ⟨_, rfl, TypedEntries.stored typed (storedKey_of_converter converted)
        fun w => convert_typed assignable made⟩
  | @dictIndex id keyField field hasDefault con k key converted =>
      obtain ⟨con, same, typed⟩ := typed
      cases same
      refine ⟨_, rfl, ?_⟩
      rcases indexed_con con key (compile texts field).makeDefault with
        same | ⟨v, made, -, same⟩
      · rw [Schema.dictIndex, same]
        exact typed
      · rw [Schema.dictIndex, same]
        refine TypedEntries.stored typed (storedKey_of_converter converted) fun w result => ?_
        cases result
        have wellFormed : field.WellFormed := wellFormed
        exact makeDefault_typed texts wellFormed made
  | @dictInside id keyField field hasDefault con key v w found _ ih =>
      obtain ⟨con, same, typed⟩ := typed
      cases same
      have mem := mem_of_lookup found
      have typed_w : ∀ w', some w = some w' → Typed field w' := by
        rintro w' ⟨⟩
        exact ih wellFormed (typed.2.2 _ mem)
      exact ⟨_, rfl, TypedEntries.stored typed (typed.2.1 _ mem) typed_w⟩

/-- The objects that assignments and reads make from a new object. -/
inductive Reachable (texts : Texts) (collection : Collection) : Obj → Prop where
  | newObj {key : Value} {obj : Obj} :
      collection.newObj texts key = some obj → Reachable texts collection obj
  | write {obj obj' : Obj} {name : String} {value : Option Val} :
      Reachable texts collection obj →
      (∀ v field, value = some v → collection.fields.lookup name = some field →
        Assignable field v) →
      collection.write texts obj name value = some obj' → Reachable texts collection obj'
  | read {obj : Obj} {name : String} :
      Reachable texts collection obj → Reachable texts collection (collection.read texts obj name).2
  | inside {obj : Obj} {name : String} {field : Field} {v w : Val} :
      Reachable texts collection obj → collection.fields.lookup name = some field →
      obj.con.lookup name = some v → Step texts field v w →
      Reachable texts collection { obj with con := assign obj.con name w }

/-- The object is typed, and no field that is deleted has a value. -/
structure Collection.TypedObj (collection : Collection) (obj : Obj) : Prop where
  con : TypedFields collection.fields obj.con
  del : ∀ name ∈ obj.del, ∀ member ∈ obj.con, member.1 ≠ name

section
variable {texts : Texts} {collection : Collection} {obj obj' : Obj} {name : String}

theorem Collection.TypedObj.stored (typed : collection.TypedObj obj) {v : Val}
    (typed_con : TypedFields collection.fields (stored obj.con name (some v))) :
    collection.TypedObj
      { con := stored obj.con name (some v), del := obj.del.filter (· ≠ name) } := by
  refine ⟨typed_con, fun other deleted member mem => ?_⟩
  have mem : member ∈ Schema.stored obj.con name (some v) := mem
  obtain ⟨old_del, different⟩ := List.mem_filter.mp deleted
  rcases mem_stored mem with old | ⟨rfl, -⟩
  · exact typed.del other old_del member old
  · exact (of_decide_eq_true different).symm

theorem Collection.newObj_typed {key : Value} (made : collection.newObj texts key = some obj) :
    collection.TypedObj obj := by
  obtain ⟨con, done, rfl⟩ := Option.map_eq_some_iff.mp made
  refine ⟨⟨assignAll_nodup con, ?_⟩, fun _ none => by cases none⟩
  rintro ⟨name, value⟩ mem
  obtain ⟨v, cls, v_mem, found, converted⟩ := mem_of_mapFields done (mem_of_mem_assignAll mem)
  rw [Collection.fieldDict, lookup_compileFields] at found
  obtain ⟨field, declared, rfl⟩ := Option.map_eq_some_iff.mp found
  cases List.mem_singleton.mp v_mem
  exact typedMember_iff.mpr
    ⟨field, declared, converter_typed texts field (.inl ⟨key, rfl⟩) converted⟩

theorem Collection.write_typed {value : Option Val} (typed : collection.TypedObj obj)
    (assignable : ∀ v field, value = some v → collection.fields.lookup name = some field →
      Assignable field v)
    (done : collection.write texts obj name value = some obj') : collection.TypedObj obj' := by
  obtain ⟨con, assigned, rfl⟩ := Option.map_eq_some_iff.mp done
  have typed_con := typed.con.objNewIndex assignable assigned
  obtain ⟨cls, -, assigned⟩ := Option.bind_eq_some_iff.mp assigned
  obtain ⟨converted, made, rfl⟩ := Option.map_eq_some_iff.mp assigned
  cases value with
  | none =>
      cases made
      refine ⟨typed_con, fun other deleted member mem => ?_⟩
      obtain ⟨old, different⟩ := List.mem_filter.mp mem
      rcases List.mem_cons.mp deleted with rfl | old_del
      · exact of_decide_eq_true different
      · exact typed.del other old_del member old
  | some v =>
      obtain ⟨w, -, rfl⟩ := Option.map_eq_some_iff.mp made
      exact typed.stored typed_con

theorem Collection.read_typed (typed : collection.TypedObj obj) :
    collection.TypedObj (collection.read texts obj name).2 := by
  rw [Collection.read, Collection.fieldDict, lookup_compileFields]
  cases declared : collection.fields.lookup name with
  | none => exact typed
  | some field =>
      have typed_con : TypedFields _ (indexed obj.con name (compile texts field).makeDefault).2 :=
        typed.con.indexed collection.wellFormed declared
      rcases indexed_con obj.con name (compile texts field).makeDefault with
        same | ⟨v, -, absent, same⟩
      · simp only [Option.map_some, same]
        split
        · rename_i absent present
          cases absent.symm.trans present
        · exact typed
      · have present : ∃ w, (Schema.stored obj.con name (some v)).lookup name = some w :=
          ⟨v, lookup_assign obj.con name v⟩
        obtain ⟨w, present⟩ := present
        rw [same] at typed_con
        simp only [Option.map_some, same, absent, present]
        exact typed.stored typed_con

theorem Collection.inside_typed {field : Field} {v w : Val} (typed : collection.TypedObj obj)
    (declared : collection.fields.lookup name = some field)
    (found : obj.con.lookup name = some v) (step : Step texts field v w) :
    collection.TypedObj { obj with con := assign obj.con name w } := by
  have wellFormed := wellFormed_of_mem collection.wellFormed (mem_of_lookup declared)
  refine ⟨typed.con.inside declared found (step.typed wellFormed), fun other deleted member mem => ?_⟩
  rcases mem_assign.mp mem with ⟨old, -⟩ | rfl
  · exact typed.del other deleted member old
  · exact typed.del other deleted (name, v) (mem_of_lookup found)

theorem Reachable.typed (reachable : Reachable texts collection obj) :
    collection.TypedObj obj := by
  induction reachable with
  | newObj made => exact Collection.newObj_typed made
  | write _ assignable done ih => exact Collection.write_typed ih assignable done
  | read _ ih => exact Collection.read_typed ih
  | inside _ declared found step ih => exact Collection.inside_typed ih declared found step

end

end UEServer.Schema
