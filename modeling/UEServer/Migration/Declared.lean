import UEServer.Library.Table
import UEServer.Migration.Check

/-!
# When a migration reaches the declared schema

Each loop of the migration has one effect on the table.  The columns always become those that are
declared; the indexes do if no column was changed, or if what the changed columns left of the
indexes happens to be what is declared.
-/

namespace UEServer.Migration

theorem Index.without_nil (index : Index) : index.without [] = index := by
  rw [Index.without, List.filter_eq_self.mpr (by simp)]

theorem Index.without_without (first second : List String) (index : Index) :
    (index.without first).without second = index.without (first ++ second) := by
  simp [Index.without, List.filter_filter, Bool.and_comm]

theorem mem_lose {names : List String} {indexes : List Index} {index : Index} :
    index ∈ lose names indexes ↔ index.columns ≠ [] ∧
      ∃ old ∈ indexes, old.without names = index := by
  simp only [lose, List.mem_filter, List.mem_map, decide_eq_true_eq]
  exact and_comm

theorem lose_nil {indexes : List Index} (nonempty : ∀ index ∈ indexes, index.columns ≠ []) :
    lose [] indexes = indexes := by
  have kept : indexes.map (Index.without []) = indexes :=
    (List.map_congr_left fun index _ => Index.without_nil index).trans (List.map_id _)
  rw [lose, kept]
  exact List.filter_eq_self.mpr fun index mem => decide_eq_true (nonempty index mem)

theorem lose_lose (first second : List String) (indexes : List Index) :
    lose second (lose first indexes) = lose (first ++ second) indexes := by
  induction indexes with
  | nil => rfl
  | cons index indexes ih =>
      simp only [lose, List.map_cons, List.filter_cons] at ih ⊢
      by_cases empty : (index.without first).columns = []
      · have both : (index.without (first ++ second)).columns = [] := by
          rw [← Index.without_without, Index.without, empty, List.filter_nil]
        rw [if_neg (by simpa using empty), if_neg (by simpa using both), ih]
      · rw [if_pos (by simpa using empty), List.map_cons, List.filter_cons,
          Index.without_without, ih]

/-- The indexes of the table are on its columns. -/
def Table.Covered (table : Table) : Prop :=
  ∀ index ∈ table.indexes, index.columns ≠ [] ∧
    ∀ name ∈ index.columns, (table.columns name).isSome

/-- The table has become this one, and the record is as it was. -/
def Becomes (db db' : Database) (table : Table) : Prop :=
  db'.table = some table ∧ db'.luaSchema = db.luaSchema

section
variable {db db' : Database} {table : Table}

section
variable (holds : db.table = some table)
include holds

theorem execute_eq_some {alter : Alter} (done : db.execute alter = some db') :
    alter.verb = "alter table" ∧ ∃ after, alter.action.apply table = some after ∧
      Becomes db db' after := by
  unfold Database.execute at done
  split at done
  · rename_i verb
    rw [holds, Option.bind_some] at done
    obtain ⟨after, applied, rfl⟩ := Option.map_eq_some_iff.mp done
    exact ⟨verb, after, applied, rfl, rfl⟩
  · cases done

theorem addColumn_becomes {name define : String}
    (done : db.execute (addColumn name define) = some db') :
    table.columns name = none ∧ Becomes db db'
      { table with columns := Function.update table.columns name (some define) } := by
  obtain ⟨-, after, applied, becomes⟩ := execute_eq_some holds done
  simp only [addColumn, Action.apply] at applied
  split at applied
  · cases applied
  · rename_i fresh
    cases applied
    exact ⟨by simpa using fresh, becomes⟩

theorem dropColumn_becomes {name : String} (done : db.execute (dropColumn name) = some db') :
    Becomes db db' { columns := Function.update table.columns name none,
                     indexes := lose [name] table.indexes } := by
  obtain ⟨-, after, applied, becomes⟩ := execute_eq_some holds done
  simp only [dropColumn, Action.apply] at applied
  split at applied
  · cases applied
  · cases applied
    exact becomes

theorem modifyColumn_becomes {name define : String}
    (done : db.execute (modifyColumn name define) = some db') :
    Becomes db db' { table with columns := Function.update table.columns name (some define) } := by
  obtain ⟨-, after, applied, becomes⟩ := execute_eq_some holds done
  simp only [modifyColumn, Action.apply] at applied
  split at applied
  · cases applied
  · cases applied
    exact becomes

theorem changeColumn_becomes {oldName newName define : String}
    (unindexed : ∀ index ∈ table.indexes, oldName ∉ index.columns)
    (done : db.execute (changeColumn oldName newName define) = some db') :
    Becomes db db' { table with
      columns :=
        Function.update (Function.update table.columns oldName none) newName (some define) } := by
  obtain ⟨-, after, applied, becomes⟩ := execute_eq_some holds done
  simp only [changeColumn, Action.apply] at applied
  split at applied
  · cases applied
  · cases applied
    have renamed : table.indexes.map (fun index => { index with
        columns := index.columns.map fun name => if name = oldName then newName else name }) =
        table.indexes := by
      refine (List.map_congr_left fun index mem => ?_).trans (List.map_id _)
      have columns : index.columns.map
          (fun name => if name = oldName then newName else name) = index.columns := by
        refine (List.map_congr_left fun name name_mem => ?_).trans (List.map_id _)
        exact if_neg (ne_of_mem_of_not_mem name_mem (unindexed index mem))
      rw [columns, id]
    rw [renamed] at becomes
    exact becomes

theorem dropIndex_becomes {name : String} (done : db.execute (dropIndex name) = some db') :
    Becomes db db' { table with indexes := table.indexes.filter (·.name ≠ name) } := by
  obtain ⟨-, after, applied, becomes⟩ := execute_eq_some holds done
  simp only [dropIndex, Action.apply] at applied
  split at applied
  · cases applied
    exact becomes
  · cases applied

end

theorem addIndex_raises (db : Database) (name : String) (columns : List String) :
    db.execute (addIndex name columns) = none := by
  simp [Database.execute, addIndex]

end

/-- The recorded columns that are not declared any more. -/
def droppedNames (newFieldDefine fields : List (String × String)) : List String :=
  (fields.filter fun member => (newFieldDefine.lookup member.1).isNone).map Prod.fst

/-- A column is copied because its type changes. -/
def isCopied (oldFieldDefine : List (String × String)) (member : String × String) : Bool :=
  (oldFieldDefine.lookup member.1).any fun oldDefine => copied oldDefine member.2

def retypedNames (oldFieldDefine fields : List (String × String)) : List String :=
  (fields.filter (isCopied oldFieldDefine)).map Prod.fst

section
variable {db db' : Database} {table : Table}

variable {dirty : Bool}

theorem dropFields_becomes {newFieldDefine fields : List (String × String)}
    (holds : db.table = some table)
    (nonempty : ∀ index ∈ table.indexes, index.columns ≠ [])
    (done : dropFields newFieldDefine fields db = some (dirty, db')) :
    Becomes db db' {
      columns := fun name =>
        if name ∈ droppedNames newFieldDefine fields then none else table.columns name
      indexes := lose (droppedNames newFieldDefine fields) table.indexes } ∧
    (dirty = false ↔ ∀ member ∈ fields, (newFieldDefine.lookup member.1).isSome) ∧
    (dirty = false → db' = db) := by
  induction fields generalizing db table dirty with
  | nil =>
      cases done
      refine ⟨⟨?_, rfl⟩, by simp, fun _ => rfl⟩
      simpa [droppedNames, lose_nil nonempty] using holds
  | cons member fields ih =>
      obtain ⟨name, value⟩ := member
      rw [dropFields] at done
      split at done
      · rename_i declared
        have same : droppedNames newFieldDefine ((name, value) :: fields) =
            droppedNames newFieldDefine fields := by
          rw [droppedNames, List.filter_cons, if_neg (by simpa using declared)]
          rfl
        obtain ⟨becomes, clean, unchanged⟩ := ih holds nonempty done
        refine ⟨same ▸ becomes, clean.trans ?_, unchanged⟩
        rw [List.forall_mem_cons]
        exact ⟨fun rest => ⟨declared, rest⟩, And.right⟩
      · rename_i undeclared
        have absent : newFieldDefine.lookup name = none := Option.not_isSome_iff_eq_none.mp undeclared
        have first : droppedNames newFieldDefine ((name, value) :: fields) =
            name :: droppedNames newFieldDefine fields := by
          rw [droppedNames, List.filter_cons, absent]
          rfl
        obtain ⟨middle, dropped, done⟩ := Option.bind_eq_some_iff.mp done
        obtain ⟨⟨dirty', last⟩, rest, same⟩ := Option.map_eq_some_iff.mp done
        cases same
        obtain ⟨middle_table, middle_record⟩ := dropColumn_becomes holds dropped
        have nonempty' : ∀ index ∈ lose [name] table.indexes, index.columns ≠ [] :=
          fun index mem => (mem_lose.mp mem).1
        obtain ⟨⟨last_table, last_record⟩, -, -⟩ := ih middle_table nonempty' rest
        refine ⟨⟨?_, last_record.trans middle_record⟩,
          ⟨fun clean => by (cases clean), fun all => ?_⟩, fun clean => by (cases clean)⟩
        · rw [last_table, first, lose_lose]
          refine congrArg some (congrArg₂ Table.mk (funext fun other => ?_) rfl)
          by_cases later : other ∈ droppedNames newFieldDefine fields
          · simp [later]
          · by_cases same : other = name
            · simp [same]
            · simp [later, same]
        · exact absurd (all _ List.mem_cons_self) undeclared

theorem tmpName_ne (name : String) : tmpName name ≠ name := by
  intro same
  have length := congrArg String.length same
  simp [tmpName] at length

theorem retype_becomes {name value : String} (holds : db.table = some table)
    (covered : table.Covered) (done : retype name value db = some db') :
    Becomes db db' { columns := Function.update table.columns name (some value),
                     indexes := lose [name] table.indexes } := by
  obtain ⟨first, added, done⟩ := Option.bind_eq_some_iff.mp done
  obtain ⟨second, dropped, changed⟩ := Option.bind_eq_some_iff.mp done
  obtain ⟨fresh, first_table, first_record⟩ := addColumn_becomes holds added
  obtain ⟨second_table, second_record⟩ := dropColumn_becomes first_table dropped
  have unindexed : ∀ index ∈ lose [name] table.indexes, tmpName name ∉ index.columns := by
    intro index mem tmp
    obtain ⟨-, old, old_mem, rfl⟩ := mem_lose.mp mem
    have present := (covered old old_mem).2 _ (List.mem_filter.mp tmp).1
    rw [fresh] at present
    cases present
  obtain ⟨last_table, last_record⟩ := changeColumn_becomes second_table unindexed changed
  refine ⟨?_, last_record.trans (second_record.trans first_record)⟩
  rw [last_table]
  refine congrArg some (congrArg₂ Table.mk (funext fun other => ?_) rfl)
  by_cases same : other = name
  · simp [same]
  · by_cases tmp : other = tmpName name
    · simp [tmp, tmpName_ne, fresh]
    · simp [same, tmp]

theorem retypedNames_cons (oldFieldDefine : List (String × String)) (member : String × String)
    (fields : List (String × String)) :
    retypedNames oldFieldDefine (member :: fields) =
      retypedNames oldFieldDefine [member] ++ retypedNames oldFieldDefine fields := by
  simp only [retypedNames, List.filter_cons, List.filter_nil]
  split <;> rfl

theorem modifyField_becomes {oldFieldDefine : List (String × String)} {name value : String}
    (holds : db.table = some table) (covered : table.Covered)
    (done : modifyField oldFieldDefine name value db = some db') :
    Becomes db db' { columns := Function.update table.columns name (some value),
                     indexes := lose (retypedNames oldFieldDefine [(name, value)])
                       table.indexes } := by
  have kept := lose_nil fun index mem => (covered index mem).1
  unfold modifyField at done
  rw [retypedNames, List.filter_cons, List.filter_nil, isCopied]
  cases found : oldFieldDefine.lookup name with
  | none =>
      rw [found] at done
      simpa [kept] using (addColumn_becomes holds done).2
  | some oldDefine =>
      simp only [found, Option.any_some] at done ⊢
      split at done
      · rename_i copies
        rw [if_pos copies]
        exact retype_becomes holds covered done
      · rename_i keeps
        rw [if_neg keeps, List.map_nil, kept]
        exact modifyColumn_becomes holds done

theorem Table.Covered.modified {name value : String} {names : List String} (covered : table.Covered) :
    Table.Covered { columns := Function.update table.columns name (some value),
                    indexes := lose names table.indexes } := by
  intro index mem
  obtain ⟨nonempty, old, old_mem, rfl⟩ := mem_lose.mp mem
  refine ⟨nonempty, fun column column_mem => ?_⟩
  by_cases same : column = name
  · simp [same]
  · have present := (covered old old_mem).2 column (List.mem_filter.mp column_mem).1
    simpa [same] using present

theorem copied_self (define : String) : copied define define = false := by
  refine decide_eq_false ?_
  rintro (⟨rfl, same⟩ | ⟨same, rfl⟩) <;> simp at same

theorem modifyFields_becomes {oldFieldDefine fields : List (String × String)}
    (holds : db.table = some table) (covered : table.Covered)
    (nodup : (fields.map Prod.fst).Nodup)
    (recorded : ∀ member ∈ fields, table.columns member.1 = oldFieldDefine.lookup member.1)
    (done : modifyFields oldFieldDefine fields db = some (dirty, db')) :
    Becomes db db' {
      columns := fun name => (fields.lookup name).or (table.columns name)
      indexes := lose (retypedNames oldFieldDefine fields) table.indexes } ∧
    (dirty = false ↔ ∀ member ∈ fields, oldFieldDefine.lookup member.1 = some member.2) ∧
    (dirty = false → db' = db) := by
  induction fields generalizing db table dirty with
  | nil =>
      cases done
      refine ⟨⟨?_, rfl⟩, by simp, fun _ => rfl⟩
      simpa [retypedNames, lose_nil fun index mem => (covered index mem).1] using holds
  | cons member fields ih =>
      obtain ⟨name, value⟩ := member
      obtain ⟨fresh, nodup⟩ := List.nodup_cons.mp nodup
      have recorded_rest := fun other mem => recorded other (List.mem_cons_of_mem _ mem)
      rw [modifyFields] at done
      split at done
      · rename_i unchanged_field
        obtain ⟨⟨after_table, record⟩, clean, unchanged⟩ :=
          ih holds covered nodup recorded_rest done
        refine ⟨⟨?_, record⟩, ?_, unchanged⟩
        · have not_copied : retypedNames oldFieldDefine [(name, value)] = [] := by
            simp [retypedNames, isCopied, unchanged_field, copied_self]
          rw [after_table, retypedNames_cons, not_copied, List.nil_append]
          refine congrArg some (congrArg₂ Table.mk (funext fun other => ?_) rfl)
          rw [List.lookup_cons]
          by_cases same : other = name
          · have column := (recorded _ List.mem_cons_self).trans unchanged_field
            subst same
            simp [Assoc.lookup_eq_none fresh, column]
          · rw [beq_false_of_ne same]
        · rw [clean, List.forall_mem_cons]
          exact ⟨fun rest => ⟨unchanged_field, rest⟩, And.right⟩
      · rename_i changed
        obtain ⟨middle, modified, done⟩ := Option.bind_eq_some_iff.mp done
        obtain ⟨⟨dirty', last⟩, rest, same⟩ := Option.map_eq_some_iff.mp done
        cases same
        obtain ⟨middle_table, middle_record⟩ := modifyField_becomes holds covered modified
        have recorded_middle : ∀ member ∈ fields,
            Function.update table.columns name (some value) member.1 =
              oldFieldDefine.lookup member.1 := by
          intro member mem
          have different : member.1 ≠ name :=
            fun same => fresh (List.mem_map.mpr ⟨member, mem, same⟩)
          rw [Function.update_of_ne different]
          exact recorded_rest member mem
        obtain ⟨⟨last_table, last_record⟩, -, -⟩ :=
          ih middle_table covered.modified nodup recorded_middle rest
        refine ⟨⟨?_, last_record.trans middle_record⟩,
          ⟨fun clean => by (cases clean), fun all => ?_⟩, fun clean => by (cases clean)⟩
        · rw [last_table, lose_lose, ← retypedNames_cons]
          refine congrArg some (congrArg₂ Table.mk (funext fun other => ?_) rfl)
          rw [List.lookup_cons]
          by_cases same : other = name
          · subst same
            simp [Assoc.lookup_eq_none fresh]
          · simp [same, beq_false_of_ne same]
        · exact absurd (all _ List.mem_cons_self) changed

/-- Two lists of definitions define the same columns. -/
def SameFields (oldFieldDefine newFieldDefine : List (String × String)) : Prop :=
  ∀ name, oldFieldDefine.lookup name = newFieldDefine.lookup name

theorem sameFields_iff {old new : List (String × String)} (old_nodup : (old.map Prod.fst).Nodup)
    (new_nodup : (new.map Prod.fst).Nodup) :
    SameFields old new ↔ (∀ member ∈ old, (new.lookup member.1).isSome) ∧
      ∀ member ∈ new, old.lookup member.1 = some member.2 := by
  constructor
  · intro same
    refine ⟨fun member mem => ?_, fun member mem => ?_⟩
    · rw [← same, Assoc.lookup_of_mem old_nodup mem]
      rfl
    · rw [same, Assoc.lookup_of_mem new_nodup mem]
  · rintro ⟨declared, unchanged⟩ name
    cases found : new.lookup name with
    | some value => exact unchanged _ (Assoc.mem_of_lookup found)
    | none =>
        cases recorded : old.lookup name with
        | none => rfl
        | some value =>
            have present := declared _ (Assoc.mem_of_lookup recorded)
            rw [found] at present
            cases present

/-- The table has the columns and the indexes of the schema. -/
def Table.Matches (table : Table) (schema : Schema) : Prop :=
  (∀ name, table.columns name = schema.fieldDefine.lookup name) ∧
    ∀ index, index ∈ table.indexes ↔ index ∈ schema.indexDefine.map IndexDefine.index

theorem Table.Matches.covered {schema : Schema} (matched : table.Matches schema) :
    table.Covered := by
  intro index mem
  obtain ⟨define, define_mem, rfl⟩ := List.mem_map.mp ((matched.2 index).mp mem)
  obtain ⟨nonempty, declared⟩ := schema.covered define define_mem
  exact ⟨nonempty, fun name name_mem => by rw [matched.1]; exact declared name name_mem⟩

/-- The indexes that are left when the columns are those of the schema. -/
def remaining (schema lastSchema : Schema) : List Index :=
  lose (droppedNames schema.fieldDefine lastSchema.fieldDefine ++
      retypedNames lastSchema.fieldDefine schema.fieldDefine)
    (lastSchema.indexDefine.map IndexDefine.index)

theorem modifyAllField_becomes {schema lastSchema : Schema}
    (holds : db.table = some table) (matched : table.Matches lastSchema)
    (done : modifyAllField schema lastSchema.fieldDefine db = some (dirty, db')) :
    (∃ after, Becomes db db' after ∧
      (∀ name, after.columns name = schema.fieldDefine.lookup name) ∧
      ∀ index, index ∈ after.indexes ↔ index ∈ remaining schema lastSchema) ∧
    (dirty = false ↔ SameFields lastSchema.fieldDefine schema.fieldDefine) ∧
    (dirty = false → db' = db) := by
  obtain ⟨⟨dropped, middle⟩, drop_done, done⟩ := Option.bind_eq_some_iff.mp done
  obtain ⟨⟨modified, last⟩, modify_done, same⟩ := Option.map_eq_some_iff.mp done
  cases same
  have covered := matched.covered
  obtain ⟨⟨middle_table, middle_record⟩, drop_clean, drop_unchanged⟩ :=
    dropFields_becomes holds (fun index mem => (covered index mem).1) drop_done
  have middle_covered : Table.Covered {
      columns := fun name =>
        if name ∈ droppedNames schema.fieldDefine lastSchema.fieldDefine then none
        else table.columns name
      indexes := lose (droppedNames schema.fieldDefine lastSchema.fieldDefine) table.indexes } := by
    intro index mem
    obtain ⟨nonempty, old, old_mem, rfl⟩ := mem_lose.mp mem
    refine ⟨nonempty, fun column column_mem => ?_⟩
    obtain ⟨column_old, kept⟩ := List.mem_filter.mp column_mem
    simp only [of_decide_eq_true kept, if_false]
    exact (covered old old_mem).2 column column_old
  have not_dropped : ∀ {name value}, schema.fieldDefine.lookup name = some value →
      name ∉ droppedNames schema.fieldDefine lastSchema.fieldDefine := by
    intro name value declared mem
    obtain ⟨member, member_mem, rfl⟩ := List.mem_map.mp mem
    have absent := (List.mem_filter.mp member_mem).2
    rw [declared] at absent
    cases absent
  obtain ⟨⟨last_table, last_record⟩, modify_clean, modify_unchanged⟩ :=
    modifyFields_becomes middle_table middle_covered schema.nodup
      (fun member mem =>
        (if_neg (not_dropped (Assoc.lookup_of_mem schema.nodup mem))).trans (matched.1 _))
      modify_done
  refine ⟨⟨_, ⟨last_table, last_record.trans middle_record⟩, fun name => ?_, fun index => ?_⟩,
    ?_, ?_⟩
  · simp only
    cases declared : schema.fieldDefine.lookup name with
    | some value => rfl
    | none =>
        split
        · rfl
        · rename_i kept
          rw [matched.1]
          refine Assoc.lookup_eq_none fun mem => kept ?_
          obtain ⟨member, member_mem, rfl⟩ := List.mem_map.mp mem
          refine List.mem_map.mpr ⟨member, List.mem_filter.mpr ⟨member_mem, ?_⟩, rfl⟩
          rw [declared]
          rfl
  · rw [lose_lose, remaining, mem_lose, mem_lose]
    refine and_congr_right fun _ => exists_congr fun old => and_congr_left fun _ => ?_
    exact matched.2 old
  · rw [Bool.or_eq_false_iff, drop_clean, modify_clean,
      sameFields_iff lastSchema.nodup schema.nodup]
  · intro clean
    obtain ⟨drop, modify⟩ := Bool.or_eq_false_iff.mp clean
    rw [modify_unchanged modify, drop_unchanged drop]

theorem dropIndexes_becomes {newIndexDefine defines : List IndexDefine}
    (holds : db.table = some table)
    (done : dropIndexes newIndexDefine defines db = some (dirty, db')) :
    (∃ after, Becomes db db' after ∧ after.columns = table.columns ∧
      ∀ index, index ∈ after.indexes ↔ index ∈ table.indexes ∧
        ∀ define ∈ defines, define ∉ newIndexDefine → define.index.name ≠ index.name) ∧
    (dirty = false ↔ ∀ define ∈ defines, define ∈ newIndexDefine) ∧
    (dirty = false → db' = db) := by
  induction defines generalizing db table dirty with
  | nil =>
      cases done
      exact ⟨⟨table, ⟨holds, rfl⟩, rfl, by simp⟩, by simp, fun _ => rfl⟩
  | cons define defines ih =>
      rw [dropIndexes] at done
      split at done
      · rename_i declared
        obtain ⟨⟨after, becomes, columns, indexes⟩, clean, unchanged⟩ := ih holds done
        refine ⟨⟨after, becomes, columns, fun index => (indexes index).trans ?_⟩, ?_, unchanged⟩
        · simp [declared]
        · simp [clean, declared]
      · rename_i undeclared
        obtain ⟨name, named, done⟩ := Option.bind_eq_some_iff.mp done
        obtain ⟨middle, dropped, done⟩ := Option.bind_eq_some_iff.mp done
        obtain ⟨⟨dirty', last⟩, rest, same⟩ := Option.map_eq_some_iff.mp done
        cases same
        have matched : define.index.name = name := by
          unfold IndexDefine.matched at named
          split at named <;> cases named
          rfl
        subst matched
        obtain ⟨middle_table, middle_record⟩ := dropIndex_becomes holds dropped
        obtain ⟨⟨after, ⟨after_table, record⟩, columns, indexes⟩, -, -⟩ := ih middle_table rest
        refine ⟨⟨after, ⟨after_table, record.trans middle_record⟩, columns, fun index => ?_⟩,
          by simp [undeclared], fun clean => by (cases clean)⟩
        rw [indexes, List.forall_mem_cons, List.mem_filter, decide_eq_true_eq, and_assoc]
        refine and_congr_right fun _ => and_congr_left fun _ => ?_
        exact ⟨fun different _ => Ne.symm different, fun different => (different undeclared).symm⟩

/-- No index is ever added: the second loop returns only if there is none to add. -/
theorem addIndexes_eq_some {oldIndexDefine defines : List IndexDefine}
    (done : addIndexes oldIndexDefine defines db = some (dirty, db')) :
    dirty = false ∧ db' = db ∧ ∀ define ∈ defines, define ∈ oldIndexDefine := by
  induction defines with
  | nil =>
      cases done
      simp
  | cons define defines ih =>
      rw [addIndexes] at done
      split at done
      · rename_i recorded
        obtain ⟨clean, same, rest⟩ := ih done
        exact ⟨clean, same, List.forall_mem_cons.mpr ⟨recorded, rest⟩⟩
      · obtain ⟨name, -, done⟩ := Option.bind_eq_some_iff.mp done
        cases done

/-- If the columns are unchanged and `_modify_all_index` returns, the indexes are those that are
declared. -/
theorem modifyAllIndex_becomes {schema lastSchema : Schema}
    (holds : db.table = some table) (matched : table.Matches lastSchema)
    (done : modifyAllIndex schema lastSchema.indexDefine db = some (dirty, db')) :
    (∃ after, Becomes db db' after ∧ after.columns = table.columns ∧
      ∀ index, index ∈ after.indexes ↔ index ∈ schema.indexDefine.map IndexDefine.index) ∧
    (dirty = false ↔ ∀ define, define ∈ lastSchema.indexDefine ↔ define ∈ schema.indexDefine) ∧
    (dirty = false → db' = db) := by
  obtain ⟨⟨dropped, middle⟩, drop_done, done⟩ := Option.bind_eq_some_iff.mp done
  obtain ⟨⟨added, last⟩, add_done, same⟩ := Option.map_eq_some_iff.mp done
  cases same
  obtain ⟨rfl, rfl, recorded⟩ := addIndexes_eq_some add_done
  obtain ⟨⟨after, becomes, columns, indexes⟩, clean, unchanged⟩ := dropIndexes_becomes holds drop_done
  simp only [Bool.or_false]
  refine ⟨⟨after, becomes, columns, fun index => ?_⟩, ?_, unchanged⟩
  · rw [indexes, matched.2]
    constructor
    · rintro ⟨mem, kept⟩
      obtain ⟨define, define_mem, rfl⟩ := List.mem_map.mp mem
      refine List.mem_map_of_mem ?_
      by_contra undeclared
      exact kept define define_mem undeclared rfl
    · intro mem
      obtain ⟨define, declared, rfl⟩ := List.mem_map.mp mem
      refine ⟨List.mem_map_of_mem (recorded define declared), ?_⟩
      intro other other_mem undeclared same
      have equal := lastSchema.named other other_mem define (recorded define declared) same
      exact undeclared (equal ▸ declared)
  · rw [clean]
    exact ⟨fun all define => ⟨all define, recorded define⟩, fun all define => (all define).mp⟩

end

/-- The table and its record are those of the schema. -/
structure Database.Declares (db : Database) (schema : Schema) : Prop where
  table : ∃ table, db.table = some table ∧ table.Matches schema
  record : ∃ record, db.luaSchema = some (some record) ∧
    SameFields record.fieldDefine schema.fieldDefine ∧
    ∀ define, define ∈ record.indexDefine ↔ define ∈ schema.indexDefine

structure Database.Recorded (db : Database) (lastSchema : Record) : Prop where
  /-- The row of `t_lua_schema`. -/
  row : db.luaSchema = some (some lastSchema)
  table : ∃ table, db.table = some table ∧ table.Matches lastSchema.toSchema

/-- The migration does what it should: the table and its record are those of the schema, and nothing
was altered if they were so before. -/
def Migrated (db : Database) (lastSchema : Record) (schema : Schema) (db' : Database) : Prop :=
  db'.Declares schema ∧ (lastSchema.toSchema = schema → db'.alters = db.alters)

/-- The record is outdated, so that the table is made anew; or no column changes; or what the changed
columns leave of the recorded indexes is what is declared. -/
def Migratable (lastSchema : Record) (schema : Schema) : Prop :=
  lastSchema.outdated = true ∨ SameFields lastSchema.fieldDefine schema.fieldDefine ∨
    ∀ index, index ∈ remaining schema lastSchema.toSchema ↔
      index ∈ schema.indexDefine.map IndexDefine.index

section
variable {db db' : Database} {schema : Schema} {lastSchema : Record}

theorem createTable_declares (done : createTable schema db = some db') :
    db'.Declares schema ∧ db'.alters = db.alters := by
  unfold createTable at done
  split at done
  · cases done
    refine ⟨⟨⟨_, rfl, fun _ => rfl, fun _ => Iff.rfl⟩, ⟨_, rfl, fun _ => rfl, fun _ => Iff.rfl⟩⟩, rfl⟩
  · cases done

/-- If the columns are unchanged and the migration returns, it did what it should. -/
theorem modifyTable_migrated (recorded : db.Recorded lastSchema)
    (same : SameFields lastSchema.fieldDefine schema.fieldDefine) {dirty : Bool}
    {middle : Database} (done : modifyAllIndex schema lastSchema.indexDefine db =
      some (dirty, middle)) :
    Migrated db lastSchema schema
      (if dirty then { middle with luaSchema := some (some schema.record) } else middle) := by
  obtain ⟨table, holds, matched⟩ := recorded.table
  obtain ⟨⟨after, ⟨after_table, after_record⟩, columns, indexes⟩, clean, unchanged⟩ :=
    modifyAllIndex_becomes holds matched done
  have after_matched : after.Matches schema := by
    refine ⟨fun name => ?_, indexes⟩
    rw [columns, matched.1]
    exact same name
  cases dirty with
  | true =>
      refine ⟨⟨⟨after, after_table, after_matched⟩,
        ⟨schema.record, rfl, fun _ => rfl, fun _ => Iff.rfl⟩⟩, fun equal => ?_⟩
      have never := clean.mpr fun define => by rw [← equal]
      cases never
  | false =>
      refine ⟨⟨⟨after, after_table, after_matched⟩,
        ⟨lastSchema, after_record.trans recorded.row, same, clean.mp rfl⟩⟩, fun _ => ?_⟩
      rw [if_neg Bool.false_ne_true, unchanged rfl]

/-- If a column changes, the migration does what it should exactly if that leaves the declared
indexes. -/
theorem modifyAllField_migrated_iff (recorded : db.Recorded lastSchema) {middle : Database}
    (done : modifyAllField schema lastSchema.fieldDefine db = some (true, middle)) :
    Migrated db lastSchema schema { middle with luaSchema := some (some schema.record) } ↔
      ∀ index, index ∈ remaining schema lastSchema.toSchema ↔
        index ∈ schema.indexDefine.map IndexDefine.index := by
  obtain ⟨table, holds, matched⟩ := recorded.table
  obtain ⟨⟨after, ⟨after_table, -⟩, columns, indexes⟩, clean, -⟩ :=
    modifyAllField_becomes holds matched done
  constructor
  · rintro ⟨⟨⟨other, other_table, -, other_indexes⟩, -⟩, -⟩ index
    cases after_table.symm.trans other_table
    exact (indexes index).symm.trans (other_indexes index)
  · intro left
    refine ⟨⟨⟨after, after_table, columns, fun index => (indexes index).trans (left index)⟩,
      ⟨schema.record, rfl, fun _ => rfl, fun _ => Iff.rfl⟩⟩, fun equal => ?_⟩
    have never := clean.mpr fun name => by rw [← equal]
    cases never

/-- A migration that returns does what it should exactly if the schemas are migratable. -/
theorem checkCreateTable_migrated_iff (recorded : db.Recorded lastSchema)
    (returned : checkCreateTable schema db = some db') :
    Migrated db lastSchema schema db' ↔ Migratable lastSchema schema := by
  unfold checkCreateTable at returned
  simp only [recorded.row] at returned
  split at returned
  · rename_i outdated
    obtain ⟨table, -, done⟩ := Option.bind_eq_some_iff.mp returned
    obtain ⟨declares, alters⟩ := createTable_declares done
    exact iff_of_true ⟨declares, fun _ => alters⟩ (.inl outdated)
  · rename_i current
    obtain ⟨table, holds, matched⟩ := recorded.table
    obtain ⟨⟨dirty, middle⟩, fields_done, returned⟩ := Option.bind_eq_some_iff.mp returned
    obtain ⟨⟨dirty', last⟩, index_done, rfl⟩ := Option.map_eq_some_iff.mp returned
    obtain ⟨-, clean, unchanged⟩ := modifyAllField_becomes holds matched fields_done
    cases dirty with
    | false =>
        obtain rfl := unchanged rfl
        have same := clean.mp rfl
        exact iff_of_true (modifyTable_migrated recorded same index_done) (.inr (.inl same))
    | true =>
        cases index_done
        have differ : ¬ SameFields lastSchema.fieldDefine schema.fieldDefine := by
          intro same
          cases clean.mpr same
        refine (modifyAllField_migrated_iff recorded fields_done).trans ?_
        simp [Migratable, current, differ]

end

def roleSchema : Schema where
  fieldDefine := [("uuid", "varchar(32)")]
  indexDefine := [{ keyword := "primary key",
                    index := { kind := .primary, name := "PRIMARY", columns := ["uuid"] } }]
  nodup := by decide
  named := by decide
  covered := by decide

def levelSchema : Schema where
  fieldDefine := [("uuid", "varchar(32)"), ("level", "int")]
  indexDefine := roleSchema.indexDefine
  nodup := by decide
  named := by decide
  covered := by decide

/-- The schema with another column and an index on it. -/
def rankSchema : Schema where
  fieldDefine := levelSchema.fieldDefine
  indexDefine := roleSchema.indexDefine ++
    [{ keyword := "index", index := { kind := .plain, name := "level", columns := ["level"] } }]
  nodup := by decide
  named := by decide
  covered := by decide

/-- The database in which the first schema is recorded. -/
def roleDatabase : Database where
  table := some { columns := fun name => roleSchema.fieldDefine.lookup name
                  indexes := roleSchema.indexDefine.map IndexDefine.index }
  luaSchema := some (some roleSchema.record)
  alters := []

theorem roleDatabase_recorded : roleDatabase.Recorded roleSchema.record :=
  ⟨rfl, _, rfl, fun _ => rfl, fun _ => Iff.rfl⟩

theorem checkCreateTable_migrated_iff_level :
    ∃ db', checkCreateTable levelSchema roleDatabase = some db' ∧
      Migrated roleDatabase roleSchema.record levelSchema db' := by
  refine ⟨_, rfl, (checkCreateTable_migrated_iff roleDatabase_recorded rfl).mpr ?_⟩
  exact .inr (.inr fun index => by rfl)

/-- A column and an index are added at once: the migration returns, the index is recorded, and the
table does not have it. -/
theorem rankSchema_not_migrated :
    ¬ ∀ {db db' : Database} {lastSchema : Record} {schema : Schema}, db.Recorded lastSchema →
      checkCreateTable schema db = some db' → Migrated db lastSchema schema db' := by
  intro migrates
  obtain ⟨⟨⟨table, holds, -, indexes⟩, -⟩, -⟩ :=
    @migrates _ _ _ rankSchema roleDatabase_recorded rfl
  cases holds
  have level := (indexes { kind := .plain, name := "level", columns := ["level"] }).mpr (by decide)
  simp [roleSchema] at level

end UEServer.Migration
