import UEServer.Migration.Database

/-!
# `check_create_table`

The migration of `db/schema.lua`: the columns are compared with the recorded ones, and only if none
of them changed the indexes are.  Where a function gives nothing, the source raises.
-/

namespace UEServer.Migration

def schemaDebugVersion : Int := 1

def Schema.record (schema : Schema) : Record :=
  { schema with debugVersion := some schemaDebugVersion }

def createTable (schema : Schema) (db : Database) : Option Database :=
  match db.table, db.luaSchema with
  | none, some none => some
      { db with
        table := some
          { columns := fun name => schema.fieldDefine.lookup name
            indexes := schema.indexDefine.map IndexDefine.index }
        luaSchema := some (some schema.record) }
  | _, _ => none

/-- The first loop of `_modify_all_field`, over the recorded columns. -/
def dropFields (newFieldDefine : List (String × String)) :
    List (String × String) → Database → Option (Bool × Database)
  | [], db => some (false, db)
  | (name, _) :: fields, db =>
      if (newFieldDefine.lookup name).isSome then dropFields newFieldDefine fields db
      else (db.execute (dropColumn name)).bind fun db =>
        (dropFields newFieldDefine fields db).map fun (_, db) => (true, db)

/-- The name of the column that takes the values while a column is retyped. -/
def tmpName (name : String) : String := name ++ "_tmp_for_modify"

/-- Replace a column by one of the new type. The values are copied in between, which changes no
column. -/
def retype (name value : String) (db : Database) : Option Database :=
  (db.execute (addColumn (tmpName name) value)).bind fun db =>
    (db.execute (dropColumn name)).bind fun db =>
      db.execute (changeColumn (tmpName name) name value)

def copied (oldDefine value : String) : Bool :=
  oldDefine = "double" ∧ (value = "int" ∨ value = "bigint") ∨
    (oldDefine = "int" ∨ oldDefine = "bigint") ∧ value = "double"

def modifyField (oldFieldDefine : List (String × String)) (name value : String) (db : Database) :
    Option Database :=
  match oldFieldDefine.lookup name with
  | none => db.execute (addColumn name value)
  | some oldDefine =>
      if copied oldDefine value then retype name value db
      else db.execute (modifyColumn name value)

/-- The second loop of `_modify_all_field`, over the declared columns. -/
def modifyFields (oldFieldDefine : List (String × String)) :
    List (String × String) → Database → Option (Bool × Database)
  | [], db => some (false, db)
  | (name, value) :: fields, db =>
      if oldFieldDefine.lookup name = some value then modifyFields oldFieldDefine fields db
      else
        (modifyField oldFieldDefine name value db).bind fun db =>
          (modifyFields oldFieldDefine fields db).map fun (_, db) => (true, db)

def modifyAllField (schema : Schema) (oldFieldDefine : List (String × String)) (db : Database) :
    Option (Bool × Database) :=
  (dropFields schema.fieldDefine oldFieldDefine db).bind fun (dropped, db) =>
    (modifyFields oldFieldDefine schema.fieldDefine db).map fun (modified, db) =>
      (dropped || modified, db)

/-- The first loop of `_modify_all_index`, over the recorded indexes. -/
def dropIndexes (newIndexDefine : List IndexDefine) :
    List IndexDefine → Database → Option (Bool × Database)
  | [], db => some (false, db)
  | define :: defines, db =>
      if define ∈ newIndexDefine then dropIndexes newIndexDefine defines db
      else define.matched.bind fun name =>
        (db.execute (dropIndex name)).bind fun db =>
          (dropIndexes newIndexDefine defines db).map fun (_, db) => (true, db)

/-- The second loop of `_modify_all_index`, over the declared indexes. -/
def addIndexes (oldIndexDefine : List IndexDefine) :
    List IndexDefine → Database → Option (Bool × Database)
  | [], db => some (false, db)
  | define :: defines, db =>
      if define ∈ oldIndexDefine then addIndexes oldIndexDefine defines db
      else define.matched.bind fun name =>
        (db.execute (addIndex name define.index.columns)).bind fun db =>
          (addIndexes oldIndexDefine defines db).map fun (_, db) => (true, db)

def modifyAllIndex (schema : Schema) (oldIndexDefine : List IndexDefine) (db : Database) :
    Option (Bool × Database) :=
  (dropIndexes schema.indexDefine oldIndexDefine db).bind fun (dropped, db) =>
    (addIndexes oldIndexDefine schema.indexDefine db).map fun (added, db) =>
      (dropped || added, db)

/-- The differences between a recorded schema and the declared one. The indexes are looked at only
if no column was changed. -/
def modifyTable (schema : Schema) (lastSchema : Record) (db : Database) : Option Database :=
  (modifyAllField schema lastSchema.fieldDefine db).bind fun (dirty, db) =>
    (if dirty then some (true, db) else modifyAllIndex schema lastSchema.indexDefine db).map
      fun (dirty, db) =>
        if dirty then { db with luaSchema := some (some schema.record) } else db

def Record.outdated (lastSchema : Record) : Bool :=
  lastSchema.debugVersion.getD 0 < schemaDebugVersion

/-- `check_create_table`, with `IS_DEBUG`. -/
def checkCreateTable (schema : Schema) (db : Database) : Option Database :=
  match db.luaSchema with
  | none | some none => createTable schema { db with luaSchema := some none }
  | some (some lastSchema) =>
      if lastSchema.outdated then
        db.table.bind fun _ => createTable schema { db with table := none, luaSchema := some none }
      else modifyTable schema lastSchema db

end UEServer.Migration
